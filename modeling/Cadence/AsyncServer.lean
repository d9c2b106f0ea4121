import Cadence.Async.Acceptor
import Mathlib.Data.List.Basic

/-!
# The server

`AsyncServer` keeps one accept outstanding by starting the next one in the continuation of the last.
The event loop appears here as what it does to the server: it completes an outstanding accept, and at
some later moment runs the handler of a completed one.
-/

namespace Cadence

structure AsyncServer where
  acceptor : Acceptor
  /-- Whether `_connectionHandler` holds a function. -/
  connectionHandler : Bool
  deriving DecidableEq

abbrev Connection := Nat

inductive Completion where
  | peer (connection : Connection)
  | failed (ec : Errno)
  deriving DecidableEq

namespace AsyncServer

inductive Call where
  | startListen (endpoint : NetworkEndpoint) (outcomes : NativeOutcomes)
  | stop

/-- The first lines of `doAcceptSession`. The continuation is `World.continuation`. -/
def doAcceptSession (server : AsyncServer) : Option AsyncServer :=
  server.acceptor.asyncAccept.map fun acceptor => { server with acceptor := acceptor }

def startListen (server : AsyncServer) (endpoint : NetworkEndpoint) (outcomes : NativeOutcomes) :
    Option (Except Error Unit × AsyncServer) :=
  (server.acceptor.open endpoint outcomes).bind fun
    | (.ok (), acceptor) =>
        (doAcceptSession { server with acceptor := acceptor }).map fun server => (.ok (), server)
    | (.error e, acceptor) => some (.error e, { server with acceptor := acceptor })

/-- The server, and how many accepts its closing aborted. -/
def stop (server : AsyncServer) : Option (AsyncServer × Nat) :=
  server.acceptor.close.map fun result =>
    result.map (fun acceptor => { server with acceptor := acceptor }) id

def accepting (server : AsyncServer) : Nat :=
  (server.acceptor.pimpl.map AcceptorImpl.accepting).getD 0

structure World where
  server : AsyncServer
  completed : List Completion
  accepted : List Connection
  handled : List Connection
  /-- Some `startListen` returned without an error. -/
  listening : Bool
  deriving DecidableEq

def World.create (connectionHandler : Bool) : World :=
  ⟨⟨.create, connectionHandler⟩, [], [], [], false⟩

namespace World

def call (world : World) : Call → Option World
  | .startListen endpoint outcomes =>
      (world.server.startListen endpoint outcomes).map fun
        | (.ok (), server) => { world with server := server, listening := true }
        | (.error _, server) => { world with server := server }
  | .stop =>
      world.server.stop.map fun
        | (server, aborted) =>
            { world with
              server := server
              completed := world.completed ++ List.replicate aborted (.failed ECANCELED) }

def complete (world : World) (completion : Completion) : Option World :=
  if 0 < world.server.accepting then
    some { world with
      server.acceptor.pimpl := world.server.acceptor.pimpl.map AcceptorImpl.completeAccept
      completed := world.completed ++ [completion]
      accepted := match completion with
        | .peer connection => world.accepted ++ [connection]
        | .failed _ => world.accepted }
  else none

/-- `if (handler) handler(std::move(socket))`. The connection handler makes `calls` on the server. -/
def handOver (world : World) (connection : Connection) (calls : List Call) : Option World :=
  if world.server.connectionHandler then
    calls.foldlM call { world with handled := world.handled ++ [connection] }
  else some world

/-- The continuation passed to `then` in `doAcceptSession`. -/
def continuation (world : World) (connection : Connection) (calls : List Call) : Option World :=
  (world.handOver connection calls).bind fun world =>
    world.server.acceptor.isOpen.bind fun
      | true => world.server.doAcceptSession.map fun server => { world with server := server }
      | false => some world

/-- A handler run by the event loop sets the promise. A promise that is set to an error has no
continuation to run. -/
def runCompletion (world : World) (i : Nat) (calls : List Call) : Option World := do
  match ← world.completed[i]? with
  | .peer connection =>
      continuation { world with completed := world.completed.eraseIdx i } connection calls
  | .failed _ => some { world with completed := world.completed.eraseIdx i }

end World

inductive Action where
  | call (call : Call)
  | complete (completion : Completion)
  | runCompletion (i : Nat) (calls : List Call)

def step (world : World) : Action → Option World
  | .call call => world.call call
  | .complete completion => world.complete completion
  | .runCompletion i calls => world.runCompletion i calls

end AsyncServer

end Cadence
