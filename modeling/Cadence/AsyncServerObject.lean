import Cadence.AsyncServer
import Cadence.Foundation.ObjectStore

/-!
# Servers as objects

The continuation of an accept holds references to the acceptor and to the handler of the object on
which the accept was started, and a move leaves both of these empty. The location of that object is
kept here with every accept that is outstanding and with every accept that is completed.
-/

namespace Cadence.AsyncServerObject

open AsyncServer (Call)

/-- The new object and what is left in the old one. -/
def moveConstruct (rhs : AsyncServer) : AsyncServer × AsyncServer :=
  (rhs, ⟨⟨none⟩, false⟩)

structure World where
  servers : ObjectStore Nat AsyncServer
  /-- The location the server was last moved to. It is the one calls are made on. -/
  owner : Nat
  sessions : List Nat
  completed : List (Nat × Completion)
  accepted : List Connection
  handled : List Connection
  listening : Bool

namespace World

def create (connectionHandler : Bool) : World where
  servers := fun loc => if loc = 0 then some ⟨.create, connectionHandler⟩ else none
  owner := 0
  sessions := []
  completed := []
  accepted := []
  handled := []
  listening := false

/-- The acceptor and the handler passed to `doAcceptSession` are the members of the server at `loc`. -/
def doAcceptSession (world : World) (loc : Nat) : Option World :=
  (world.servers loc).bind fun server => server.doAcceptSession.map fun server =>
    { world with servers := world.servers.put loc server, sessions := world.sessions ++ [loc] }

def startListen (world : World) (endpoint : NetworkEndpoint) (outcomes : NativeOutcomes) :
    Option World :=
  (world.servers world.owner).bind fun server =>
    (server.acceptor.open endpoint outcomes).bind fun
      | (.ok (), acceptor) =>
          ({ world with
              servers := world.servers.put world.owner { server with acceptor := acceptor }
              listening := true } : World).doAcceptSession world.owner
      | (.error _, acceptor) =>
          some { world with
            servers := world.servers.put world.owner { server with acceptor := acceptor } }

def stop (world : World) : Option World :=
  (world.servers world.owner).bind fun server => server.stop.map fun
    | (server, _) =>
        { world with
          servers := world.servers.put world.owner server
          sessions := []
          completed := world.completed ++
            world.sessions.map fun loc => (loc, .failed ECANCELED) }

def call (world : World) : Call → Option World
  | .startListen endpoint outcomes => world.startListen endpoint outcomes
  | .stop => world.stop

/-- The accepts of one native acceptor complete in the order they were started in. -/
def complete (world : World) (completion : Completion) : Option World :=
  match world.sessions with
  | [] => none
  | loc :: sessions => (world.servers world.owner).map fun server =>
      { world with
        servers := world.servers.put world.owner
          { server with acceptor.pimpl := server.acceptor.pimpl.map AcceptorImpl.completeAccept }
        sessions := sessions
        completed := world.completed ++ [(loc, completion)]
        accepted := match completion with
          | .peer connection => world.accepted ++ [connection]
          | .failed _ => world.accepted }

/-- `if (handler) handler(std::move(socket))`, with the handler of the server at `loc`. -/
def handOver (world : World) (loc : Nat) (connection : Connection) (calls : List Call) :
    Option World :=
  (world.servers loc).bind fun server =>
    if server.connectionHandler then
      calls.foldlM call { world with handled := world.handled ++ [connection] }
    else some world

def continuation (world : World) (loc : Nat) (connection : Connection) (calls : List Call) :
    Option World :=
  (world.handOver loc connection calls).bind fun world =>
    (world.servers loc).bind fun server => server.acceptor.isOpen.bind fun
      | true => world.doAcceptSession loc
      | false => some world

def runCompletion (world : World) (i : Nat) (calls : List Call) : Option World :=
  world.completed[i]?.bind fun
    | (loc, .peer connection) =>
        continuation { world with completed := world.completed.eraseIdx i } loc connection calls
    | (_, .failed _) => some { world with completed := world.completed.eraseIdx i }

/-- `AsyncServer(std::move(rhs))` at a location not used before. -/
def move (world : World) : Option World :=
  (world.servers world.owner).map fun rhs =>
    { world with
      servers := (world.servers.put world.owner (moveConstruct rhs).2).put (world.owner + 1)
        (moveConstruct rhs).1
      owner := world.owner + 1 }

/-- What there is to see of the server without regard to where it lives. -/
def seen (world : World) : Option AsyncServer.World :=
  (world.servers world.owner).map fun server =>
    ⟨server, world.completed.map Prod.snd, world.accepted, world.handled, world.listening⟩

end World

inductive Action where
  | move
  | serve (action : AsyncServer.Action)

def step (world : World) : Action → Option World
  | .move => world.move
  | .serve (.call call) => world.call call
  | .serve (.complete completion) => world.complete completion
  | .serve (.runCompletion i calls) => world.runCompletion i calls

def Action.unmoved : Action → Option AsyncServer.Action
  | .move => none
  | .serve action => some action

end Cadence.AsyncServerObject
