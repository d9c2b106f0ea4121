import Cadence.Async.DatagramSocket
import Cadence.Async.Transfer
import Cadence.Foundation.Operations
import Cadence.Foundation.Strands

/-!
# Local datagram sockets at work

The sockets of one machine. A send puts the whole of its view into the queue of the socket that has
the name, or fails, and a read gets the front of the datagram that is first in the queue. What does
not fit the view is dropped. No name is bound twice, since the file of it stays when the socket is
closed.
-/

namespace Cadence

open Operations ByteCursor Segment

/-- A datagram, with the socket it comes from. -/
structure Datagram where
  sender : Nat
  data : List Byte
  deriving DecidableEq

/-- A datagram that has been put into the queue of a socket. -/
structure Passage where
  receiver : Nat
  datagram : Datagram
  deriving DecidableEq

namespace DatagramDomainSocket

variable {Reader Writer Buffer : Type} [ByteCursor Reader] [ByteWriter Writer] [ByteCursor Buffer]

namespace SocketImpl

def asyncRead : Buffer → Option Errno → Nat → Outcome Buffer := advanceOnSuccess "asynRead"
def asyncWrite : Buffer → Option Errno → Nat → Outcome Buffer := advanceOnSuccess "asyncWrite"
def asyncWriteTo : Buffer → Option Errno → Nat → Outcome Buffer := advanceOnSuccess "asyncWriteTo"

end SocketImpl

/-- A send, to the peer of the socket where there is no destination. -/
structure Request (Reader : Type) where
  transfer : ChannelTransfer Reader
  destination : Option AsioLocalEndpoint

/-- A socket of the kernel with the operations on it. `discarded` records that datagrams in its queue
have been thrown away. -/
structure Socket (Reader Writer : Type) where
  name : Option AsioLocalEndpoint
  peer : Option AsioLocalEndpoint
  isOpen : Bool
  queue : List Datagram
  discarded : Bool
  reads : Table (ChannelTransfer Writer) (Except Errno Datagram)
  writes : Table (Request Reader) Moved

namespace Socket

def unbound : Socket Reader Writer := ⟨none, none, false, [], false, [], []⟩

/-- Bound to an empty path, which makes the kernel give it a name that no path is. -/
def autobound : Socket Reader Writer := { unbound with isOpen := true }

def bound (name : AsioLocalEndpoint) : Socket Reader Writer := { autobound with name := some name }

def discard (socket : Socket Reader Writer) : Socket Reader Writer :=
  { socket with queue := [], discarded := socket.discarded || !socket.queue.isEmpty }

/-- The view of an operation. It must not ask for more than the buffer has. -/
def submit (buffer : Buffer) (n : Nat) : Option (ChannelTransfer Buffer) :=
  if n ≤ remaining buffer then (asioBuffer buffer n).toOption.map fun view => ⟨buffer, view⟩
  else none

/-- An operation on a closed socket completes at once. -/
def started (isOpen : Bool) {Result : Type} : Status (Except Errno Result) :=
  if isOpen then .waiting else .ready (.error EBADF)

def asyncRead (socket : Socket Reader Writer) (dest : Writer) (bytesToRead : Nat) :
    Option (Socket Reader Writer) :=
  (submit dest bytesToRead).map fun transfer =>
    { socket with reads := socket.reads ++ [⟨transfer, started socket.isOpen⟩] }

def write (socket : Socket Reader Writer) (src : Reader) (bytesToWrite : Nat)
    (destination : Option AsioLocalEndpoint) : Option (Socket Reader Writer) :=
  (submit src bytesToWrite).map fun transfer =>
    { socket with writes := socket.writes ++ [⟨⟨transfer, destination⟩, started socket.isOpen⟩] }

def asyncWrite (socket : Socket Reader Writer) (src : Reader) (bytesToWrite : Nat) :
    Option (Socket Reader Writer) :=
  socket.write src bytesToWrite none

def asyncWriteTo (socket : Socket Reader Writer) (src : Reader) (bytesToWrite : Nat)
    (endpoint : UnixEndpoint) : Option (Socket Reader Writer) :=
  (toAsioLocalDatagramEndpoint sunPathSize endpoint).bind fun destination =>
    socket.write src bytesToWrite (some destination)

/-- The queue is thrown away when the socket is connected to another peer. -/
def connectTo (socket : Socket Reader Writer) (peer : AsioLocalEndpoint) : Socket Reader Writer :=
  if socket.peer = none ∨ socket.peer = some peer then { socket with peer := some peer }
  else { socket.discard with peer := some peer }

def connect (socket : Socket Reader Writer) (endpoint : UnixEndpoint)
    (openFailure failure : Option Errno) : Option (Socket Reader Writer) := do
  let peer ← toAsioLocalDatagramEndpoint sunPathSize endpoint
  let (result, native) ← connectImpl ⟨socket.isOpen⟩ endpoint openFailure failure
  match result with
  | .ok () => return { socket.connectTo peer with isOpen := native.is_open }
  | .error _ => return { socket with isOpen := native.is_open }

def cancelAll (socket : Socket Reader Writer) : Socket Reader Writer :=
  { socket with
    reads := socket.reads.completeAll fun _ => .error ECANCELED
    writes := socket.writes.completeAll fun _ => .error ECANCELED }

/-- Raises when the socket is closed. -/
def cancel (socket : Socket Reader Writer) : Socket Reader Writer :=
  if socket.isOpen then socket.cancelAll else socket

def close (socket : Socket Reader Writer) : Socket Reader Writer :=
  { socket.cancelAll.discard with name := none, peer := none, isOpen := false }

/-- The first read gets the first datagram. -/
def receive (socket : Socket Reader Writer) : Option (Socket Reader Writer) :=
  match socket.queue with
  | [] => none
  | datagram :: queue =>
      if socket.reads.firstWaiting.isSome then
        some { socket with
          queue := queue
          reads := socket.reads.complete (fun _ => .ok datagram) 1 }
      else none

/-- The first send is done, with all of its view. -/
def sent (socket : Socket Reader Writer) (data : List Byte) : Socket Reader Writer :=
  { socket with writes := socket.writes.complete (fun _ => .ok data) 1 }

def queued (socket : Socket Reader Writer) (datagram : Datagram) : Socket Reader Writer :=
  { socket with queue := socket.queue ++ [datagram] }

def failRead (socket : Socket Reader Writer) (ec : Errno) : Socket Reader Writer :=
  { socket with reads := socket.reads.complete (fun _ => .error ec) 1 }

def failWrite (socket : Socket Reader Writer) (ec : Errno) : Socket Reader Writer :=
  { socket with writes := socket.writes.complete (fun _ => .error ec) 1 }

/-- The peer is gone. The first send to it fails and ends the connection. -/
def losePeer (socket : Socket Reader Writer) : Socket Reader Writer :=
  { (socket.failWrite ECONNREFUSED).discard with peer := none }

def deliverRead (socket : Socket Reader Writer) (k : Nat) : Option (Socket Reader Writer) :=
  (socket.reads.deliver k).map fun reads => { socket with reads := reads }

def deliverWrite (socket : Socket Reader Writer) (k : Nat) : Option (Socket Reader Writer) :=
  (socket.writes.deliver k).map fun writes => { socket with writes := writes }

/-- Whether a datagram for the name gets into the queue. A connected socket takes those of its peer
alone. -/
def Accepts (target source : Socket Reader Writer) (destination : Option AsioLocalEndpoint) : Prop :=
  target.isOpen ∧ destination.isSome ∧ target.name = destination ∧
    (target.peer = none ∨ target.peer = source.name)

instance (target source : Socket Reader Writer) (destination : Option AsioLocalEndpoint) :
    Decidable (target.Accepts source destination) :=
  inferInstanceAs (Decidable (_ ∧ _ ∧ _ ∧ _))

end Socket

/-- What of a datagram is stored in the buffer. -/
def stored (transfer : ChannelTransfer Writer) (result : Except Errno Datagram) : Moved :=
  result.map fun datagram => datagram.data.take transfer.view.length

def readHandler (transfer : ChannelTransfer Writer) (result : Except Errno Datagram) :
    Outcome Writer :=
  let moved := stored transfer result
  SocketImpl.asyncRead (ByteWriter.store transfer.buffer transfer.view.offset moved.data)
    moved.errorCode moved.data.length

def writeHandler (request : Request Reader) (moved : Moved) : Outcome Reader :=
  match request.destination with
  | none => SocketImpl.asyncWrite request.transfer.buffer moved.errorCode moved.data.length
  | some _ => SocketImpl.asyncWriteTo request.transfer.buffer moved.errorCode moved.data.length

structure Network (Reader Writer : Type) where
  sockets : List (Socket Reader Writer)
  names : List AsioLocalEndpoint
  journal : List Passage

namespace Network

def empty : Network Reader Writer := ⟨[], [], []⟩

/-- One socket changes. -/
def onSocket (network : Network Reader Writer) (i : Nat)
    (change : Socket Reader Writer → Option (Socket Reader Writer)) :
    Option (Network Reader Writer) :=
  match network.sockets[i]? with
  | none => none
  | some socket => (change socket).map fun socket =>
      { network with sockets := network.sockets.set i socket }

/-- Raises when the name is in use. -/
def create (network : Network Reader Writer) :
    (endpoint : Option UnixEndpoint) → Option (Network Reader Writer)
  | none => some { network with sockets := network.sockets ++ [Socket.unbound] }
  | some endpoint =>
      (toAsioLocalDatagramEndpoint sunPathSize endpoint).bind fun name =>
        if name.path = [] then
          some { network with sockets := network.sockets ++ [Socket.autobound] }
        else if name ∈ network.names then none
        else
          some { network with
            sockets := network.sockets ++ [Socket.bound name]
            names := name :: network.names }

/-- The first send of socket `i` is for socket `j`. -/
def transmit (network : Network Reader Writer) (i j : Nat) : Option (Network Reader Writer) :=
  match network.sockets[i]?, network.sockets[j]? with
  | some source, some target =>
      match source.writes.firstWaiting with
      | none => none
      | some request =>
          if target.Accepts source (request.destination <|> source.peer) then
            let data := request.transfer.front request.transfer.view.length
            some { network with
              sockets := (network.sockets.modify i fun socket => socket.sent data).modify j
                fun socket => socket.queued ⟨i, data⟩
              journal := network.journal ++ [⟨j, ⟨i, data⟩⟩] }
          else none
  | _, _ => none

inductive Action (Reader Writer : Type) where
  | create (endpoint : Option UnixEndpoint)
  | connect (i : Nat) (endpoint : UnixEndpoint) (openFailure failure : Option Errno)
  | asyncRead (i : Nat) (dest : Writer) (bytesToRead : Nat)
  | asyncWrite (i : Nat) (src : Reader) (bytesToWrite : Nat)
  | asyncWriteTo (i : Nat) (src : Reader) (bytesToWrite : Nat) (endpoint : UnixEndpoint)
  | cancel (i : Nat)
  | close (i : Nat)
  | transmit (i j : Nat)
  | receive (i : Nat)
  | failRead (i : Nat) (ec : Errno)
  | failWrite (i : Nat) (ec : Errno)
  | losePeer (i : Nat)
  | deliverRead (i k : Nat)
  | deliverWrite (i k : Nat)

def step (network : Network Reader Writer) : Action Reader Writer → Option (Network Reader Writer)
  | .create endpoint => network.create endpoint
  | .connect i endpoint openFailure failure =>
      network.onSocket i fun socket => socket.connect endpoint openFailure failure
  | .asyncRead i dest bytesToRead =>
      network.onSocket i fun socket => socket.asyncRead dest bytesToRead
  | .asyncWrite i src bytesToWrite =>
      network.onSocket i fun socket => socket.asyncWrite src bytesToWrite
  | .asyncWriteTo i src bytesToWrite endpoint =>
      network.onSocket i fun socket => socket.asyncWriteTo src bytesToWrite endpoint
  | .cancel i => network.onSocket i fun socket => some socket.cancel
  | .close i => network.onSocket i fun socket => some socket.close
  | .transmit i j => network.transmit i j
  | .receive i => network.onSocket i Socket.receive
  | .failRead i ec => network.onSocket i fun socket => some (socket.failRead ec)
  | .failWrite i ec => network.onSocket i fun socket => some (socket.failWrite ec)
  | .losePeer i => network.onSocket i fun socket => some socket.losePeer
  | .deliverRead i k => network.onSocket i fun socket => socket.deliverRead k
  | .deliverWrite i k => network.onSocket i fun socket => socket.deliverWrite k

end Network

end DatagramDomainSocket

end Cadence
