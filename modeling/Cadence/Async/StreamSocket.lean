import Cadence.Async.Channel
import Cadence.Foundation.Strands

/-!
# Stream sockets

`async_read` and `async_write` are composed: they go on until all of their view has been moved, or an
error ends them, and other operations on the socket may move bytes in between. A connection carries
bytes both ways, and one way of it is the writes of the one socket with the reads of the other.

What has been accepted from the writes and what has been handed to the reads is recorded with the
number of the operation.
-/

namespace Cadence

open ByteCursor Segment Strands

/-- The two implementations of a stream socket. -/
inductive StreamSocketImpl where
  | tcp
  | streamDomain
  deriving DecidableEq

def StreamSocketImpl.transport : StreamSocketImpl → Transport
  | .tcp => .tcp
  | .streamDomain => .streamDomain

namespace StreamSocket

variable {Reader Writer Buffer : Type} [ByteCursor Reader] [ByteWriter Writer] [ByteCursor Buffer]

/-- An operation is done when its handler can run, and resolved when the handler has run. -/
inductive Progress where
  | moving
  | done (ec : Option Errno)
  | resolved (ec : Option Errno)
  deriving DecidableEq

/-- A composed operation, with the number of bytes it has moved. -/
structure Composed (Buffer : Type) where
  buffer : Buffer
  view : MemoryView
  moved : Nat
  progress : Progress

namespace Composed

/-- Nothing to transfer completes at once, and so does anything on a closed socket. It must not ask
for more than the buffer has. -/
def submit (isOpen : Bool) (buffer : Buffer) (n : Nat) : Option (Composed Buffer) :=
  if n ≤ remaining buffer then
    (asioBuffer buffer n).toOption.map fun view =>
      ⟨buffer, view, 0,
        if n = 0 then .done none else if isOpen then .moving else .done (some EBADF)⟩
  else none

/-- `count` more bytes are moved, where the operation has that many left. -/
def move (operation : Composed Buffer) (count : Nat) : Option (Composed Buffer) :=
  if operation.progress = .moving ∧ 0 < count ∧
      operation.moved + count ≤ operation.view.length then
    some { operation with
      moved := operation.moved + count
      progress := if operation.moved + count = operation.view.length then .done none else .moving }
  else none

def fail (operation : Composed Buffer) (ec : Errno) : Option (Composed Buffer) :=
  if operation.progress = .moving then some { operation with progress := .done (some ec) } else none

def deliver (operation : Composed Buffer) : Option (Composed Buffer) :=
  match operation.progress with
  | .done ec => some { operation with progress := .resolved ec }
  | _ => none

/-- The bytes from the cursor on that the operation has taken out of its buffer, or put there. -/
def passed (operation : Composed Buffer) : List Byte :=
  between (bytes operation.buffer) (position operation.buffer)
    (position operation.buffer + operation.moved)

end Composed

/-- What the handler makes of the promise and of the buffer. -/
def handler (impl : StreamSocketImpl) (call : Operation) (operation : Composed Buffer)
    (ec : Option Errno) : Outcome Buffer :=
  impl.transport.finish call operation.buffer ec operation.moved

/-- One way of a connection. The kernel has room for at least one byte. -/
structure OneWay (Reader Writer : Type) where
  writes : List (Composed Reader)
  reads : List (Composed Writer)
  inFlight : List Byte
  capacity : Nat
  capacity_pos : 0 < capacity
  sourceOpen : Bool
  sinkOpen : Bool
  accepted : List (Nat × Byte)
  handed : List (Nat × Byte)

namespace OneWay

def connected (more : Nat) : OneWay Reader Writer :=
  ⟨[], [], [], more + 1, Nat.succ_pos more, true, true, [], []⟩

def asyncWrite (way : OneWay Reader Writer) (src : Reader) (bytesToWrite : Nat) :
    Option (OneWay Reader Writer) :=
  (Composed.submit way.sourceOpen src bytesToWrite).map fun operation =>
    { way with writes := way.writes ++ [operation] }

def asyncRead (way : OneWay Reader Writer) (dest : Writer) (bytesToRead : Nat) :
    Option (OneWay Reader Writer) :=
  (Composed.submit way.sinkOpen dest bytesToRead).map fun operation =>
    { way with reads := way.reads ++ [operation] }

/-- One write changes. -/
def onWrite (way : OneWay Reader Writer) (i : Nat)
    (change : Composed Reader → Option (Composed Reader)) : Option (OneWay Reader Writer) :=
  match way.writes[i]? with
  | none => none
  | some operation => (change operation).map fun operation =>
      { way with writes := way.writes.set i operation }

def onRead (way : OneWay Reader Writer) (i : Nat)
    (change : Composed Writer → Option (Composed Writer)) : Option (OneWay Reader Writer) :=
  match way.reads[i]? with
  | none => none
  | some operation => (change operation).map fun operation =>
      { way with reads := way.reads.set i operation }

/-- The kernel takes the next bytes of a write. -/
def writeSome (way : OneWay Reader Writer) (i count : Nat) : Option (OneWay Reader Writer) :=
  match way.writes[i]? with
  | none => none
  | some operation =>
      if way.inFlight.length + count ≤ way.capacity then
        let start := operation.view.offset + operation.moved
        let data := between (bytes operation.buffer) start (start + count)
        (operation.move count).map fun operation =>
          { way with
            writes := way.writes.set i operation
            inFlight := way.inFlight ++ data
            accepted := way.accepted ++ tagged i data }
      else none

/-- A read gets the bytes that come next. -/
def readSome (way : OneWay Reader Writer) (i count : Nat) : Option (OneWay Reader Writer) :=
  match way.reads[i]? with
  | none => none
  | some operation =>
      if count ≤ way.inFlight.length then
        let data := way.inFlight.take count
        (operation.move count).map fun moved =>
          { way with
            reads := way.reads.set i { moved with
              buffer := ByteWriter.store operation.buffer
                (operation.view.offset + operation.moved) data }
            inFlight := way.inFlight.drop count
            handed := way.handed ++ tagged i data }
      else none

inductive Action (Reader Writer : Type) where
  | asyncWrite (src : Reader) (bytesToWrite : Nat)
  | asyncRead (dest : Writer) (bytesToRead : Nat)
  | closeSource
  | closeSink
  | failWrite (i : Nat) (ec : Errno)
  | failRead (i : Nat) (ec : Errno)
  | resize (more : Nat)
  | writeSome (i count : Nat)
  | abortWrite (i : Nat) (ec : Errno)
  | readSome (i count : Nat)
  | abortRead (i : Nat) (ec : Errno)
  | readEnd (i : Nat)
  | deliverWrite (i : Nat)
  | deliverRead (i : Nat)

/-- The actions of the loops at the two ends and of the kernel between them. A cancelled operation
fails, and so may any other. -/
def OfLoop : Action Reader Writer → Prop
  | .writeSome _ _ | .abortWrite _ _ | .readSome _ _ | .abortRead _ _ | .readEnd _
  | .deliverWrite _ | .deliverRead _ => True
  | .asyncWrite _ _ | .asyncRead _ _ | .closeSource | .closeSink | .failWrite _ _ | .failRead _ _
  | .resize _ => False

def step (way : OneWay Reader Writer) : Action Reader Writer → Option (OneWay Reader Writer)
  | .asyncWrite src bytesToWrite => way.asyncWrite src bytesToWrite
  | .asyncRead dest bytesToRead => way.asyncRead dest bytesToRead
  | .closeSource => some { way with sourceOpen := false }
  | .closeSink => some { way with sinkOpen := false }
  | .failWrite i ec => way.onWrite i fun operation => operation.fail ec
  | .failRead i ec => way.onRead i fun operation => operation.fail ec
  | .resize more => some { way with capacity := more + 1, capacity_pos := Nat.succ_pos more }
  | .writeSome i count => if way.sourceOpen then way.writeSome i count else none
  -- a socket at either end has been closed
  | .abortWrite i ec =>
      if way.sourceOpen ∧ way.sinkOpen then none
      else way.onWrite i fun operation => operation.fail ec
  | .readSome i count => if way.sinkOpen then way.readSome i count else none
  | .abortRead i ec =>
      if way.sinkOpen then none else way.onRead i fun operation => operation.fail ec
  | .readEnd i =>
      if way.sourceOpen = false ∧ way.inFlight = [] then
        way.onRead i fun operation => operation.fail eof
      else none
  | .deliverWrite i => way.onWrite i Composed.deliver
  | .deliverRead i => way.onRead i Composed.deliver

end OneWay

end StreamSocket

end Cadence
