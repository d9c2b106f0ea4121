import Cadence.Async.Transfer
import Cadence.Foundation.Operations

/-!
# Pipes with a loop

A `Pipe` has both ends of a pipe of the kernel. A read waits until there is something in the pipe and
a write until there is room, and each end serves what was started first. The cursor of a buffer is
moved by the handler, which may run when the end is at work for another operation already. An operation
has its buffer for itself.
-/

namespace Cadence

open Operations ByteCursor Segment

/-- `PIPE_BUF`: as much as this is written at once or not at all. -/
def pipeBuf : Nat := 4096

/-- The pipe of the kernel. An empty one has room for what is written at once. -/
structure PipeBuffer where
  content : List Byte
  room : Nat
  room_of_empty : content = [] → pipeBuf ≤ room

/-- A pipe that has just been made, of any capacity. -/
def PipeBuffer.empty (more : Nat) : PipeBuffer := ⟨[], pipeBuf + more, fun _ => Nat.le_add_right _ _⟩

def PipeBuffer.change (content : List Byte) (room : Nat) : Option PipeBuffer :=
  if hroom : content = [] → pipeBuf ≤ room then some ⟨content, room, hroom⟩ else none

structure Pipe (Reader Writer : Type) where
  buffer : PipeBuffer
  isOpen : Bool
  reads : Table (ChannelTransfer Writer) Moved
  writes : Table (ChannelTransfer Reader) Moved

namespace Pipe

variable {Reader Writer Buffer : Type} [ByteCursor Reader] [ByteWriter Writer] [ByteCursor Buffer]

def create (more : Nat) : Pipe Reader Writer := ⟨PipeBuffer.empty more, true, [], []⟩

/-- Nothing to transfer completes at once, and so does anything on a closed end. -/
def started (isOpen : Bool) (n : Nat) : Status Moved :=
  if n = 0 then .ready (.ok [])
  else if isOpen then .waiting
  else .ready (.error EBADF)

/-- The operation that a call submits. It must not ask for more than the buffer has. -/
def submit (isOpen : Bool) (buffer : Buffer) (n : Nat) : Option (Entry (ChannelTransfer Buffer) Moved) :=
  if n ≤ remaining buffer then
    (asioBuffer buffer n).toOption.map fun view => ⟨⟨buffer, view⟩, started isOpen n⟩
  else none

def asyncRead (pipe : Pipe Reader Writer) (dest : Writer) (bytesToRead : Nat) :
    Option (Pipe Reader Writer) :=
  (submit pipe.isOpen dest bytesToRead).map fun entry =>
    { pipe with reads := pipe.reads ++ [entry] }

def asyncWrite (pipe : Pipe Reader Writer) (src : Reader) (bytesToWrite : Nat) :
    Option (Pipe Reader Writer) :=
  (submit pipe.isOpen src bytesToWrite).map fun entry =>
    { pipe with writes := pipe.writes ++ [entry] }

/-- What the handler of a read makes of the buffer. -/
def readHandler (transfer : ChannelTransfer Writer) (moved : Moved) : Outcome Writer :=
  PipeImpl.asyncRead (ByteWriter.store transfer.buffer transfer.view.offset moved.data)
    moved.errorCode moved.data.length

def writeHandler (transfer : ChannelTransfer Reader) (moved : Moved) : Outcome Reader :=
  PipeImpl.asyncWrite transfer.buffer moved.errorCode moved.data.length

def cancelAll (pipe : Pipe Reader Writer) : Pipe Reader Writer :=
  { pipe with
    reads := pipe.reads.completeAll fun _ => .error ECANCELED
    writes := pipe.writes.completeAll fun _ => .error ECANCELED }

/-- Raises when the pipe is closed. -/
def cancel (pipe : Pipe Reader Writer) : Pipe Reader Writer :=
  if pipe.isOpen then pipe.cancelAll else pipe

def close (pipe : Pipe Reader Writer) : Pipe Reader Writer := { pipe.cancelAll with isOpen := false }

/-- The end is ready for the first read, which takes what there is. -/
def readSome (pipe : Pipe Reader Writer) (room : Nat) : Option (Pipe Reader Writer) :=
  match pipe.reads.firstWaiting with
  | none => none
  | some transfer =>
      if pipe.buffer.content = [] then none
      else
        (PipeBuffer.change (pipe.buffer.content.drop transfer.view.length) room).map fun buffer =>
          { pipe with
            buffer := buffer
            reads := pipe.reads.complete
              (fun _ => .ok (pipe.buffer.content.take transfer.view.length)) 1 }

/-- How much of `n` bytes is written at once. -/
def MayWrite (room n length : Nat) : Prop :=
  0 < length ∧ length ≤ n ∧ length ≤ room ∧ (n ≤ pipeBuf → length = n)

instance (room n length : Nat) : Decidable (MayWrite room n length) :=
  inferInstanceAs (Decidable (_ ∧ _ ∧ _ ∧ (_ → _)))

def writeSome (pipe : Pipe Reader Writer) (length room : Nat) : Option (Pipe Reader Writer) :=
  match pipe.writes.firstWaiting with
  | none => none
  | some transfer =>
      if MayWrite pipe.buffer.room transfer.view.length length then
        let data := transfer.front length
        (PipeBuffer.change (pipe.buffer.content ++ data) room).map fun buffer =>
          { pipe with
            buffer := buffer
            writes := pipe.writes.complete (fun _ => .ok data) 1 }
      else none

inductive Action (Reader Writer : Type) where
  | asyncRead (dest : Writer) (bytesToRead : Nat)
  | asyncWrite (src : Reader) (bytesToWrite : Nat)
  | cancel
  | close
  | readSome (room : Nat)
  | writeSome (length room : Nat)
  | deliverRead (i : Nat)
  | deliverWrite (i : Nat)

/-- The actions of the loop. -/
def OfLoop : Action Reader Writer → Prop
  | .readSome _ | .writeSome _ _ | .deliverRead _ | .deliverWrite _ => True
  | .asyncRead _ _ | .asyncWrite _ _ | .cancel | .close => False

def step (pipe : Pipe Reader Writer) : Action Reader Writer → Option (Pipe Reader Writer)
  | .asyncRead dest bytesToRead => pipe.asyncRead dest bytesToRead
  | .asyncWrite src bytesToWrite => pipe.asyncWrite src bytesToWrite
  | .cancel => some pipe.cancel
  | .close => some pipe.close
  | .readSome room => if pipe.isOpen then pipe.readSome room else none
  | .writeSome length room => if pipe.isOpen then pipe.writeSome length room else none
  | .deliverRead i => (pipe.reads.deliver i).map fun reads => { pipe with reads := reads }
  | .deliverWrite i => (pipe.writes.deliver i).map fun writes => { pipe with writes := writes }

end Pipe

end Cadence
