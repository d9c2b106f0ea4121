import Cadence.Async.Channel

/-!
# Transfers of a channel

An operation of a channel that asio performs in one piece moves some bytes, or fails and moves none.
Its handler runs later, and moves the cursor of the buffer behind the bytes.
-/

namespace Cadence

open ByteCursor Segment

/-- What an operation was started with. -/
structure ChannelTransfer (Buffer : Type) where
  buffer : Buffer
  view : MemoryView

abbrev Moved := Except Errno (List Byte)

namespace Moved

def errorCode : Moved → Option Errno
  | .error ec => some ec
  | .ok _ => none

def data : Moved → List Byte
  | .error _ => []
  | .ok data => data

end Moved

variable {Reader Writer Buffer : Type} [ByteCursor Reader] [ByteWriter Writer] [ByteCursor Buffer]

namespace ChannelTransfer

def front (transfer : ChannelTransfer Reader) (length : Nat) : List Byte :=
  between (bytes transfer.buffer) transfer.view.offset (transfer.view.offset + length)

theorem length_front {transfer : ChannelTransfer Buffer} {length : Nat}
    (hoffset : transfer.view.offset = position transfer.buffer)
    (hfits : position transfer.buffer + length ≤ (bytes transfer.buffer).length) :
    (transfer.front length).length = length := by
  rw [front, length_between (hoffset ▸ hfits), Nat.add_sub_cancel_left]

/-- The cursor has passed the bytes that were moved, and the future says whether it went well. -/
structure Passed (op : ChannelTransfer Buffer) (moved : Moved) (outcome : Outcome Buffer) :
    Prop where
  ok_iff : outcome.1 = .ok () ↔ moved.errorCode = none
  moved_by : position outcome.2 = position op.buffer + moved.data.length
  passed : between (bytes outcome.2) (position op.buffer) (position outcome.2) = moved.data

variable {moved : Moved} {tag : String}

theorem passed_of_finished {op : ChannelTransfer Buffer} {buffer : Buffer}
    {outcome : Outcome Buffer} (hposition : position buffer = position op.buffer)
    (hbetween : between (bytes buffer) (position op.buffer)
      (position op.buffer + moved.data.length) = moved.data)
    (hfinished : Finished (moved.errorCode = none) buffer moved.errorCode moved.data.length
      outcome) : Passed op moved outcome := by
  have hmoved : position outcome.2 = position op.buffer + moved.data.length := by
    cases moved with
    | ok data => rw [hfinished.moved rfl, hposition]
    | error ec => rw [hfinished.stayed (by simp [Moved.errorCode]), hposition, Moved.data,
        List.length_nil, Nat.add_zero]
  refine ⟨hfinished.ok_iff, hmoved, ?_⟩
  rw [hmoved, hfinished.bytes]
  exact hbetween

/-- The handler of a read, over the buffer into which the bytes were stored. -/
theorem passed_of_stored {op : ChannelTransfer Writer} (hoffset : op.view.offset = position op.buffer)
    (hfits : position op.buffer + moved.data.length ≤ (bytes op.buffer).length) :
    Passed op moved (advanceOnSuccess tag
      (ByteWriter.store op.buffer op.view.offset moved.data) moved.errorCode moved.data.length) := by
  have hstore := ByteWriter.bytes_store op.buffer (position op.buffer) moved.data hfits
  have hroom : position op.buffer + moved.data.length ≤
      (bytes (ByteWriter.store op.buffer (position op.buffer) moved.data)).length := by
    rw [hstore, length_overwrite hfits]
    exact hfits
  have hposition := ByteWriter.position_store op.buffer (position op.buffer) moved.data
  rw [hoffset]
  refine passed_of_finished hposition ?_ (finished_advanceOnSuccess (hposition.symm ▸ hroom))
  rw [hstore, between_overwrite_self hfits]

/-- The handler of a write. -/
theorem passed_of_front {op : ChannelTransfer Reader} (hoffset : op.view.offset = position op.buffer)
    (hfits : position op.buffer + moved.data.length ≤ (bytes op.buffer).length)
    (hfront : moved.data = op.front moved.data.length) :
    Passed op moved
      (advanceOnSuccess tag op.buffer moved.errorCode moved.data.length) := by
  refine passed_of_finished rfl ?_ (finished_advanceOnSuccess hfits)
  rw [front, hoffset] at hfront
  exact hfront.symm

end ChannelTransfer

end Cadence
