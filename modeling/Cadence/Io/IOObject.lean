import Cadence.ByteBuffer

/-!
# Streaming from and to an object

`IOObject` hands a part of a buffer to the virtual `read` or `write` of the object and then moves the
buffer by the count that comes back. A device is any object whose virtual functions keep to the views
they are given; what it has accepted or delivered so far is recorded beside it.
-/

namespace Cadence

open ByteCursor Segment

abbrev IOResult := Except Error Nat

/-- The bytes that a call has moved, by its result. -/
def countOf : Except Exception IOResult → Nat
  | .ok (.ok n) => n
  | _ => 0

/-- A virtual `write(MemoryView)` that accepts a prefix of the view and returns its length, or fails
and accepts nothing. -/
class OutputDevice (Device : Type) where
  write : Device → List Byte → Except Exception IOResult × Device
  accepted : Device → List Byte
  count_le : ∀ device view, countOf (write device view).1 ≤ view.length
  accepted_write : ∀ device view, accepted (write device view).2 =
    accepted device ++ view.take (countOf (write device view).1)

/-- A virtual `read(MutableMemoryView)` that fills a prefix of the view and returns its length, or
fails. It takes the bytes in the view and gives back those it leaves there. -/
class InputDevice (Device : Type) where
  read : Device → List Byte → Except Exception IOResult × List Byte × Device
  delivered : Device → List Byte
  length_read : ∀ device view, (read device view).2.1.length = view.length
  count_le : ∀ device view, countOf (read device view).1 ≤ view.length
  delivered_read : ∀ device view, delivered (read device view).2.2 =
    delivered device ++ (read device view).2.1.take (countOf (read device view).1)

namespace IOObject

variable {Buffer Device Reader Writer : Type} [ByteCursor Buffer] [ByteCursor Reader]
  [ByteWriter Writer]

/-- The continuation given to `then`, which looks at the count alone. -/
def advancedBy (result : Except Exception IOResult) (buffer : Buffer) : Buffer :=
  match result with
  | .ok (.ok bytesRead) => advanced buffer bytesRead
  | _ => buffer

def read [InputDevice Device] (device : Device) (destBuffer : Writer) (bytesToRead : Nat) :
    Except Exception IOResult × Device × Writer :=
  match sliceRemaining destBuffer 0 bytesToRead with
  | .error e => (.error e, device, destBuffer)
  | .ok destSlice =>
      let view := between (bytes destBuffer) destSlice.offset (destSlice.offset + destSlice.length)
      let (result, filled, device) := InputDevice.read device view
      (result, device, advancedBy result (ByteWriter.store destBuffer destSlice.offset filled))

def write [OutputDevice Device] (device : Device) (srcBuffer : Reader) (bytesToWrite : Nat) :
    Except Exception IOResult × Device × Reader :=
  match sliceRemaining srcBuffer 0 bytesToWrite with
  | .error e => (.error e, device, srcBuffer)
  | .ok srcSlice =>
      let view := between (bytes srcBuffer) srcSlice.offset (srcSlice.offset + srcSlice.length)
      let (result, device) := OutputDevice.write device view
      (result, device, advancedBy result srcBuffer)

/-! ### One call -/

theorem advancedBy_of_le {result : Except Exception IOResult} {buffer : Buffer}
    (hcount : position buffer + countOf result ≤ (bytes buffer).length) :
    position (advancedBy result buffer) = position buffer + countOf result ∧
      bytes (advancedBy result buffer) = bytes buffer := by
  cases result with
  | error e => exact ⟨rfl, rfl⟩
  | ok result =>
      cases result with
      | error e => exact ⟨rfl, rfl⟩
      | ok n => exact advanced_of_le hcount

theorem write_spec [OutputDevice Device] (device : Device) {src : Reader} {n : Nat}
    (hn : n ≤ remaining src) :
    let call := write device src n
    countOf call.1 ≤ n ∧ position call.2.2 = position src + countOf call.1 ∧
      bytes call.2.2 = bytes src ∧ OutputDevice.accepted call.2.1 = OutputDevice.accepted device ++
        between (bytes src) (position src) (position src + countOf call.1) := by
  have hfits := add_le_of_le_remaining hn
  have hview : (between (bytes src) (position src) (position src + n)).length = n := by
    rw [length_between hfits, Nat.add_sub_cancel_left]
  simp only [write, slice_of_le src n hfits]
  have hcount := OutputDevice.count_le device (between (bytes src) (position src) (position src + n))
  have haccepted := OutputDevice.accepted_write device
    (between (bytes src) (position src) (position src + n))
  generalize OutputDevice.write device (between (bytes src) (position src) (position src + n)) =
    call at hcount haccepted ⊢
  obtain ⟨result, next⟩ := call
  rw [hview] at hcount
  dsimp only at hcount haccepted
  have hroom : position src + countOf result ≤ (bytes src).length := by omega
  obtain ⟨hposition, hbytes⟩ := advancedBy_of_le hroom
  refine ⟨hcount, hposition, hbytes, haccepted.trans ?_⟩
  rw [take_between (Nat.add_le_add_left hcount _)]

theorem read_spec [InputDevice Device] (device : Device) {dest : Writer} {n : Nat}
    (hn : n ≤ remaining dest) :
    let call := read device dest n
    countOf call.1 ≤ n ∧ position call.2.2 = position dest + countOf call.1 ∧
      (∃ filled, filled.length = n ∧
        bytes call.2.2 = overwrite (bytes dest) (position dest) filled) ∧
      InputDevice.delivered call.2.1 = InputDevice.delivered device ++
        between (bytes call.2.2) (position dest) (position dest + countOf call.1) := by
  have hfits := add_le_of_le_remaining hn
  have hview : (between (bytes dest) (position dest) (position dest + n)).length = n := by
    rw [length_between hfits, Nat.add_sub_cancel_left]
  simp only [read, slice_of_le dest n hfits]
  have hlength := InputDevice.length_read device
    (between (bytes dest) (position dest) (position dest + n))
  have hcount := InputDevice.count_le device
    (between (bytes dest) (position dest) (position dest + n))
  have hdelivered := InputDevice.delivered_read device
    (between (bytes dest) (position dest) (position dest + n))
  generalize InputDevice.read device (between (bytes dest) (position dest) (position dest + n)) =
    call at hlength hcount hdelivered ⊢
  obtain ⟨result, filled, next⟩ := call
  rw [hview] at hlength hcount
  dsimp only at hlength hcount hdelivered
  have hstored : bytes (ByteWriter.store dest (position dest) filled) =
      overwrite (bytes dest) (position dest) filled :=
    ByteWriter.bytes_store dest (position dest) filled (hlength.symm ▸ hfits)
  have hroom : position (ByteWriter.store dest (position dest) filled) + countOf result ≤
      (bytes (ByteWriter.store dest (position dest) filled)).length := by
    rw [ByteWriter.position_store, hstored, length_overwrite (hlength.symm ▸ hfits)]
    omega
  obtain ⟨hposition, hbytes⟩ := advancedBy_of_le hroom
  rw [ByteWriter.position_store] at hposition
  rw [hstored] at hbytes
  refine ⟨hcount, hposition, ⟨filled, hlength, hbytes⟩, ?_⟩
  rw [hbytes, between_overwrite_take (hlength.symm ▸ hfits) (hlength.symm ▸ hcount)]
  exact hdelivered

end IOObject

end Cadence
