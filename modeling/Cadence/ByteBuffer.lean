import Cadence.Error
import Cadence.Foundation.Segment
import Cadence.NetworkEndpoint

/-!
# Byte readers and writers

`Solace::ByteReader` and `Solace::ByteWriter` come from another library. A buffer is here any type
with the operations that are used of them, and the laws say what is relied on.
-/

namespace Cadence

open Segment

structure MemoryView where
  offset : Nat
  length : Nat
  deriving DecidableEq

class ByteCursor (Buffer : Type) where
  bytes : Buffer → List Byte
  position : Buffer → Nat
  /-- `viewRemaining().slice(from, to)`. -/
  sliceRemaining : Buffer → (from' to' : Nat) → Except Exception MemoryView
  advance : Buffer → Nat → Except Error Buffer
  position_le : ∀ buffer, position buffer ≤ (bytes buffer).length
  slice_of_le : ∀ buffer n, position buffer + n ≤ (bytes buffer).length →
    sliceRemaining buffer 0 n = .ok ⟨position buffer, n⟩
  advance_of_le : ∀ buffer n, position buffer + n ≤ (bytes buffer).length →
    ∃ next, advance buffer n = .ok next ∧ position next = position buffer + n ∧
      bytes next = bytes buffer

class ByteWriter (Buffer : Type) extends ByteCursor Buffer where
  store : Buffer → Nat → List Byte → Buffer
  position_store : ∀ buffer offset data, position (store buffer offset data) = position buffer
  bytes_store : ∀ buffer offset data, offset + data.length ≤ (bytes buffer).length →
    bytes (store buffer offset data) = overwrite (bytes buffer) offset data

/-- A reader of memory that others write to. -/
class MemoryReader (Reader : Type) extends ByteCursor Reader where
  wrapMemory : List Byte → Reader
  rewind : Reader → Reader
  /-- The reader when its memory has changed. -/
  remap : Reader → List Byte → Reader
  wrapMemory_spec : ∀ memory, bytes (wrapMemory memory) = memory ∧ position (wrapMemory memory) = 0
  rewind_spec : ∀ reader, bytes (rewind reader) = bytes reader ∧ position (rewind reader) = 0
  remap_spec : ∀ reader memory, memory.length = (bytes reader).length →
    bytes (remap reader memory) = memory ∧ position (remap reader memory) = position reader

class MemoryWriter (Writer : Type) extends ByteWriter Writer where
  wrapMemory : List Byte → Writer
  clear : Writer → Writer
  viewWritten : Writer → List Byte
  write : Writer → List Byte → Except Error Writer
  wrapMemory_spec : ∀ memory, bytes (wrapMemory memory) = memory ∧ position (wrapMemory memory) = 0
  clear_spec : ∀ writer, bytes (clear writer) = bytes writer ∧ position (clear writer) = 0
  viewWritten_eq : ∀ writer, viewWritten writer = (bytes writer).take (position writer)
  write_of_le : ∀ writer data, position writer + data.length ≤ (bytes writer).length →
    ∃ next, write writer data = .ok next ∧
      bytes next = overwrite (bytes writer) (position writer) data ∧
      position next = position writer + data.length

namespace ByteCursor

variable {Buffer : Type} [ByteCursor Buffer]

def remaining (buffer : Buffer) : Nat := (bytes buffer).length - position buffer

/-- `asio_buffer`: the address of the slice, and the length that was asked for. -/
def asioBuffer (buffer : Buffer) (n : Nat) : Except Exception MemoryView :=
  (sliceRemaining buffer 0 n).map fun view => ⟨view.offset, n⟩

/-- A call of `advance` whose result is not looked at. -/
def advanced (buffer : Buffer) (n : Nat) : Buffer :=
  match advance buffer n with
  | .ok next => next
  | .error _ => buffer

theorem add_le_of_le_remaining {buffer : Buffer} {n : Nat} (hn : n ≤ remaining buffer) :
    position buffer + n ≤ (bytes buffer).length := by
  have hposition := position_le buffer
  unfold remaining at hn
  omega

theorem asioBuffer_of_le {buffer : Buffer} {n : Nat} (hn : n ≤ remaining buffer) :
    asioBuffer buffer n = .ok ⟨position buffer, n⟩ := by
  rw [asioBuffer, slice_of_le buffer n (add_le_of_le_remaining hn)]
  rfl

theorem advanced_of_le {buffer : Buffer} {n : Nat}
    (hn : position buffer + n ≤ (bytes buffer).length) :
    position (advanced buffer n) = position buffer + n ∧
      bytes (advanced buffer n) = bytes buffer := by
  obtain ⟨next, hnext, hrest⟩ := advance_of_le buffer n hn
  rw [advanced, hnext]
  exact hrest

end ByteCursor

namespace MemoryWriter

open ByteCursor

variable {Writer : Type} [MemoryWriter Writer]

/-- A call of `write` whose result is not looked at. -/
def written (writer : Writer) (data : List Byte) : Writer :=
  match write writer data with
  | .ok next => next
  | .error _ => writer

theorem written_of_le {writer : Writer} {data : List Byte}
    (hfits : position writer + data.length ≤ (bytes writer).length) :
    bytes (written writer data) = overwrite (bytes writer) (position writer) data ∧
      position (written writer data) = position writer + data.length := by
  obtain ⟨next, hnext, hrest⟩ := write_of_le writer data hfits
  rw [written, hnext]
  exact hrest

end MemoryWriter

structure ArrayBuffer where
  bytes : List Byte
  position : Nat
  position_le : position ≤ bytes.length
  deriving DecidableEq

namespace ArrayBuffer

def advance (buffer : ArrayBuffer) (n : Nat) : Except Error ArrayBuffer :=
  if hn : buffer.position + n ≤ buffer.bytes.length then
    .ok ⟨buffer.bytes, buffer.position + n, hn⟩
  else .error (makeSystemError EINVAL "advance")

def store (buffer : ArrayBuffer) (offset : Nat) (data : List Byte) : ArrayBuffer :=
  if hfits : offset + data.length ≤ buffer.bytes.length then
    ⟨overwrite buffer.bytes offset data, buffer.position,
      (length_overwrite hfits).symm ▸ buffer.position_le⟩
  else buffer

instance : ByteWriter ArrayBuffer where
  bytes := bytes
  position := position
  sliceRemaining buffer from' to' :=
    if buffer.position + to' ≤ buffer.bytes.length then
      .ok ⟨buffer.position + from', to' - from'⟩
    else .error (.indexOutOfRange to' 0 (buffer.bytes.length - buffer.position))
  advance := advance
  position_le := position_le
  slice_of_le buffer n hn := by rw [if_pos hn]; rfl
  advance_of_le buffer n hn := ⟨_, dif_pos hn, rfl, rfl⟩
  store := store
  position_store buffer offset data := by
    unfold store
    split <;> rfl
  bytes_store buffer offset data hfits := by
    unfold store
    rw [dif_pos hfits]

def write (buffer : ArrayBuffer) (data : List Byte) : Except Error ArrayBuffer :=
  (buffer.store buffer.position data).advance data.length

theorem write_of_le {buffer : ArrayBuffer} {data : List Byte}
    (hfits : buffer.position + data.length ≤ buffer.bytes.length) :
    ∃ next, buffer.write data = .ok next ∧
      next.bytes = overwrite buffer.bytes buffer.position data ∧
      next.position = buffer.position + data.length := by
  have hstored : (buffer.store buffer.position data).bytes =
      overwrite buffer.bytes buffer.position data := ByteWriter.bytes_store buffer _ _ hfits
  have hposition : (buffer.store buffer.position data).position = buffer.position :=
    ByteWriter.position_store buffer _ _
  have hroom : (buffer.store buffer.position data).position + data.length ≤
      (buffer.store buffer.position data).bytes.length := by
    rw [hposition, hstored, length_overwrite hfits]
    exact hfits
  exact ⟨_, dif_pos hroom, hstored, congrArg (· + data.length) hposition⟩

instance : MemoryReader ArrayBuffer where
  wrapMemory memory := ⟨memory, 0, Nat.zero_le _⟩
  rewind buffer := ⟨buffer.bytes, 0, Nat.zero_le _⟩
  remap buffer memory := ⟨memory, min buffer.position memory.length, Nat.min_le_right _ _⟩
  wrapMemory_spec _ := ⟨rfl, rfl⟩
  rewind_spec _ := ⟨rfl, rfl⟩
  remap_spec buffer _ hlength :=
    ⟨rfl, Nat.min_eq_left (Nat.le_trans buffer.position_le (Nat.le_of_eq hlength.symm))⟩

instance : MemoryWriter ArrayBuffer where
  wrapMemory memory := ⟨memory, 0, Nat.zero_le _⟩
  clear buffer := ⟨buffer.bytes, 0, Nat.zero_le _⟩
  viewWritten buffer := buffer.bytes.take buffer.position
  write := write
  wrapMemory_spec _ := ⟨rfl, rfl⟩
  clear_spec _ := ⟨rfl, rfl⟩
  viewWritten_eq _ := rfl
  write_of_le _ _ hfits := write_of_le hfits

end ArrayBuffer

end Cadence
