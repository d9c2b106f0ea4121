import Cadence.Io.File
import Cadence.Io.IOObject
import Mathlib.Algebra.Group.Int.Defs

/-!
# Reading and writing files

An open file of the operating system has the bytes of the file and an offset. How much of a transfer
it makes, and whether it makes any, is chosen by the environment; the calls of `File` translate what
comes back. A `File` that is closed has no open file.
-/

namespace Cadence

open Segment

structure OpenFile where
  content : List Byte
  offset : Nat
  deriving DecidableEq

/-- What the environment does with a native transfer: it fails, or moves at most so many bytes. -/
abbrev Transfer := Except Errno Nat

inductive Seek where
  | set
  | current
  | end'
  deriving DecidableEq

def Seek.origin (whence : Seek) (file : OpenFile) : Nat :=
  match whence with
  | .set => 0
  | .current => file.offset
  | .end' => file.content.length

namespace OpenFile

/-- `::read` into `size` bytes of memory. It returns nothing only at the end of the file. -/
def read (file : OpenFile) (size limit : Nat) : List Byte × OpenFile :=
  let data := (file.content.drop file.offset).take (min size (max 1 limit))
  (data, { file with offset := file.offset + data.length })

def put (file : OpenFile) (data : List Byte) : OpenFile :=
  ⟨writeAt 0 file.content file.offset data, file.offset + data.length⟩

/-- `::write`, and the count that it returns. -/
def write (file : OpenFile) (data : List Byte) (limit : Nat) : Nat × OpenFile :=
  let written := data.take limit
  (written.length, file.put written)

/-- `::lseek`. The offset is a `size_type` where the native call takes an `off_t`. -/
def lseek (file : OpenFile) (offset : BitVec 64) (whence : Seek) : Except Errno OpenFile :=
  let target := whence.origin file + offset.toInt
  if target < 0 then .error EINVAL
  else if 2 ^ 63 ≤ target then .error EOVERFLOW
  else .ok { file with offset := target.toNat }

variable {file next : OpenFile} {data : List Byte} {size limit : Nat}

theorem read_spec (hread : file.read size limit = (data, next)) :
    next = { file with offset := file.offset + data.length } ∧ data.length ≤ size ∧
      data = between file.content file.offset (file.offset + data.length) ∧
      (data = [] → size = 0 ∨ file.content.length ≤ file.offset) := by
  obtain ⟨rfl, rfl⟩ := Prod.mk.inj hread
  refine ⟨rfl, ?_, ?_, fun hempty => ?_⟩
  · rw [List.length_take]
    omega
  · rw [between_add, ← List.take_eq_take_min.trans (congrArg (List.take · _) List.length_take.symm)]
  · have hlength := congrArg List.length hempty
    rw [List.length_take, List.length_drop, List.length_nil] at hlength
    omega

theorem content_lseek {offset : BitVec 64} {whence : Seek}
    (hseek : file.lseek offset whence = .ok next) : next.content = file.content := by
  simp only [lseek] at hseek
  split at hseek
  next => cases hseek
  next =>
    split at hseek
    next => cases hseek
    next =>
      cases hseek
      rfl

theorem put_put {front back : List Byte} :
    (file.put front).put back = file.put (front ++ back) := by
  rw [put, put, put, writeAt_append, List.length_append, Nat.add_assoc]

end OpenFile

namespace File

def read (file : Option OpenFile) (buffer : List Byte) (native : Transfer) :
    Except Exception IOResult × List Byte × Option OpenFile :=
  match file, native with
  | none, _ => (.error .notOpen, buffer, none)
  | some file, .error errno => (.error (.ioException errno), buffer, some file)
  | some file, .ok limit =>
      let (data, next) := file.read buffer.length limit
      (.ok (.ok data.length), overwrite buffer 0 data, some next)

def write (file : Option OpenFile) (buffer : List Byte) (native : Transfer) :
    Except Exception IOResult × Option OpenFile :=
  match file, native with
  | none, _ => (.error .notOpen, none)
  | some file, .error errno => (.error (.ioException errno), some file)
  | some file, .ok limit =>
      let (bytesWritten, next) := file.write buffer limit
      (.ok (.ok bytesWritten), some next)

/-- The native call can fail also where the arguments are in order. -/
def seek (file : Option OpenFile) (offset : BitVec 64) (whence : Seek) (native : Option Errno) :
    Except Exception Nat × Option OpenFile :=
  match file, native with
  | none, _ => (.error .notOpen, none)
  | some file, some errno => (.error (.ioException errno), some file)
  | some file, none =>
      match file.lseek offset whence with
      | .error errno => (.error (.ioException errno), some file)
      | .ok next => (.ok next.offset, some next)

/-- The native call is `::fsync`, which changes nothing that another open of the file could see. -/
def flush (file : Option OpenFile) (native : Option Errno) : Except Exception Unit :=
  match file, native with
  | none, _ => .error .notOpen
  | some _, some errno => .error (.ioException errno)
  | some _, none => .ok ()

end File

/-! ### A file as a device -/

/-- A file, what the environment is going to do with each transfer, and the bytes moved so far. -/
structure FileDevice where
  file : Option OpenFile
  native : Nat → Transfer
  calls : Nat
  moved : List Byte

namespace FileDevice

theorem length_taken {file : OpenFile} {size limit : Nat} :
    (file.read size limit).1.length ≤ size :=
  (OpenFile.read_spec rfl).2.1

theorem count_write_le (file : Option OpenFile) (view : List Byte) (native : Transfer) :
    countOf (File.write file view native).1 ≤ view.length := by
  cases file with
  | none => exact Nat.zero_le _
  | some file =>
      cases native with
      | error errno => exact Nat.zero_le _
      | ok limit => exact List.length_take_le' _ _

theorem count_read_le (file : Option OpenFile) (view : List Byte) (native : Transfer) :
    countOf (File.read file view native).1 ≤ view.length := by
  cases file with
  | none => exact Nat.zero_le _
  | some file =>
      cases native with
      | error errno => exact Nat.zero_le _
      | ok limit => exact length_taken

theorem length_read (file : Option OpenFile) (view : List Byte) (native : Transfer) :
    (File.read file view native).2.1.length = view.length := by
  cases file with
  | none => rfl
  | some file =>
      cases native with
      | error errno => rfl
      | ok limit =>
          apply length_overwrite
          rw [Nat.zero_add]
          exact length_taken

instance : OutputDevice FileDevice where
  write device view :=
    let (result, next) := File.write device.file view (device.native device.calls)
    (result, { device with
      file := next
      calls := device.calls + 1
      moved := device.moved ++ view.take (countOf result) })
  accepted := moved
  count_le device view := count_write_le device.file view _
  accepted_write _ _ := rfl

instance : InputDevice FileDevice where
  read device view :=
    let (result, filled, next) := File.read device.file view (device.native device.calls)
    (result, filled, { device with
      file := next
      calls := device.calls + 1
      moved := device.moved ++ filled.take (countOf result) })
  delivered := moved
  length_read device view := length_read device.file view _
  count_le device view := count_read_le device.file view _
  delivered_read _ _ := rfl

end FileDevice

end Cadence
