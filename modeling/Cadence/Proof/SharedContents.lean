import Cadence.Foundation.Overwrites
import Cadence.Io.SharedSpace

/-!
# What a shared mapping reads

Two mappings of one segment need not come from one object, one descriptor, one process or even one
name. What is read through a shared mapping is decided by the segment alone: by the bytes that were
stored in it through shared mappings, and by where it was made to end.
-/

namespace Cadence.SharedContents

open SharedMemory SharedSpace StepSystem Overwrites

variable {space next last : SharedSpace} {place : Place} {action : Action} {extent : Extent}
  {id offset size : Nat} {byte : Byte}

/-- The segment behind a shared mapping. -/
def sharedSegment (space : SharedSpace) (place : Place) : Option Nat :=
  match space.mappings place with
  | some ⟨some id, _, .shared, _, _⟩ => some id
  | _ => none

/-- The segment that a call of `create` adds. -/
def addition (space : SharedSpace) (pathname : Path) (memSize : BitVec 64) :
    Except Errno PollId → Option Nat
  | .error _ => none
  | .ok _ =>
      if memSize = 0 ∨ NAME_MAX ≤ pathname.utf8ByteSize then none
      else
        match space.names (segmentName pathname) with
        | some _ => none
        | none => some space.count

/-- The segment that gets a size, and the size. -/
def truncation (space : SharedSpace) (place : Place) (ec : Option Errno) : Option (Nat × Nat) :=
  match space.objects place with
  | some ⟨fd, _, some (.ftruncate memSize)⟩ =>
      match space.descriptors (place.process, fd) with
      | none => none
      | some descriptor =>
          let extent := space.segments descriptor.segment
          match (Description.segment extent.name descriptor.mode).ftruncateEc memSize ec with
          | some _ => none
          | none => some (descriptor.segment, memSize.toNat)
  | _ => none

def byteAt (id offset : Nat) (byte : Byte) : Update (Nat × Nat) Byte :=
  fun key => if key = (id, offset) then some byte else none

def zerosFrom (id size : Nat) : Update (Nat × Nat) Byte :=
  fun key => if key.1 = id ∧ size ≤ key.2 then some 0 else none

/-- What an action writes to a segment: a byte, or zeros behind the end that the segment gets. -/
def written (space : SharedSpace) : Action → Option (Update (Nat × Nat) Byte)
  | .create _ pathname memSize _ outcome =>
      (addition space pathname memSize outcome).map fun id => zerosFrom id 0
  | .ftruncate place ec =>
      (truncation space place ec).map fun truncated => zerosFrom truncated.1 truncated.2
  | .store place offset byte =>
      (sharedSegment space place).map fun id => byteAt id offset byte
  | _ => none

/-- The contents are left as they are, or written to. -/
def Writes (before after : Nat × Nat → Byte) : Option (Update (Nat × Nat) Byte) → Prop
  | none => after = before
  | some update => after = apply before update

end Cadence.SharedContents
