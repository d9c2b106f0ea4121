import Cadence.Io.SharedMemory
import Cadence.NetworkEndpoint

/-!
# Segments in several processes

A segment has a size and bytes, and is there for whoever has it open or mapped, also when its name is
unlinked and another segment is created under it. `SharedMemory::create` makes two native calls, and so
does a `map` that asks the segment for its size. What other threads and processes do comes in between,
so an object keeps the call that it has still to make.
-/

namespace Cadence

namespace SharedMemory

/-- `SharedMemory::Access`. -/
inductive Access where
  | shared
  | private'
  deriving DecidableEq

namespace Protection

def Read : BitVec 32 := 1
def Write : BitVec 32 := 2

end Protection

/-- Where an object lives. -/
structure Place where
  process : Nat
  location : Nat
  deriving DecidableEq

inductive Raised where
  | io (exception : IOException)
  | notOpen
  | illegalArgument (argument : String)
  deriving DecidableEq

/-- A segment, with the name it was created under. -/
structure Extent where
  name : SegmentName
  size : Nat
  bytes : Nat → Byte

/-- What an open descriptor refers to. -/
structure Descriptor where
  segment : Nat
  mode : AccessMode
  deriving DecidableEq

/-- The native call that an object has still to make. -/
inductive Call where
  | ftruncate (memSize : BitVec 64)
  | mmap (target : Nat) (memSize : Nat) (mapping : Access) (protection : BitVec 32)
  deriving DecidableEq

structure Object where
  fd : PollId
  linkedPath : Option Path
  call : Option Call
  deriving DecidableEq

/-- A `MemoryResource`. What is stored in memory that is not shared stays with the mapping. -/
structure Mapping where
  segment : Option Nat
  size : Nat
  access : Access
  protection : BitVec 32
  own : Nat → Option Byte

/-- How `::mmap` ends. Every mapping reads the segment, and a shared one that is writable writes it. -/
def Descriptor.mmapEc (descriptor : Descriptor) (access : Access) (protection : BitVec 32)
    (ec : Option Errno) : Option Errno :=
  if descriptor.mode = .writeOnly then some EACCES
  else if access = .shared ∧ protection &&& Protection.Write ≠ 0 ∧ descriptor.mode = .readOnly then
    some EACCES
  else ec

def Extent.resize (extent : Extent) (size : Nat) : Extent :=
  { extent with
    size := size
    bytes := fun offset => if offset < size then extent.bytes offset else 0 }

end SharedMemory

open SharedMemory

/-- Descriptors belong to a process. Segments are numbered in the order in which they are created. -/
structure SharedSpace where
  segments : Nat → Extent
  count : Nat
  names : ObjectStore SegmentName Nat
  descriptors : ObjectStore (Nat × PollId) Descriptor
  objects : ObjectStore Place Object
  mappings : ObjectStore Place Mapping

namespace SharedSpace

def empty : SharedSpace :=
  ⟨fun _ => ⟨[], 0, fun _ => 0⟩, 0, fun _ => none, fun _ => none, fun _ => none, fun _ => none⟩

def setSegment (space : SharedSpace) (id : Nat) (extent : Extent) : SharedSpace :=
  { space with segments := Function.update space.segments id extent }

def setObject (space : SharedSpace) (place : Place) (object : Object) : SharedSpace :=
  { space with objects := space.objects.put place object }

def removeObject (space : SharedSpace) (place : Place) : SharedSpace :=
  { space with objects := space.objects.remove place }

theorem objects_of_removeObject {space : SharedSpace} {place other : Place} {object : Object}
    (hobject : (space.removeObject place).objects other = some object) :
    space.objects other = some object := by
  by_cases heq : other = place
  · rw [heq] at hobject
    cases (ObjectStore.remove_self).symm.trans hobject
  · exact (ObjectStore.remove_of_ne heq).symm.trans hobject

def setMapping (space : SharedSpace) (place : Place) (mapping : Mapping) : SharedSpace :=
  { space with mappings := space.mappings.put place mapping }

theorem segments_setSegment_self {space : SharedSpace} {id : Nat} {extent : Extent} :
    (space.setSegment id extent).segments id = extent :=
  Function.update_self _ _ _

theorem segments_setSegment_of_ne {space : SharedSpace} {id other : Nat} {extent : Extent}
    (hne : other ≠ id) : (space.setSegment id extent).segments other = space.segments other :=
  Function.update_of_ne hne _ _

/-- What `::shm_open` finds under the name with `O_CREAT`. -/
def segmentNamed (space : SharedSpace) (name : SegmentName) : Nat :=
  (space.names name).getD space.count

def nameSegment (space : SharedSpace) (name : SegmentName) : SharedSpace :=
  match space.names name with
  | some _ => space
  | none =>
      { space with
        segments := Function.update space.segments space.count ⟨name, 0, fun _ => 0⟩
        count := space.count + 1
        names := space.names.put name space.count }

theorem descriptors_nameSegment {space : SharedSpace} {name : SegmentName} :
    (space.nameSegment name).descriptors = space.descriptors := by
  unfold nameSegment
  split
  next => rfl
  next => rfl

def removeName (space : SharedSpace) (name : SegmentName) : SharedSpace :=
  { space with names := space.names.remove name }

/-- The object takes a descriptor that has just been opened. -/
def adopt (space : SharedSpace) (place : Place) (descriptor : Descriptor) (object : Object) :
    SharedSpace :=
  { space with
    descriptors := space.descriptors.put (place.process, object.fd) descriptor
    objects := space.objects.put place object }

def release (space : SharedSpace) (process : Nat) (fds : List PollId) : SharedSpace :=
  { space with
    descriptors := fun key =>
      if key.1 = process ∧ key.2 ∈ fds then none else space.descriptors key }

/-- `SharedMemory::create` as far as `::shm_open`. -/
def create (space : SharedSpace) (place : Place) (pathname : Path) (memSize : BitVec 64)
    (mode : AccessMode) (outcome : Except Errno PollId) : Except Raised Unit × SharedSpace :=
  if memSize = 0 then (.error (.io (.text "Invalid size")), space)
  else if NAME_MAX ≤ pathname.utf8ByteSize then (.error (.io (.text "Name too long")), space)
  else
    match outcome with
    | .error errno => (.error (.io (.system errno "shm_open")), space)
    | .ok fd =>
        (.ok (), (space.nameSegment (segmentName pathname)).adopt place
          ⟨space.segmentNamed (segmentName pathname), mode⟩
          ⟨fd, some pathname, some (.ftruncate memSize)⟩)

/-- The rest of `SharedMemory::create`. When the size cannot be set there is no object, and the
descriptor stays open. -/
def ftruncate (space : SharedSpace) (place : Place) (object : Object) (memSize : BitVec 64)
    (ec : Option Errno) : Except Raised Unit × SharedSpace :=
  match space.descriptors (place.process, object.fd) with
  | none =>
      (.error (.io (.system EBADF "ftruncate")), space.removeObject place)
  | some descriptor =>
      let extent := space.segments descriptor.segment
      match (Description.segment extent.name descriptor.mode).ftruncateEc memSize ec with
      | some errno => (.error (.io (.system errno "ftruncate")), space.removeObject place)
      | none =>
          (.ok (), (space.setSegment descriptor.segment (extent.resize memSize.toNat)).setObject
            place { object with call := none })

/-- `SharedMemory::open`. -/
def openSegment (space : SharedSpace) (place : Place) (pathname : Path) (mode : AccessMode)
    (outcome : Except Errno PollId) : Except Raised Unit × SharedSpace :=
  if NAME_MAX ≤ pathname.utf8ByteSize then (.error (.io (.text "Name too long")), space)
  else
    match outcome, space.names (segmentName pathname) with
    | .error errno, _ => (.error (.io (.system errno "shm_open")), space)
    | .ok _, none => (.error (.io (.system ENOENT "shm_open")), space)
    | .ok fd, some id => (.ok (), space.adopt place ⟨id, mode⟩ ⟨fd, none, none⟩)

def unlink (space : SharedSpace) (pathname : Path) (ec : Option Errno) :
    Except Raised Unit × SharedSpace :=
  match space.names (segmentName pathname), ec with
  | none, _ => (.error (.io (.system ENOENT "shm_unlink")), space)
  | some _, some errno => (.error (.io (.system errno "shm_unlink")), space)
  | some _, none => (.ok (), space.removeName (segmentName pathname))

def size (space : SharedSpace) (process : Nat) (fd : PollId) (ec : Option Errno) :
    Except Raised Nat :=
  if fd = InvalidFd then .error .notOpen
  else
    match space.descriptors (process, fd), ec with
    | none, _ => .error (.io (.system EBADF "fstat"))
    | some _, some errno => .error (.io (.system errno "fstat"))
    | some descriptor, none => .ok (space.segments descriptor.segment).size

/-- `SharedMemory::map` as far as the size is known. -/
def map (space : SharedSpace) (place : Place) (object : Object) (target : Nat) (mapping : Access)
    (access : BitVec 32) (mapSize : Nat) (ec : Option Errno) : Except Raised Unit × SharedSpace :=
  if object.fd = InvalidFd then (.error .notOpen, space)
  else
    match if mapSize = 0 then space.size place.process object.fd ec else .ok mapSize with
    | .error raised => (.error raised, space)
    | .ok memSize =>
        (.ok (), space.setObject place
          { object with call := some (.mmap target memSize mapping access) })

/-- `mapMem`: `mapMemory` for this descriptor, or for none. -/
def mapMem (space : SharedSpace) (process : Nat) (fd : PollId) (memSize : Nat) (mapping : Access)
    (protection : BitVec 32) (ec : Option Errno) : Except Raised Mapping :=
  if memSize = 0 then .error (.illegalArgument "size")
  else if fd = -1 then
    match ec with
    | some errno => .error (.io (.system errno "mmap"))
    | none => .ok ⟨none, memSize, mapping, protection, fun _ => none⟩
  else
    match space.descriptors (process, fd) with
    | none => .error (.io (.system EBADF "mmap"))
    | some descriptor =>
        match descriptor.mmapEc mapping protection ec with
        | some errno => .error (.io (.system errno "mmap"))
        | none => .ok ⟨some descriptor.segment, memSize, mapping, protection, fun _ => none⟩

/-- A mapping is as long as was asked for, and of the segment that the descriptor refers to. -/
theorem mapMem_eq_ok {space : SharedSpace} {process : Nat} {fd : PollId} {memSize : Nat}
    {access : Access} {protection : BitVec 32} {ec : Option Errno} {mapping : Mapping}
    (hok : space.mapMem process fd memSize access protection ec = .ok mapping) :
    0 < memSize ∧ mapping.size = memSize ∧ ∀ id, mapping.segment = some id →
      ∃ descriptor, space.descriptors (process, fd) = some descriptor ∧ descriptor.segment = id := by
  unfold mapMem at hok
  split at hok
  next => cases hok
  next hpos =>
    refine ⟨Nat.pos_of_ne_zero hpos, ?_⟩
    split at hok
    next =>
      split at hok
      next => cases hok
      next =>
        cases hok
        exact ⟨rfl, fun id hid => (nomatch hid)⟩
    next =>
      split at hok
      next => cases hok
      next descriptor hdescriptor =>
        split at hok
        next => cases hok
        next =>
          cases hok
          exact ⟨rfl, fun id hid => ⟨descriptor, hdescriptor, Option.some.inj hid⟩⟩

/-- A mapping that has been made is at the place the caller has for it. -/
def install (space : SharedSpace) (target : Place) :
    Except Raised Mapping → Except Raised Unit × SharedSpace
  | .error raised => (.error raised, space)
  | .ok mapping => (.ok (), space.setMapping target mapping)

/-- The rest of `SharedMemory::map`. -/
def mmap (space : SharedSpace) (place : Place) (object : Object) (target memSize : Nat)
    (mapping : Access) (protection : BitVec 32) (ec : Option Errno) :
    Except Raised Unit × SharedSpace :=
  (space.setObject place { object with call := none }).install ⟨place.process, target⟩
    (space.mapMem place.process object.fd memSize mapping protection ec)

def createAnon (space : SharedSpace) (target : Place) (size : Nat) (mapping : Access)
    (protection : BitVec 32) (ec : Option Errno) : Except Raised Unit × SharedSpace :=
  space.install target (space.mapMem target.process (-1) size mapping protection ec)

def close (space : SharedSpace) (place : Place) (object : Object) (ec : Option Errno) :
    Except Exception Unit × SharedSpace :=
  let closed := SharedMemory.close object.fd ec
  (closed.result,
    (space.release place.process closed.released).setObject place { object with fd := closed.fd })

/-- `~SharedMemory`. -/
def destroy (space : SharedSpace) (place : Place) (object : Object) : SharedSpace :=
  if object.fd = InvalidFd then space.removeObject place
  else
    let closed := (space.removeObject place).release place.process [object.fd]
    match object.linkedPath with
    | some path => closed.removeName (segmentName path)
    | none => closed

/-- A byte stored through a mapping. There is nothing to store it in behind the end of the segment. -/
def store (space : SharedSpace) (place : Place) (offset : Nat) (byte : Byte) : Option SharedSpace :=
  match space.mappings place with
  | none => none
  | some mapping =>
      if offset < mapping.size ∧ mapping.protection &&& Protection.Write ≠ 0 then
        match mapping.segment, mapping.access with
        | some id, .shared =>
            let extent := space.segments id
            if offset < extent.size then
              some (space.setSegment id
                { extent with bytes := Function.update extent.bytes offset byte })
            else none
        | _, _ =>
            some (space.setMapping place
              { mapping with own := Function.update mapping.own offset (some byte) })
      else none

/-- The byte read through a shared mapping of a segment. -/
def load (space : SharedSpace) (place : Place) (offset : Nat) : Option Byte :=
  match space.mappings place with
  | none => none
  | some mapping =>
      match mapping.segment, mapping.access with
      | some id, .shared =>
          let extent := space.segments id
          if offset < mapping.size ∧ offset < extent.size ∧
              mapping.protection &&& Protection.Read ≠ 0 then
            some (extent.bytes offset)
          else none
      | _, _ => none

inductive Action where
  | create (place : Place) (pathname : Path) (memSize : BitVec 64) (mode : AccessMode)
      (outcome : Except Errno PollId)
  | ftruncate (place : Place) (ec : Option Errno)
  | openSegment (place : Place) (pathname : Path) (mode : AccessMode)
      (outcome : Except Errno PollId)
  | unlink (pathname : Path) (ec : Option Errno)
  | map (place : Place) (target : Nat) (mapping : Access) (access : BitVec 32) (mapSize : Nat)
      (ec : Option Errno)
  | mmap (place : Place) (ec : Option Errno)
  | createAnon (target : Place) (size : Nat) (mapping : Access) (protection : BitVec 32)
      (ec : Option Errno)
  | close (place : Place) (ec : Option Errno)
  | destroy (place : Place)
  | store (place : Place) (offset : Nat) (byte : Byte)
  | dispose (place : Place)

/-- A native open returns a descriptor that the process does not have open. -/
def Opens (space : SharedSpace) (process : Nat) : Except Errno PollId → Prop
  | .error _ => True
  | .ok fd => 0 ≤ fd ∧ space.descriptors (process, fd) = none

instance (space : SharedSpace) (process : Nat) : DecidablePred (space.Opens process)
  | .error _ => inferInstanceAs (Decidable True)
  | .ok _ => inferInstanceAs (Decidable (_ ∧ _))

/-- An object that is not in the middle of a call. -/
def idleObject (space : SharedSpace) (place : Place) : Option Object :=
  match space.objects place with
  | some ⟨fd, linkedPath, none⟩ => some ⟨fd, linkedPath, none⟩
  | _ => none

theorem idleObject_eq_some {space : SharedSpace} {place : Place} {object : Object}
    (hidle : space.idleObject place = some object) :
    space.objects place = some object ∧ object.call = none := by
  unfold idleObject at hidle
  split at hidle
  next fd linkedPath hobject =>
    obtain rfl := Option.some.inj hidle
    exact ⟨hobject, rfl⟩
  next => cases hidle

def step (space : SharedSpace) : Action → Option SharedSpace
  | .create place pathname memSize mode outcome =>
      if space.objects place = none ∧ space.Opens place.process outcome then
        some (space.create place pathname memSize mode outcome).2
      else none
  | .ftruncate place ec =>
      match space.objects place with
      | some ⟨fd, linkedPath, some (.ftruncate memSize)⟩ =>
          some (space.ftruncate place ⟨fd, linkedPath, some (.ftruncate memSize)⟩ memSize ec).2
      | _ => none
  | .openSegment place pathname mode outcome =>
      if space.objects place = none ∧ space.Opens place.process outcome then
        some (space.openSegment place pathname mode outcome).2
      else none
  | .unlink pathname ec => some (space.unlink pathname ec).2
  | .map place target mapping access mapSize ec =>
      (space.idleObject place).map fun object =>
        (space.map place object target mapping access mapSize ec).2
  | .mmap place ec =>
      match space.objects place with
      | some ⟨fd, linkedPath, some (.mmap target memSize mapping protection)⟩ =>
          if space.mappings ⟨place.process, target⟩ = none then
            some (space.mmap place ⟨fd, linkedPath, some (.mmap target memSize mapping protection)⟩
              target memSize mapping protection ec).2
          else none
      | _ => none
  | .createAnon target size mapping protection ec =>
      if space.mappings target = none then
        some (space.createAnon target size mapping protection ec).2
      else none
  | .close place ec => (space.idleObject place).map fun object => (space.close place object ec).2
  | .destroy place => (space.idleObject place).map fun object => space.destroy place object
  | .store place offset byte => space.store place offset byte
  | .dispose place =>
      if space.mappings place = none then none
      else some { space with mappings := space.mappings.remove place }

end SharedSpace

end Cadence
