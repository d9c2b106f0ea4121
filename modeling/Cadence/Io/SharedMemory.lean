import Cadence.Io.SegmentLedger

/-!
# Creating a segment

`shm_open` with `O_CREAT` names a segment, unless there is one of that name, and opens a descriptor
of it in one step. `SharedMemory::create` then sets the size with `ftruncate`, and only after that
there is an object that owns the two.
-/

namespace Cadence

/-- `File::AccessMode`. -/
inductive AccessMode where
  | readOnly
  | writeOnly
  | readWrite
  deriving DecidableEq

/-- An `IOException`, raised with a text alone or for an error of the system. -/
inductive IOException where
  | text (message : String)
  | system (errno : Errno) (message : String)
  deriving DecidableEq

abbrev SegmentName := List Char

structure ShmSegment where
  permissions : BitVec 32
  size : Nat
  deriving DecidableEq

/-- What an open descriptor refers to. -/
inductive Description where
  | segment (name : SegmentName) (mode : AccessMode)
  | other
  deriving DecidableEq

namespace Description

/-- How `::ftruncate` ends: a descriptor that was opened for reading is refused, and a length that is
negative as an `off_t`. -/
def ftruncateEc (description : Description) (length : BitVec 64) (ec : Option Errno) :
    Option Errno :=
  match description with
  | .segment _ mode => if mode = .readOnly ∨ length.toInt < 0 then some EINVAL else ec
  | .other => if length.toInt < 0 then some EINVAL else ec

def resize (description : Description) (size : Nat)
    (segments : ObjectStore SegmentName ShmSegment) : ObjectStore SegmentName ShmSegment :=
  match description with
  | .segment name _ =>
      Function.update segments name
        ((segments name).map fun segment => { segment with size := size })
  | .other => segments

end Description

/-- The segments of the system that have a name, and the open descriptors of the process. -/
structure ShmSystem where
  segments : ObjectStore SegmentName ShmSegment
  descriptors : ObjectStore PollId Description

namespace ShmSystem

/-- A descriptor that a native open can return. -/
abbrev FreeFd (system : ShmSystem) := { fd : PollId // 0 ≤ fd ∧ system.descriptors fd = none }

structure Outcomes (system : ShmSystem) where
  shmOpen : Except Errno system.FreeFd
  ftruncateEc : Option Errno

/-- A successful `::shm_open` with `O_CREAT`. -/
def shmOpen (system : ShmSystem) (name : SegmentName) (mode : AccessMode) (omode : BitVec 32)
    (fd : PollId) : ShmSystem where
  segments :=
    if system.segments name = none then system.segments.put name ⟨omode, 0⟩ else system.segments
  descriptors := system.descriptors.put fd (.segment name mode)

/-- `::ftruncate`. -/
def ftruncate (system : ShmSystem) (fd : PollId) (length : BitVec 64) (ec : Option Errno) :
    Except Errno ShmSystem :=
  match system.descriptors fd with
  | none => .error EBADF
  | some description =>
      match description.ftruncateEc length ec with
      | some errno => .error errno
      | none => .ok { system with segments := description.resize length.toNat system.segments }

/-- Every descriptor that is open now was open before, and the names are the same. -/
structure LeavesNothing (before after : ShmSystem) : Prop where
  descriptors : ∀ fd, before.descriptors fd = none → after.descriptors fd = none
  names : ∀ name, after.segments name = none ↔ before.segments name = none

theorem LeavesNothing.refl (system : ShmSystem) : LeavesNothing system system :=
  ⟨fun _ hnone => hnone, fun _ => Iff.rfl⟩

variable {system : ShmSystem} {name : SegmentName} {mode : AccessMode} {omode : BitVec 32}
  {fd : PollId} {length : BitVec 64} {ec : Option Errno}

theorem descriptors_shmOpen :
    (system.shmOpen name mode omode fd).descriptors fd = some (.segment name mode) :=
  ObjectStore.put_self

theorem not_leavesNothing_shmOpen (hfree : system.descriptors fd = none) :
    ¬ LeavesNothing system (system.shmOpen name mode omode fd) := by
  intro hleaves
  have hopened := hleaves.descriptors fd hfree
  rw [descriptors_shmOpen] at hopened
  cases hopened

/-- The size of a segment can be set by a descriptor opened in this mode. -/
def Truncates (length : BitVec 64) (mode : AccessMode) (ec : Option Errno) : Prop :=
  mode ≠ .readOnly ∧ 0 ≤ length.toInt ∧ ec = none

theorem ftruncate_isOk_iff (hsegment : system.descriptors fd = some (.segment name mode)) :
    (∃ next, system.ftruncate fd length ec = .ok next) ↔ Truncates length mode ec := by
  have hok : (∃ next, system.ftruncate fd length ec = .ok next) ↔
      (Description.segment name mode).ftruncateEc length ec = none := by
    unfold ftruncate
    rw [hsegment]
    cases hec : (Description.segment name mode).ftruncateEc length ec with
    | some errno => simp [hec]
    | none => simp [hec]
  rw [hok, Description.ftruncateEc]
  split
  next hrefused =>
    constructor
    · exact fun hnone => absurd hnone (Option.some_ne_none EINVAL)
    · rintro ⟨hmode, hlength, _⟩
      rcases hrefused with hreadOnly | hnegative
      · exact absurd hreadOnly hmode
      · omega
  next hallowed =>
    obtain ⟨hmode, hlength⟩ := not_or.mp hallowed
    exact ⟨fun hnone => ⟨hmode, Int.not_lt.mp hlength, hnone⟩, fun h => h.2.2⟩

end ShmSystem

namespace SharedMemory

open ShmSystem

def NAME_MAX : Nat := 255

/-- The segment that `::shm_open` and `::shm_unlink` find for the `c_str()` of a path. Slashes in front
of the name are dropped. -/
def segmentName (pathname : Path) : SegmentName :=
  (pathname.toList.takeWhile (· ≠ Char.ofNat 0)).dropWhile (· = '/')

def create (system : ShmSystem) (pathname : Path) (memSize : BitVec 64) (mode : AccessMode)
    (permissionsMode : BitVec 32) (outcomes : system.Outcomes) :
    Except IOException IoObject × ShmSystem :=
  if memSize = 0 then (.error (.text "Invalid size"), system)
  else if NAME_MAX ≤ pathname.utf8ByteSize then (.error (.text "Name too long"), system)
  else
    match outcomes.shmOpen with
    | .error errno => (.error (.system errno "shm_open"), system)
    | .ok fd =>
        match (system.shmOpen (segmentName pathname) mode permissionsMode fd).ftruncate fd memSize
          outcomes.ftruncateEc with
        | .error errno =>
            (.error (.system errno "ftruncate"),
              system.shmOpen (segmentName pathname) mode permissionsMode fd)
        | .ok next => (.ok (.sharedMemory fd (some pathname)), next)

/-- The call gets a descriptor, and with it the name. -/
def Acquires (system : ShmSystem) (pathname : Path) (memSize : BitVec 64)
    (outcomes : system.Outcomes) : Prop :=
  memSize ≠ 0 ∧ pathname.utf8ByteSize < NAME_MAX ∧ ∃ fd, outcomes.shmOpen = .ok fd

variable {system next : ShmSystem} {pathname : Path} {memSize : BitVec 64} {mode : AccessMode}
  {permissionsMode : BitVec 32} {outcomes : system.Outcomes}

theorem create_of_not_acquires (hnot : ¬ Acquires system pathname memSize outcomes) :
    ∃ e, create system pathname memSize mode permissionsMode outcomes = (.error e, system) := by
  unfold create
  split
  next => exact ⟨_, rfl⟩
  next hsize =>
    split
    next => exact ⟨_, rfl⟩
    next hlength =>
      cases hshmOpen : outcomes.shmOpen with
      | error errno => exact ⟨_, rfl⟩
      | ok fd => exact absurd ⟨hsize, by omega, fd, hshmOpen⟩ hnot

/-- With the descriptor in hand, the call is decided by `ftruncate`. -/
theorem create_of_acquires (hacquires : Acquires system pathname memSize outcomes) :
    ∃ fd : system.FreeFd,
      (Truncates memSize mode outcomes.ftruncateEc ∧
        ∃ next, create system pathname memSize mode permissionsMode outcomes =
          (.ok (.sharedMemory fd (some pathname)), next)) ∨
      (¬ Truncates memSize mode outcomes.ftruncateEc ∧
        ∃ errno, create system pathname memSize mode permissionsMode outcomes =
          (.error (.system errno "ftruncate"),
            system.shmOpen (segmentName pathname) mode permissionsMode fd)) := by
  obtain ⟨hsize, hlength, fd, hshmOpen⟩ := hacquires
  have hdescriptor : (system.shmOpen (segmentName pathname) mode permissionsMode fd).descriptors
      fd = some (.segment (segmentName pathname) mode) := descriptors_shmOpen
  refine ⟨fd, ?_⟩
  rw [create, if_neg hsize, if_neg (Nat.not_le.mpr hlength), hshmOpen,
    ← ftruncate_isOk_iff hdescriptor]
  cases htruncate : (system.shmOpen (segmentName pathname) mode permissionsMode fd).ftruncate fd
    memSize outcomes.ftruncateEc with
  | ok next => exact Or.inl ⟨⟨next, rfl⟩, next, by simp only [htruncate]⟩
  | error errno =>
      exact Or.inr ⟨fun ⟨_, hok⟩ => (by cases hok), errno, by simp only [htruncate]⟩

/-- The object that owns what a successful call acquires. -/
theorem create_eq_ok {object : IoObject}
    (hcreate : create system pathname memSize mode permissionsMode outcomes =
      (.ok object, next)) :
    ∃ fd, fd ≠ InvalidFd ∧ object = .sharedMemory fd (some pathname) := by
  by_cases hacquires : Acquires system pathname memSize outcomes
  · obtain ⟨fd, ⟨_, next', hok⟩ | ⟨_, errno, herror⟩⟩ := create_of_acquires hacquires
    · rw [hok] at hcreate
      obtain ⟨hobject, _⟩ := Prod.mk.inj hcreate
      refine ⟨fd.1, fun hinvalid => ?_, (Except.ok.inj hobject).symm⟩
      have hfd := fd.2.1
      rw [hinvalid] at hfd
      exact absurd hfd (by decide)
    · rw [herror] at hcreate
      cases hcreate
  · obtain ⟨e, herror⟩ := create_of_not_acquires hacquires
    rw [herror] at hcreate
    cases hcreate

/-- So the creation can be recorded, at any location that is free. -/
theorem exists_creation {object : IoObject} {ledger : SegmentLedger} {loc : Nat}
    (hcreate : create system pathname memSize mode permissionsMode outcomes =
      (.ok object, next))
    (hloc : ledger.io.objects loc = none) :
    ∃ fd recorded, ledger.create loc pathname fd = some recorded ∧
      recorded.io.objects loc = some object := by
  obtain ⟨fd, hfd, rfl⟩ := create_eq_ok hcreate
  have hconstruct : ledger.io.construct loc (.sharedMemory fd (some pathname)) = some _ :=
    if_pos hloc
  exact ⟨fd, _, (if_neg hfd).trans (congrArg (Option.map _) hconstruct), ObjectStore.put_self⟩

end SharedMemory

end Cadence
