import Cadence.Io.File

/-!
# The descriptors that objects hold

A `BufferedFile` has its descriptor twice, in `_fd` and behind `_fp`, and releases the one behind
`_fp`. The moves and swaps of `File` know of `_fd` only. As long as they never separate the two, what
an object has in `_fd` is what it holds and will release.
-/

namespace Cadence

/-- The descriptor that an object releases on behalf of a member. -/
def IoObject.held : IoObject → Member → Option PollId
  | .file fd, .whole | .serial fd, .whole | .sharedMemory fd _, .whole => validFd fd
  | .bufferedFile _ fp, .whole => fp
  | .duplex in' _, .readEnd => validFd in'
  | .duplex _ out, .writeEnd => validFd out
  | _, _ => none

def IoObject.Consistent : IoObject → Prop
  | .bufferedFile fd fp => fp = validFd fd
  | _ => True

namespace IoObjects

def held (objects : IoObjects) (slot : Slot) : Option PollId :=
  (objects slot.1).bind fun object => object.held slot.2

/-- A move out of a slot leaves no `_fp` behind. -/
def Movable (objects : IoObjects) (slot : Slot) : Prop :=
  objects.isBuffered slot = false ∨ objects.getFile slot = some InvalidFd

/-- A swap of two slots separates no `_fd` from its `_fp`. -/
def Swappable (objects : IoObjects) (lhs rhs : Slot) : Prop :=
  objects.isBuffered lhs = false ∧ objects.isBuffered rhs = false ∨
    objects.getFile lhs = objects.getFile rhs

end IoObjects

namespace DescriptorOwnership

open IoObjects

/-! ### One object -/

variable {object : IoObject} {member : Member} {fd fd' : PollId}

@[simp] theorem validFd_invalid : validFd InvalidFd = none := by
  simp [validFd]

theorem validFd_eq_some (hfd : fd ≠ InvalidFd) : validFd fd = some fd :=
  if_neg hfd

theorem held_setFile (hfile : object.getFile member = some fd) (hplain : object.isBuffered = false) :
    (object.setFile member fd').held member = validFd fd' := by
  cases object <;> cases member <;> simp_all [IoObject.getFile, IoObject.setFile, IoObject.held,
    IoObject.isBuffered]

theorem held_setFile_of_ne {other : Member} (hne : other ≠ member) :
    (object.setFile member fd').held other = object.held other := by
  cases object <;> cases member <;> cases other <;> simp_all [IoObject.setFile, IoObject.held]

theorem setFile_getFile (hfile : object.getFile member = some fd) :
    object.setFile member fd = object := by
  cases object <;> cases member <;> simp_all [IoObject.getFile, IoObject.setFile]

theorem getFile_setFile (hfile : object.getFile member = some fd) :
    (object.setFile member fd').getFile member = some fd' := by
  cases object <;> cases member <;> simp_all [IoObject.getFile, IoObject.setFile]

theorem getFile_setFile_of_ne {other : Member} (hne : other ≠ member) :
    (object.setFile member fd').getFile other = object.getFile other := by
  cases object <;> cases member <;> cases other <;> simp_all [IoObject.getFile, IoObject.setFile]

@[simp] theorem isBuffered_setFile : (object.setFile member fd).isBuffered = object.isBuffered := by
  cases object <;> cases member <;> rfl

theorem isBuffered_of_end (hfile : object.getFile member = some fd) (hne : member ≠ .whole) :
    object.isBuffered = false := by
  cases object <;> cases member <;> simp_all [IoObject.getFile, IoObject.isBuffered]

theorem held_of_getFile (hobject : object.Consistent) (hfile : object.getFile member = some fd) :
    object.held member = validFd fd := by
  cases object <;> cases member <;> simp_all [IoObject.getFile, IoObject.held, IoObject.Consistent]

theorem consistent_of_plain (hplain : object.isBuffered = false) : object.Consistent := by
  cases object <;> simp_all [IoObject.isBuffered, IoObject.Consistent]

theorem held_of_ne_whole (hduplex : ∀ in' out, object ≠ .duplex in' out) (hne : member ≠ .whole) :
    object.held member = none := by
  cases object <;> cases member <;> simp_all [IoObject.held]

theorem exists_held (hobject : object.Consistent) (hmem : fd ∈ object.descriptors) :
    ∃ member, object.held member = some fd := by
  cases object with
  | duplex in' out =>
      rcases List.mem_append.mp hmem with hin | hout
      · exact ⟨.readEnd, Option.mem_toList.mp hin⟩
      · exact ⟨.writeEnd, Option.mem_toList.mp hout⟩
  | bufferedFile fd' fp =>
      refine ⟨.whole, ?_⟩
      rcases List.mem_append.mp hmem with hfile | hstream
      · exact Eq.trans hobject (Option.mem_toList.mp hfile)
      · exact Option.mem_toList.mp hstream
  | _ => exact ⟨.whole, Option.mem_toList.mp hmem⟩

/-! ### The objects as places -/

variable {objects : IoObjects} {slot other : Slot} {loc : Nat}

theorem held_put (member : Member)
    (hothers : ∀ other, other ≠ member → object.held other = objects.held (loc, other)) :
    IoObjects.held (objects.put loc object) =
      Function.update objects.held (loc, member) (object.held member) := by
  funext ⟨loc', member'⟩
  by_cases hloc : loc' = loc
  · subst hloc
    by_cases hmember : member' = member
    · subst hmember
      simp [IoObjects.held]
    · rw [Function.update_of_ne (by simp [hmember]), ← hothers member' hmember]
      simp [IoObjects.held]
  · rw [Function.update_of_ne (by simp [hloc])]
    simp [IoObjects.held, ObjectStore.put_of_ne hloc]

theorem held_of_object (hobject : objects loc = some object) :
    objects.held (loc, member) = object.held member := by
  simp [IoObjects.held, hobject]

theorem held_put_whole (new : IoObject) (hobject : objects loc = some object)
    (hold : ∀ in' out, object ≠ .duplex in' out) (hnew : ∀ in' out, new ≠ .duplex in' out) :
    IoObjects.held (objects.put loc new) =
      Function.update objects.held (loc, .whole) (new.held .whole) := by
  refine held_put .whole fun other hne => ?_
  rw [held_of_object hobject, held_of_ne_whole hold hne, held_of_ne_whole hnew hne]

theorem held_put_of_none (object : IoObject) (member : Member) (hnone : objects loc = none)
    (hothers : ∀ other, other ≠ member → object.held other = none) :
    IoObjects.held (objects.put loc object) =
      Function.update objects.held (loc, member) (object.held member) :=
  held_put member fun other hne => (hothers other hne).trans (by simp [IoObjects.held, hnone])

theorem held_remove (member : Member)
    (hothers : ∀ other, other ≠ member → objects.held (loc, other) = none) :
    IoObjects.held (objects.remove loc) = Function.update objects.held (loc, member) none := by
  funext ⟨loc', member'⟩
  by_cases hloc : loc' = loc
  · subst hloc
    by_cases hmember : member' = member
    · subst hmember
      simp [IoObjects.held]
    · rw [Function.update_of_ne (by simp [hmember]), hothers member' hmember]
      simp [IoObjects.held]
  · rw [Function.update_of_ne (by simp [hloc])]
    simp [IoObjects.held, ObjectStore.remove_of_ne hloc]

theorem getFile_eq_some (hfile : objects.getFile slot = some fd) :
    ∃ object, objects slot.1 = some object ∧ object.getFile slot.2 = some fd :=
  Option.bind_eq_some_iff.mp hfile

theorem setFile_eq_put (hobject : objects slot.1 = some object) :
    objects.setFile slot fd = objects.put slot.1 (object.setFile slot.2 fd) := by
  simp [IoObjects.setFile, hobject]

theorem setFile_unchanged (hfile : objects.getFile slot = some fd) :
    objects.setFile slot fd = objects := by
  obtain ⟨object, hobject, hfile⟩ := getFile_eq_some hfile
  rw [setFile_eq_put hobject, setFile_getFile hfile, ObjectStore.put, ← hobject]
  exact Function.update_eq_self _ _

theorem held_setFile_eq (hfile : objects.getFile slot = some fd)
    (hplain : objects.isBuffered slot = false) :
    (objects.setFile slot fd').held = Function.update objects.held slot (validFd fd') := by
  obtain ⟨object, hobject, hfile⟩ := getFile_eq_some hfile
  have hplain : object.isBuffered = false := by simpa [IoObjects.isBuffered, hobject] using hplain
  rw [setFile_eq_put hobject, held_put slot.2, held_setFile hfile hplain]
  intro other hne
  rw [held_setFile_of_ne hne, held_of_object hobject]

theorem consistent_setFile (fd : PollId) (hall : objects.All IoObject.Consistent)
    (hplain : objects.isBuffered slot = false) :
    (objects.setFile slot fd).All IoObject.Consistent := by
  cases hobject : objects slot.1 with
  | none => simpa [IoObjects.setFile, hobject] using hall
  | some object =>
      rw [setFile_eq_put hobject]
      refine hall.put (consistent_of_plain ?_)
      simpa [IoObjects.isBuffered, hobject] using hplain

theorem isBuffered_setFile_eq :
    (objects.setFile slot fd).isBuffered other = objects.isBuffered other := by
  cases hobject : objects slot.1 with
  | none => simp [IoObjects.setFile, hobject]
  | some object =>
      rw [setFile_eq_put hobject]
      by_cases heq : other.1 = slot.1
      · simp [IoObjects.isBuffered, heq, hobject]
      · simp [IoObjects.isBuffered, ObjectStore.put_of_ne heq]

theorem getFile_setFile_eq (hfile : objects.getFile slot = some fd) :
    (objects.setFile slot fd').getFile other =
      if other = slot then some fd' else objects.getFile other := by
  obtain ⟨object, hobject, hfile⟩ := getFile_eq_some hfile
  obtain ⟨loc', member'⟩ := other
  rw [setFile_eq_put hobject]
  by_cases hloc : loc' = slot.1
  · subst hloc
    by_cases hmember : member' = slot.2
    · subst hmember
      simp [IoObjects.getFile, getFile_setFile hfile]
    · rw [if_neg fun heq => hmember (congrArg Prod.snd heq)]
      simp [IoObjects.getFile, getFile_setFile_of_ne hmember, hobject]
  · rw [if_neg fun heq => hloc (congrArg Prod.fst heq)]
    simp [IoObjects.getFile, ObjectStore.put_of_ne hloc]

theorem isBuffered_end (hmember : slot.2 ≠ .whole) (hfile : objects.getFile slot = some fd) :
    objects.isBuffered slot = false := by
  obtain ⟨object, hobject, hfile⟩ := getFile_eq_some hfile
  rw [IoObjects.isBuffered, hobject]
  exact isBuffered_of_end hfile hmember

theorem held_eq_validFd (hall : objects.All IoObject.Consistent)
    (hfile : objects.getFile slot = some fd) : objects.held slot = validFd fd := by
  obtain ⟨object, hobject, hfile⟩ := getFile_eq_some hfile
  exact (held_of_object hobject).trans (held_of_getFile (hall slot.1 object hobject) hfile)

end DescriptorOwnership

end Cadence
