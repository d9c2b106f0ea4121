import Cadence.Foundation.Overwrites
import Cadence.Io.SharedSpace

/-!
# Mappings inside their segments

A byte of a mapping that lies behind the end of its segment cannot be read: the access ends the
process. The end of a segment moves whenever somebody calls `create` for its name, also while others
have it mapped, and a call that has looked at the size has still to map it.

When all who create a segment of a name agree on its size, none of this can happen, whatever the order
of the native calls: a segment is empty until the first of them has set the size, and keeps the size
from then on.
-/

namespace Cadence.SharedMappings

open SharedMemory SharedSpace StepSystem

variable {agreed : SegmentName → Nat} {space next : SharedSpace} {place target : Place}
  {object : Object} {descriptor : Descriptor} {mapping : Mapping} {extent : Extent} {id : Nat}
  {name : SegmentName} {call : Call}

/-- No mapping reaches behind the end of its segment, and the segment has the agreed size. -/
def Backed (agreed : SegmentName → Nat) (space : SharedSpace) : Prop :=
  ∀ place mapping id, space.mappings place = some mapping → mapping.segment = some id →
    mapping.size ≤ (space.segments id).size ∧
      (space.segments id).size = agreed (space.segments id).name

/-- The size of the segment that an object has open. -/
def sizeAt (space : SharedSpace) (place : Place) : Option Nat :=
  (space.objects place).bind fun object => (space.size place.process object.fd none).toOption

/-- A segment is created with the agreed size, and not mapped for more than it has. No native close
fails. -/
def Agrees (agreed : SegmentName → Nat) (space : SharedSpace) : Action → Prop
  | .create _ pathname memSize _ _ => memSize.toNat = agreed (segmentName pathname)
  | .map place _ _ _ mapSize _ => ∀ size ∈ sizeAt space place, mapSize ≤ size
  | .close _ ec => ec = none
  | _ => True

instance (agreed : SegmentName → Nat) (space : SharedSpace) :
    DecidablePred (Agrees agreed space)
  | .create .. => inferInstanceAs (Decidable (_ = _))
  | .map _ _ _ _ mapSize _ => inferInstanceAs (Decidable (∀ size ∈ _, mapSize ≤ size))
  | .close .. => inferInstanceAs (Decidable (_ = none))
  | .ftruncate .. | .openSegment .. | .unlink .. | .mmap .. | .createAnon .. | .destroy ..
  | .store .. | .dispose .. => isTrue trivial

/-- The call can be made with this segment. -/
def Fits (agreed : SegmentName → Nat) (space : SharedSpace) (id : Nat) : Call → Prop
  | .ftruncate memSize => memSize.toNat = agreed (space.segments id).name
  | .mmap _ memSize _ _ => memSize ≤ (space.segments id).size

/-- An open object has a descriptor, for a segment that its call can be made with. -/
def Holds (agreed : SegmentName → Nat) (space : SharedSpace) (place : Place) (object : Object) :
    Prop :=
  (object.fd = InvalidFd ∧ object.call = none) ∨
    ∃ descriptor, space.descriptors (place.process, object.fd) = some descriptor ∧
      object.fd ≠ InvalidFd ∧ ∀ call, object.call = some call → Fits agreed space descriptor.segment call

structure Invariant (agreed : SegmentName → Nat) (space : SharedSpace) : Prop where
  named : ∀ name id, space.names name = some id →
    id < space.count ∧ (space.segments id).name = name
  described : ∀ key descriptor, space.descriptors key = some descriptor →
    descriptor.segment < space.count
  sized : ∀ id, (space.segments id).size = 0 ∨
    (space.segments id).size = agreed (space.segments id).name
  holds : ∀ place object, space.objects place = some object → Holds agreed space place object
  alone : ∀ place place' object object', space.objects place = some object →
    space.objects place' = some object' → place.process = place'.process →
    object.fd = object'.fd → object.fd ≠ InvalidFd → place = place'
  mapped : ∀ place mapping id, space.mappings place = some mapping → mapping.segment = some id →
    id < space.count ∧ 0 < mapping.size ∧ mapping.size ≤ (space.segments id).size

theorem Invariant.backed (hinvariant : Invariant agreed space) : Backed agreed space := by
  intro place mapping id hmapping hsegment
  obtain ⟨_, hpos, hle⟩ := hinvariant.mapped place mapping id hmapping hsegment
  refine ⟨hle, (hinvariant.sized id).resolve_left ?_⟩
  omega

theorem invariant_empty : Invariant agreed SharedSpace.empty where
  named _ _ hname := (nomatch hname)
  described _ _ hdescriptor := (nomatch hdescriptor)
  sized _ := .inl rfl
  holds _ _ hobject := (nomatch hobject)
  alone _ _ _ _ hobject := (nomatch hobject)
  mapped _ _ _ hmapping := (nomatch hmapping)

/-! ### Segments -/

/-- The segments there are keep their names, and none of them shrinks. -/
structure Grows (space next : SharedSpace) : Prop where
  count : space.count ≤ next.count
  name : ∀ id < space.count, (next.segments id).name = (space.segments id).name
  size : ∀ id < space.count, (space.segments id).size ≤ (next.segments id).size

theorem Fits.grows (hfits : Fits agreed space id call) (hgrows : Grows space next)
    (hid : id < space.count) : Fits agreed next id call := by
  cases call with
  | ftruncate memSize =>
      change memSize.toNat = agreed (next.segments id).name
      rw [hgrows.name id hid]
      exact hfits
  | mmap target memSize access protection => exact Nat.le_trans hfits (hgrows.size id hid)

/-- Segments may be added, and grow as agreed. -/
theorem Invariant.grows (hinvariant : Invariant agreed space) (hgrows : Grows space next)
    (hdescriptors : next.descriptors = space.descriptors) (hobjects : next.objects = space.objects)
    (hmappings : next.mappings = space.mappings)
    (hnamed : ∀ name id, next.names name = some id →
      id < next.count ∧ (next.segments id).name = name)
    (hsized : ∀ id, (next.segments id).size = 0 ∨
      (next.segments id).size = agreed (next.segments id).name) : Invariant agreed next where
  named := hnamed
  described key descriptor hdescriptor := by
    rw [hdescriptors] at hdescriptor
    exact Nat.lt_of_lt_of_le (hinvariant.described key descriptor hdescriptor) hgrows.count
  sized := hsized
  holds place object hobject := by
    rw [hobjects] at hobject
    rcases hinvariant.holds place object hobject with hclosed | ⟨descriptor, hdescriptor, hfd, hcall⟩
    · exact .inl hclosed
    · have hid := hinvariant.described _ descriptor hdescriptor
      refine .inr ⟨descriptor, by rw [hdescriptors, hdescriptor], hfd, fun call hsome => ?_⟩
      exact (hcall call hsome).grows hgrows hid
  alone place place' object object' hobject hobject' := by
    rw [hobjects] at hobject hobject'
    exact hinvariant.alone place place' object object' hobject hobject'
  mapped place mapping id hmapping hsegment := by
    rw [hmappings] at hmapping
    obtain ⟨hid, hpos, hle⟩ := hinvariant.mapped place mapping id hmapping hsegment
    exact ⟨Nat.lt_of_lt_of_le hid hgrows.count, hpos, Nat.le_trans hle (hgrows.size id hid)⟩

theorem Invariant.setSegment (hinvariant : Invariant agreed space)
    (hname : extent.name = (space.segments id).name)
    (hle : (space.segments id).size ≤ extent.size)
    (hsize : extent.size = 0 ∨ extent.size = agreed extent.name) :
    Invariant agreed (space.setSegment id extent) := by
  have hnames : ∀ other, ((space.setSegment id extent).segments other).name =
      (space.segments other).name := by
    intro other
    by_cases heq : other = id
    · rw [heq, segments_setSegment_self, hname]
    · rw [segments_setSegment_of_ne heq]
  have hsizes : ∀ other, (space.segments other).size ≤
      ((space.setSegment id extent).segments other).size := by
    intro other
    by_cases heq : other = id
    · rw [heq, segments_setSegment_self]
      exact hle
    · exact Nat.le_of_eq (congrArg Extent.size (segments_setSegment_of_ne heq)).symm
  have hgrows : Grows space (space.setSegment id extent) :=
    ⟨Nat.le_refl _, fun other _ => hnames other, fun other _ => hsizes other⟩
  apply hinvariant.grows hgrows rfl rfl rfl
  · intro name other hnamed
    rw [hnames]
    exact hinvariant.named name other hnamed
  · apply (Function.forall_update_iff space.segments fun _ extent =>
      extent.size = 0 ∨ extent.size = agreed extent.name).mpr
    exact ⟨hsize, fun other _ => hinvariant.sized other⟩

theorem grows_nameSegment : Grows space (space.nameSegment name) := by
  unfold SharedSpace.nameSegment
  split
  next => exact ⟨Nat.le_refl _, fun _ _ => rfl, fun _ _ => Nat.le_refl _⟩
  next =>
    have hold : ∀ id < space.count,
        Function.update space.segments space.count ⟨name, 0, fun _ => 0⟩ id = space.segments id :=
      fun id hid => Function.update_of_ne (Nat.ne_of_lt hid) _ _
    constructor
    · exact Nat.le_succ _
    · exact fun id hid => congrArg Extent.name (hold id hid)
    · exact fun id hid => Nat.le_of_eq (congrArg Extent.size (hold id hid)).symm

/-- The name now stands for this segment. -/
theorem names_nameSegment :
    (space.nameSegment name).names name = some (space.segmentNamed name) := by
  unfold SharedSpace.nameSegment segmentNamed
  split
  next id hid => rw [hid, Option.getD_some]
  next hnone =>
    rw [hnone, Option.getD_none]
    exact ObjectStore.put_self

theorem Invariant.nameSegment (hinvariant : Invariant agreed space) :
    Invariant agreed (space.nameSegment name) := by
  have hgrows : Grows space (space.nameSegment name) := grows_nameSegment
  unfold SharedSpace.nameSegment at hgrows ⊢
  split at hgrows
  next => exact hinvariant
  next =>
    apply hinvariant.grows hgrows rfl rfl rfl
    · intro other id (hid : space.names.put name space.count other = some id)
      by_cases heq : other = name
      · rw [heq, ObjectStore.put_self, Option.some.injEq] at hid
        subst hid
        exact ⟨Nat.lt_succ_self _, (congrArg Extent.name (Function.update_self _ _ _)).trans heq.symm⟩
      · rw [ObjectStore.put_of_ne heq] at hid
        obtain ⟨hlt, hname⟩ := hinvariant.named other id hid
        exact ⟨Nat.lt_succ_of_lt hlt, (hgrows.name id hlt).trans hname⟩
    · apply (Function.forall_update_iff space.segments fun _ extent =>
        extent.size = 0 ∨ extent.size = agreed extent.name).mpr
      exact ⟨.inl rfl, fun id _ => hinvariant.sized id⟩

theorem Invariant.removeName (hinvariant : Invariant agreed space) :
    Invariant agreed (space.removeName name) := by
  have hgrows : Grows space (space.removeName name) :=
    ⟨Nat.le_refl _, fun _ _ => rfl, fun _ _ => Nat.le_refl _⟩
  apply hinvariant.grows hgrows rfl rfl rfl
  · intro other id (hid : space.names.remove name other = some id)
    by_cases heq : other = name
    · rw [heq, ObjectStore.remove_self] at hid
      cases hid
    · rw [ObjectStore.remove_of_ne heq] at hid
      exact hinvariant.named other id hid
  · exact hinvariant.sized

/-! ### Objects -/

theorem Invariant.removeObject (hinvariant : Invariant agreed space) :
    Invariant agreed (space.removeObject place) where
  named := hinvariant.named
  described := hinvariant.described
  sized := hinvariant.sized
  holds place' object' hobject := hinvariant.holds place' object' (objects_of_removeObject hobject)
  alone place' place'' object' object'' hobject' hobject'' :=
    hinvariant.alone place' place'' object' object'' (objects_of_removeObject hobject')
      (objects_of_removeObject hobject'')
  mapped := hinvariant.mapped

/-- An object takes the place of another that has the same descriptor, or of none. -/
theorem Invariant.setObject (hinvariant : Invariant agreed space)
    (hholds : Holds agreed space place object)
    (halone : object.fd ≠ InvalidFd → ∀ place' object', space.objects place' = some object' →
      place'.process = place.process → object'.fd = object.fd → place' = place) :
    Invariant agreed (space.setObject place object) where
  named := hinvariant.named
  described := hinvariant.described
  sized := hinvariant.sized
  holds place' object' (hobject : space.objects.put place object place' = some object') := by
    by_cases heq : place' = place
    · rw [heq, ObjectStore.put_self, Option.some.injEq] at hobject
      rw [heq, ← hobject]
      exact hholds
    · rw [ObjectStore.put_of_ne heq] at hobject
      exact hinvariant.holds place' object' hobject
  alone a b x y (ha : space.objects.put place object a = some x)
      (hb : space.objects.put place object b = some y) hprocess hfd hopen := by
    by_cases hap : a = place
    · rw [hap, ObjectStore.put_self, Option.some.injEq] at ha
      by_cases hbp : b = place
      · rw [hap, hbp]
      · rw [ObjectStore.put_of_ne hbp] at hb
        subst ha
        rw [hap] at hprocess ⊢
        exact (halone hopen b y hb hprocess.symm hfd.symm).symm
    · rw [ObjectStore.put_of_ne hap] at ha
      by_cases hbp : b = place
      · rw [hbp, ObjectStore.put_self, Option.some.injEq] at hb
        subst hb
        rw [hbp] at hprocess ⊢
        exact halone (hfd ▸ hopen) a x ha hprocess hfd
      · rw [ObjectStore.put_of_ne hbp] at hb
        exact hinvariant.alone a b x y ha hb hprocess hfd hopen
  mapped := hinvariant.mapped

/-- The object makes another call. -/
theorem Invariant.setCall (hinvariant : Invariant agreed space)
    (hobject : space.objects place = some object) {call : Option Call}
    (hholds : Holds agreed space place { object with call := call }) :
    Invariant agreed (space.setObject place { object with call := call }) := by
  apply hinvariant.setObject hholds
  intro hopen place' object' hobject' hprocess hfd
  exact hinvariant.alone place' place object' object hobject' hobject hprocess hfd (hfd.symm ▸ hopen)

/-- Descriptors are closed that no object has. -/
theorem Invariant.release (hinvariant : Invariant agreed space) {process : Nat} {fds : List PollId}
    (hfree : ∀ place' object', space.objects place' = some object' → place'.process = process →
      object'.fd ≠ InvalidFd → object'.fd ∉ fds) :
    Invariant agreed (space.release process fds) where
  named := hinvariant.named
  described key descriptor hdescriptor := by
    unfold SharedSpace.release at hdescriptor
    dsimp only at hdescriptor
    split at hdescriptor
    next => cases hdescriptor
    next => exact hinvariant.described key descriptor hdescriptor
  sized := hinvariant.sized
  holds place' object' hobject' := by
    rcases hinvariant.holds place' object' hobject' with hclosed | ⟨descriptor, hdescriptor, hfd, hcall⟩
    · exact .inl hclosed
    · refine .inr ⟨descriptor, ?_, hfd, hcall⟩
      have hkept : ¬ (place'.process = process ∧ object'.fd ∈ fds) :=
        fun hreleased => hfree place' object' hobject' hreleased.1 hfd hreleased.2
      exact (if_neg hkept).trans hdescriptor
  alone := hinvariant.alone
  mapped := hinvariant.mapped

/-- A descriptor is opened that the process did not have. -/
theorem Invariant.adopt (hinvariant : Invariant agreed space) (hfd : 0 ≤ object.fd)
    (hnew : space.descriptors (place.process, object.fd) = none)
    (hid : descriptor.segment < space.count)
    (hcall : ∀ call, object.call = some call → Fits agreed space descriptor.segment call) :
    Invariant agreed (space.adopt place descriptor object) := by
  have hunused : ∀ place' object', space.objects place' = some object' →
      place'.process = place.process → object'.fd ≠ InvalidFd → object'.fd ≠ object.fd := by
    intro place' object' hobject' hprocess hopen heq
    rcases hinvariant.holds place' object' hobject' with ⟨hclosed, _⟩ | ⟨descriptor', hdescriptor, _⟩
    · exact hopen hclosed
    · rw [hprocess, heq, hnew] at hdescriptor
      cases hdescriptor
  have hopened : Invariant agreed
      { space with descriptors := space.descriptors.put (place.process, object.fd) descriptor } := by
    constructor
    · exact hinvariant.named
    · intro key other (hother : space.descriptors.put _ descriptor key = some other)
      by_cases heq : key = (place.process, object.fd)
      · rw [heq, ObjectStore.put_self, Option.some.injEq] at hother
        exact hother ▸ hid
      · rw [ObjectStore.put_of_ne heq] at hother
        exact hinvariant.described key other hother
    · exact hinvariant.sized
    · intro place' object' hobject'
      rcases hinvariant.holds place' object' hobject' with hclosed | ⟨other, hother, hopen, hfits⟩
      · exact .inl hclosed
      · refine .inr ⟨other, ?_, hopen, hfits⟩
        have hne : (place'.process, object'.fd) ≠ (place.process, object.fd) := by
          intro heq
          obtain ⟨hprocess, hsame⟩ := Prod.mk.inj heq
          exact hunused place' object' hobject' hprocess hopen hsame
        exact (ObjectStore.put_of_ne hne).trans hother
    · exact hinvariant.alone
    · exact hinvariant.mapped
  have hne : object.fd ≠ InvalidFd := by
    intro heq
    rw [heq] at hfd
    exact absurd hfd (by decide)
  refine hopened.setObject (.inr ⟨descriptor, ObjectStore.put_self, hne, hcall⟩) ?_
  intro _ place' object' hobject' hprocess hsame
  exact absurd hsame (hunused place' object' hobject' hprocess (hsame ▸ hne))

theorem Invariant.setMapping (hinvariant : Invariant agreed space)
    (hmapped : ∀ id, mapping.segment = some id →
      id < space.count ∧ 0 < mapping.size ∧ mapping.size ≤ (space.segments id).size) :
    Invariant agreed (space.setMapping target mapping) where
  named := hinvariant.named
  described := hinvariant.described
  sized := hinvariant.sized
  holds := hinvariant.holds
  alone := hinvariant.alone
  mapped := by
    intro place' mapping' id (hmapping : space.mappings.put target mapping place' = some mapping')
      hsegment
    by_cases heq : place' = target
    · rw [heq, ObjectStore.put_self, Option.some.injEq] at hmapping
      rw [← hmapping] at hsegment ⊢
      exact hmapped id hsegment
    · rw [ObjectStore.put_of_ne heq] at hmapping
      exact hinvariant.mapped place' mapping' id hmapping hsegment

/-! ### Calls -/

theorem Invariant.create (hinvariant : Invariant agreed space) {pathname : Path}
    {memSize : BitVec 64} {mode : AccessMode} {outcome : Except Errno PollId}
    (hopens : space.Opens place.process outcome)
    (hagrees : memSize.toNat = agreed (segmentName pathname)) :
    Invariant agreed (space.create place pathname memSize mode outcome).2 := by
  unfold SharedSpace.create
  split
  next => exact hinvariant
  next =>
    split
    next => exact hinvariant
    next =>
      cases outcome with
      | error errno => exact hinvariant
      | ok fd =>
          have hopened : Invariant agreed (space.nameSegment (segmentName pathname)) :=
            hinvariant.nameSegment
          obtain ⟨hid, hname⟩ := hopened.named _ _ names_nameSegment
          apply hopened.adopt hopens.1
          · rw [descriptors_nameSegment]
            exact hopens.2
          · exact hid
          · intro call hcall
            obtain rfl := Option.some.inj hcall
            exact hagrees.trans (congrArg agreed hname.symm)

/-- The call has a descriptor to be made with. -/
theorem Invariant.exists_descriptor (hinvariant : Invariant agreed space)
    (hobject : space.objects place = some object) (hcall : object.call = some call) :
    ∃ descriptor, space.descriptors (place.process, object.fd) = some descriptor ∧
      Fits agreed space descriptor.segment call := by
  rcases hinvariant.holds place object hobject with ⟨_, hnone⟩ | ⟨descriptor, hdescriptor, _, hfits⟩
  · cases hnone.symm.trans hcall
  · exact ⟨descriptor, hdescriptor, hfits call hcall⟩

theorem Holds.idle (hholds : Holds agreed space place object)
    (hdescriptors : next.descriptors = space.descriptors) :
    Holds agreed next place { object with call := none } := by
  rcases hholds with ⟨hclosed, _⟩ | ⟨descriptor, hdescriptor, hopen, _⟩
  · exact .inl ⟨hclosed, rfl⟩
  · exact .inr ⟨descriptor, by rw [hdescriptors, hdescriptor], hopen, fun _ hcall => (nomatch hcall)⟩

theorem Invariant.ftruncate (hinvariant : Invariant agreed space) {memSize : BitVec 64}
    {ec : Option Errno} (hobject : space.objects place = some object)
    (hcall : object.call = some (.ftruncate memSize)) :
    Invariant agreed (space.ftruncate place object memSize ec).2 := by
  obtain ⟨descriptor, hdescriptor, hfits⟩ := hinvariant.exists_descriptor hobject hcall
  have hsize : memSize.toNat = agreed (space.segments descriptor.segment).name := hfits
  simp only [SharedSpace.ftruncate, hdescriptor]
  split
  next => exact hinvariant.removeObject
  next =>
    have hle : (space.segments descriptor.segment).size ≤ memSize.toNat := by
      rcases hinvariant.sized descriptor.segment with hzero | hagreed
      · rw [hzero]
        exact Nat.zero_le _
      · exact Nat.le_of_eq (hagreed.trans hsize.symm)
    have hresized : Invariant agreed (space.setSegment descriptor.segment
        ((space.segments descriptor.segment).resize memSize.toNat)) :=
      hinvariant.setSegment rfl hle (.inr hsize)
    exact hresized.setCall hobject ((hinvariant.holds place object hobject).idle rfl)

theorem Invariant.openSegment (hinvariant : Invariant agreed space) {pathname : Path}
    {mode : AccessMode} {outcome : Except Errno PollId}
    (hopens : space.Opens place.process outcome) :
    Invariant agreed (space.openSegment place pathname mode outcome).2 := by
  unfold SharedSpace.openSegment
  split
  next => exact hinvariant
  next =>
    split
    next => exact hinvariant
    next => exact hinvariant
    next fd id hid =>
      have hsegment := (hinvariant.named _ id hid).1
      exact hinvariant.adopt hopens.1 hopens.2 hsegment fun _ hcall => (nomatch hcall)

theorem Invariant.unlink (hinvariant : Invariant agreed space) {pathname : Path}
    {ec : Option Errno} : Invariant agreed (space.unlink pathname ec).2 := by
  unfold SharedSpace.unlink
  split
  next => exact hinvariant
  next => exact hinvariant
  next => exact hinvariant.removeName

/-- The size that `map` asks for is the size there is. -/
theorem size_eq_ok {process : Nat} {fd : PollId} {ec : Option Errno} {size : Nat}
    (hsize : space.size process fd ec = .ok size) :
    ∃ descriptor, space.descriptors (process, fd) = some descriptor ∧
      size = (space.segments descriptor.segment).size := by
  unfold SharedSpace.size at hsize
  split at hsize
  next => cases hsize
  next =>
    split at hsize
    next => cases hsize
    next => cases hsize
    next descriptor hdescriptor => exact ⟨descriptor, hdescriptor, (Except.ok.inj hsize).symm⟩

theorem sizeAt_of_descriptor (hobject : space.objects place = some object)
    (hopen : object.fd ≠ InvalidFd)
    (hdescriptor : space.descriptors (place.process, object.fd) = some descriptor) :
    sizeAt space place = some (space.segments descriptor.segment).size := by
  have hsize : space.size place.process object.fd none =
      .ok (space.segments descriptor.segment).size := by
    simp only [SharedSpace.size, if_neg hopen, hdescriptor]
  rw [sizeAt, hobject, Option.bind_some, hsize]
  rfl

theorem Invariant.map (hinvariant : Invariant agreed space) {target : Nat} {access : Access}
    {protection : BitVec 32} {mapSize : Nat} {ec : Option Errno}
    (hobject : space.objects place = some object)
    (hagrees : ∀ size ∈ sizeAt space place, mapSize ≤ size) :
    Invariant agreed (space.map place object target access protection mapSize ec).2 := by
  unfold SharedSpace.map
  split
  next => exact hinvariant
  next hopen =>
    split
    next => exact hinvariant
    next memSize hsize =>
      apply hinvariant.setCall hobject
      rcases hinvariant.holds place object hobject with ⟨hclosed, _⟩ | ⟨descriptor, hdescriptor, _, _⟩
      · exact absurd hclosed hopen
      · refine .inr ⟨descriptor, hdescriptor, hopen, fun call hcall => ?_⟩
        obtain rfl := Option.some.inj hcall
        change memSize ≤ (space.segments descriptor.segment).size
        split at hsize
        next =>
          obtain ⟨other, hother, rfl⟩ := size_eq_ok hsize
          rw [hdescriptor, Option.some.injEq] at hother
          exact Nat.le_of_eq (by rw [hother])
        next =>
          obtain rfl := Except.ok.inj hsize
          apply hagrees
          exact sizeAt_of_descriptor hobject hopen hdescriptor

theorem Invariant.install (hinvariant : Invariant agreed space) {outcome : Except Raised Mapping}
    (hmapped : ∀ mapping id, outcome = .ok mapping → mapping.segment = some id →
      id < space.count ∧ 0 < mapping.size ∧ mapping.size ≤ (space.segments id).size) :
    Invariant agreed (space.install target outcome).2 := by
  cases outcome with
  | error raised => exact hinvariant
  | ok mapping => exact hinvariant.setMapping fun id hid => hmapped mapping id rfl hid

theorem Invariant.mmap (hinvariant : Invariant agreed space) {target memSize : Nat}
    {access : Access} {protection : BitVec 32} {ec : Option Errno}
    (hobject : space.objects place = some object)
    (hcall : object.call = some (.mmap target memSize access protection)) :
    Invariant agreed (space.mmap place object target memSize access protection ec).2 := by
  obtain ⟨descriptor, hdescriptor, hfits⟩ := hinvariant.exists_descriptor hobject hcall
  have hidle : Invariant agreed (space.setObject place { object with call := none }) :=
    hinvariant.setCall hobject ((hinvariant.holds place object hobject).idle rfl)
  apply hidle.install
  intro mapping id hmapping hsegment
  obtain ⟨hpos, hsize, hsame⟩ := mapMem_eq_ok hmapping
  obtain ⟨other, hother, rfl⟩ := hsame id hsegment
  rw [hdescriptor, Option.some.injEq] at hother
  subst hother
  refine ⟨hinvariant.described _ descriptor hdescriptor, hsize ▸ hpos, ?_⟩
  rw [hsize]
  exact hfits

theorem Invariant.createAnon (hinvariant : Invariant agreed space) {size : Nat} {access : Access}
    {protection : BitVec 32} {ec : Option Errno} :
    Invariant agreed (space.createAnon target size access protection ec).2 := by
  apply hinvariant.install
  intro mapping id hmapping hsegment
  unfold mapMem at hmapping
  split at hmapping
  next => cases hmapping
  next =>
    rw [if_pos rfl] at hmapping
    split at hmapping
    next => cases hmapping
    next =>
      cases hmapping
      cases hsegment

/-- No other object of the process has the descriptor. -/
theorem Invariant.unshared (hinvariant : Invariant agreed space)
    (hobject : space.objects place = some object) {place' : Place} {object' : Object}
    (hobject' : (space.removeObject place).objects place' = some object')
    (hprocess : place'.process = place.process) (hopen : object'.fd ≠ InvalidFd) :
    object'.fd ∉ [object.fd] := by
  intro hmem
  have hfd := List.mem_singleton.mp hmem
  have hsame : place' = place := hinvariant.alone place' place object' object
    (objects_of_removeObject hobject') hobject hprocess hfd hopen
  rw [hsame] at hobject'
  cases (ObjectStore.remove_self).symm.trans hobject'

theorem Invariant.closed (hinvariant : Invariant agreed space)
    (hobject : space.objects place = some object) :
    Invariant agreed ((space.removeObject place).release place.process [object.fd]) := by
  apply hinvariant.removeObject.release
  intro place' object' hobject' hprocess hopen
  exact hinvariant.unshared hobject hobject' hprocess hopen

theorem Invariant.close (hinvariant : Invariant agreed space)
    (hobject : space.objects place = some object) (hidle : object.call = none) :
    Invariant agreed (space.close place object none).2 := by
  unfold SharedSpace.close SharedMemory.close
  split
  next hclosed =>
    have hsame : Invariant agreed (space.release place.process []) :=
      hinvariant.release fun _ _ _ _ _ => List.not_mem_nil
    apply hsame.setObject (.inl ⟨hclosed, hidle⟩)
    exact fun hopen => absurd hclosed hopen
  next =>
    have hclosed : Invariant agreed (((space.removeObject place).release place.process
        [object.fd]).setObject place { object with fd := InvalidFd }) :=
      (hinvariant.closed hobject).setObject (.inl ⟨rfl, hidle⟩) fun hopen => absurd rfl hopen
    unfold SharedSpace.setObject SharedSpace.removeObject SharedSpace.release at hclosed
    dsimp only at hclosed
    rw [ObjectStore.put_remove] at hclosed
    exact hclosed

theorem Invariant.destroy (hinvariant : Invariant agreed space)
    (hobject : space.objects place = some object) :
    Invariant agreed (space.destroy place object) := by
  unfold SharedSpace.destroy
  split
  next => exact hinvariant.removeObject
  next =>
    cases object.linkedPath with
    | none => exact hinvariant.closed hobject
    | some path => exact (hinvariant.closed hobject).removeName

theorem Invariant.store (hinvariant : Invariant agreed space) {offset : Nat} {byte : Byte}
    (hstore : space.store place offset byte = some next) : Invariant agreed next := by
  unfold SharedSpace.store at hstore
  split at hstore
  next => cases hstore
  next mapping hmapping =>
    split at hstore
    next =>
      split at hstore
      next id hsegment haccess =>
        dsimp only at hstore
        split at hstore
        next =>
          obtain rfl := Option.some.inj hstore
          exact hinvariant.setSegment rfl (Nat.le_refl _) (hinvariant.sized id)
        next => cases hstore
      next =>
        obtain rfl := Option.some.inj hstore
        exact hinvariant.setMapping fun id hid => hinvariant.mapped place mapping id hmapping hid
    next => cases hstore

theorem Invariant.dispose (hinvariant : Invariant agreed space) :
    Invariant agreed { space with mappings := space.mappings.remove place } where
  named := hinvariant.named
  described := hinvariant.described
  sized := hinvariant.sized
  holds := hinvariant.holds
  alone := hinvariant.alone
  mapped place' mapping id hmapping := by
    by_cases heq : place' = place
    · rw [heq] at hmapping
      cases (ObjectStore.remove_self).symm.trans hmapping
    · exact hinvariant.mapped place' mapping id ((ObjectStore.remove_of_ne heq).symm.trans hmapping)

theorem Invariant.step (hinvariant : Invariant agreed space) {action : Action}
    (hstep : SharedSpace.step space action = some next) (hagrees : Agrees agreed space action) :
    Invariant agreed next := by
  cases action with
  | create place pathname memSize mode outcome =>
      obtain ⟨⟨_, hopens⟩, hnext⟩ := Option.ite_none_right_eq_some.mp hstep
      obtain rfl := Option.some.inj hnext
      exact hinvariant.create hopens hagrees
  | ftruncate place ec =>
      dsimp only [SharedSpace.step] at hstep
      split at hstep
      next hobject =>
        obtain rfl := Option.some.inj hstep
        exact hinvariant.ftruncate hobject rfl
      next => cases hstep
  | openSegment place pathname mode outcome =>
      obtain ⟨⟨_, hopens⟩, hnext⟩ := Option.ite_none_right_eq_some.mp hstep
      obtain rfl := Option.some.inj hnext
      exact hinvariant.openSegment hopens
  | unlink pathname ec =>
      obtain rfl := Option.some.inj hstep
      exact hinvariant.unlink
  | map place target access protection mapSize ec =>
      obtain ⟨object, hidle, rfl⟩ := Option.map_eq_some_iff.mp hstep
      obtain ⟨hobject, _⟩ := idleObject_eq_some hidle
      exact hinvariant.map hobject hagrees
  | mmap place ec =>
      dsimp only [SharedSpace.step] at hstep
      split at hstep
      next hobject =>
        obtain ⟨_, hnext⟩ := Option.ite_none_right_eq_some.mp hstep
        obtain rfl := Option.some.inj hnext
        exact hinvariant.mmap hobject rfl
      next => cases hstep
  | createAnon target size access protection ec =>
      obtain ⟨_, hnext⟩ := Option.ite_none_right_eq_some.mp hstep
      obtain rfl := Option.some.inj hnext
      exact hinvariant.createAnon
  | close place ec =>
      obtain ⟨object, hidle, rfl⟩ := Option.map_eq_some_iff.mp hstep
      obtain ⟨hobject, hcall⟩ := idleObject_eq_some hidle
      have hec : ec = none := hagrees
      rw [hec]
      exact hinvariant.close hobject hcall
  | destroy place =>
      obtain ⟨object, hidle, rfl⟩ := Option.map_eq_some_iff.mp hstep
      obtain ⟨hobject, _⟩ := idleObject_eq_some hidle
      exact hinvariant.destroy hobject
  | store place offset byte => exact hinvariant.store hstep
  | dispose place =>
      obtain ⟨_, hnext⟩ := Option.ite_none_left_eq_some.mp hstep
      obtain rfl := Option.some.inj hnext
      exact hinvariant.dispose

/-- **Mappings inside their segments.** When every `create` asks for the size agreed for the name, no
`map` asks for more than the segment has, and no native close fails, then every mapping lies inside its
segment in every state, however the native calls of threads and processes interleave and whatever is
unlinked, created again, closed and destroyed; and the segment has the agreed size. -/
theorem backed_of_agreement (agreed : SegmentName → Nat) (actions : List Action)
    (hagrees : Guarded SharedSpace.step (Agrees agreed) SharedSpace.empty actions) :
    Always SharedSpace.step (Backed agreed) SharedSpace.empty actions := by
  have halways : Always SharedSpace.step (Invariant agreed) SharedSpace.empty actions :=
    always_of_guarded invariant_empty
      (fun space action next hinvariant hstep hguard => hinvariant.step hstep hguard) hagrees
  exact halways.mono fun space hinvariant => hinvariant.backed

/-- Two processes create one segment, the second of them in the middle of the first call, and both map
all of it. -/
def twoCreators : List Action :=
  [.create ⟨0, 0⟩ "/s" 16 .readWrite (.ok 3),
    .create ⟨1, 0⟩ "/s" 16 .readWrite (.ok 3),
    .ftruncate ⟨1, 0⟩ none,
    .map ⟨1, 0⟩ 0 .shared Protection.Read 0 none,
    .ftruncate ⟨0, 0⟩ none,
    .mmap ⟨1, 0⟩ none,
    .map ⟨0, 0⟩ 0 .private' Protection.Read 0 none,
    .close ⟨1, 0⟩ none,
    .mmap ⟨0, 0⟩ none]

theorem backed_of_agreement_twoCreators :
    Always SharedSpace.step (Backed fun _ => 16) SharedSpace.empty twoCreators :=
  backed_of_agreement (fun _ => 16) twoCreators (by decide)

end Cadence.SharedMappings
