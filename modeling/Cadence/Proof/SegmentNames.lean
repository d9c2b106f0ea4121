import Cadence.Foundation.StepSystem
import Cadence.Io.SegmentLedger
import Mathlib.Data.List.Count

/-!
# Unlinking the name of a segment

The path to unlink travels together with the descriptor, so the segment of a creation is held by one
object at a time, and the destructor of that object unlinks the name. It does so only while the
descriptor is valid: the name of a segment that was closed first stays behind.
-/

namespace Cadence.SegmentNames

open SegmentLedger StepSystem

/-- A name that is unlinked for its creation. -/
def entryOf (creation : Creation) : Option Creation × Path := (some creation, creation.path)

/-- Names are unlinked only for a creation. While its segment is held the name of a creation is not
unlinked, and once no object holds it the name was unlinked exactly once. -/
structure UnlinkedOnce (ledger : SegmentLedger) : Prop where
  byCreator : ∀ entry ∈ ledger.unlinked, ∃ creation, entry = entryOf creation
  held : ∀ loc creation, ledger.creationAt loc = some creation →
    ledger.unlinked.count (entryOf creation) = 0
  gone : ∀ creation ∈ ledger.creations, (∀ loc, ledger.creationAt loc ≠ some creation) →
    ledger.unlinked.count (entryOf creation) = 1

/-- No object that is closed and still has a path is destroyed. -/
def NamesNoneClosed (ledger : SegmentLedger) : Action → Prop
  | .destroy loc => ∀ fd path, ledger.io.objects loc = some (.sharedMemory fd (some path)) →
      fd ≠ InvalidFd
  | _ => True

def ownership (ledger : SegmentLedger) (released : List Creation) : Ownership Nat Creation :=
  ⟨ledger.creationAt, ledger.creations, released⟩

/-- A location has the path of the segment whose creation is recorded for it. -/
def Carries (creation : Option Creation) : Option IoObject → Prop
  | none => creation = none
  | some object => ∃ fd, object = .sharedMemory fd (creation.map Creation.path)

/-- The names of `released` were unlinked, and each location has the path of what is recorded there. -/
structure Settled (released : List Creation) (ledger : SegmentLedger) : Prop where
  carried : ∀ loc, Carries (ledger.creationAt loc) (ledger.io.objects loc)
  numbered : ∀ creation ∈ ledger.creations, creation.number < ledger.creations.length
  unlinked : ledger.unlinked = released.map entryOf
  sound : (ownership ledger released).Sound

theorem entryOf_injective : Function.Injective entryOf := by
  intro x y hentry
  exact Option.some.inj (Prod.mk.inj hentry).1

variable {ledger next : SegmentLedger} {released : List Creation} {loc other lhs rhs : Nat}
  {path : Path} {fd : PollId}

theorem Settled.count (hsettled : Settled released ledger) (creation : Creation) :
    ledger.unlinked.count (entryOf creation) = released.count creation := by
  rw [hsettled.unlinked, List.count_map_of_injective _ _ entryOf_injective]

theorem Settled.count_of_held (hsettled : Settled released ledger) {creation : Creation}
    (hheld : ledger.creationAt loc = some creation) :
    ledger.unlinked.count (entryOf creation) = 0 := by
  rw [hsettled.count]
  exact List.count_eq_zero_of_not_mem (hsettled.sound.live loc creation hheld).2

theorem Settled.unlinkedOnce (hsettled : Settled released ledger) : UnlinkedOnce ledger where
  byCreator entry hentry := by
    rw [hsettled.unlinked] at hentry
    obtain ⟨creation, _, rfl⟩ := List.mem_map.mp hentry
    exact ⟨creation, rfl⟩
  held loc creation hheld := hsettled.count_of_held hheld
  gone creation hcreation hnowhere := by
    rw [hsettled.count]
    apply List.count_eq_one_of_mem hsettled.sound.nodup
    refine (hsettled.sound.covered creation hcreation).resolve_right ?_
    rintro ⟨loc, hheld⟩
    exact hnowhere loc hheld

/-! ### New objects -/

theorem carries_update {objects : IoObjects} {creationAt : Nat → Option Creation}
    (hcarried : ∀ loc, Carries (creationAt loc) (objects loc)) {creation : Option Creation}
    {object : Option IoObject} (hnew : Carries creation object) (loc other : Nat) :
    Carries (Function.update creationAt loc creation other)
      (Function.update objects loc object other) := by
  by_cases heq : other = loc
  · rw [heq, Function.update_self, Function.update_self]
    exact hnew
  · rw [Function.update_of_ne heq, Function.update_of_ne heq]
    exact hcarried other

theorem carries_sharedMemory (creation : Option Creation) (fd : PollId) :
    Carries creation (some (.sharedMemory fd (creation.map Creation.path))) :=
  ⟨fd, rfl⟩

theorem Settled.create (hsettled : Settled released ledger)
    (hcreate : ledger.create loc path fd = some next) : Settled released next := by
  unfold SegmentLedger.create at hcreate
  split at hcreate
  next => cases hcreate
  next =>
    obtain ⟨io, hconstruct, rfl⟩ := Option.map_eq_some_iff.mp hcreate
    obtain ⟨hnone, rfl⟩ := IoWorld.construct_eq_some hconstruct
    have hvacant := hsettled.carried loc
    rw [hnone] at hvacant
    have hfresh : (⟨ledger.creations.length, path⟩ : Creation) ∉ ledger.creations :=
      fun hmem => Nat.lt_irrefl _ (hsettled.numbered _ hmem)
    have hnew := carries_sharedMemory (some ⟨ledger.creations.length, path⟩) fd
    refine ⟨carries_update hsettled.carried hnew loc, ?_, hsettled.unlinked,
      hsettled.sound.adopt hvacant hfresh⟩
    intro creation hcreation
    rw [List.length_append, List.length_singleton]
    rcases List.mem_append.mp hcreation with hold | hnew
    · exact Nat.lt_succ_of_lt (hsettled.numbered creation hold)
    · rw [List.mem_singleton.mp hnew]
      exact Nat.lt_succ_self _

theorem Settled.openSegment (hsettled : Settled released ledger)
    (hopen : ledger.openSegment loc fd = some next) : Settled released next := by
  unfold SegmentLedger.openSegment at hopen
  split at hopen
  next => cases hopen
  next =>
    obtain ⟨io, hconstruct, rfl⟩ := Option.map_eq_some_iff.mp hopen
    obtain ⟨hnone, rfl⟩ := IoWorld.construct_eq_some hconstruct
    have hvacant : ledger.creationAt loc = none := by
      have hcarried := hsettled.carried loc
      rwa [hnone] at hcarried
    have hupdate : Function.update ledger.creationAt loc none = ledger.creationAt := by
      rw [← hvacant, Function.update_eq_self]
    refine ⟨?_, hsettled.numbered, hsettled.unlinked, hsettled.sound⟩
    intro other
    have hcarried := carries_update hsettled.carried (carries_sharedMemory none fd) loc other
    rw [hupdate] at hcarried
    exact hcarried

/-! ### Moves and swaps -/

theorem Settled.moveConstruct (hsettled : Settled released ledger)
    (hmove : ledger.moveConstruct loc other = some next) : Settled released next := by
  obtain ⟨io, hio, rfl⟩ := Option.map_eq_some_iff.mp hmove
  unfold IoWorld.moveSharedMemory at hio
  split at hio
  next fd linkedPath hother =>
    obtain ⟨hnone, rfl⟩ := IoWorld.construct_eq_some hio
    have hfrom := hsettled.carried other
    rw [hother] at hfrom
    have hleft := carries_update hsettled.carried (carries_sharedMemory none InvalidFd) other
    refine ⟨carries_update hleft hfrom loc, hsettled.numbered, hsettled.unlinked, ?_⟩
    have hempty : ledger.creationAt loc = none := by
      have hne : loc ≠ other := by
        rintro rfl
        simp at hnone
      have hvacant := hsettled.carried loc
      rw [(ObjectStore.put_of_ne hne).symm.trans hnone] at hvacant
      exact hvacant
    exact hsettled.sound.move hempty
  next => cases hio

theorem Settled.swap (hsettled : Settled released ledger)
    (hswap : ledger.swap lhs rhs = some next) : Settled released next := by
  obtain ⟨io, hio, rfl⟩ := Option.map_eq_some_iff.mp hswap
  unfold IoWorld.swapSharedMemory at hio
  split at hio
  next fd linkedPath fd' linkedPath' hlhs hrhs =>
    obtain rfl := Option.some.inj hio
    refine ⟨?_, hsettled.numbered, hsettled.unlinked, hsettled.sound.exchange lhs rhs⟩
    have hobjects : (ledger.io.objects.put lhs (.sharedMemory fd' linkedPath')).put rhs
        (.sharedMemory fd linkedPath) = ledger.io.objects ∘ Equiv.swap lhs rhs := by
      rw [Equiv.swap_comm, Equiv.comp_swap_eq_update, hlhs, hrhs]
      rfl
    intro loc
    simp only [hobjects]
    exact hsettled.carried _
  next => cases hio

/-! ### Closing and destroying -/

theorem Settled.close (hsettled : Settled released ledger)
    (hclose : ledger.close loc = some next) : Settled released next := by
  obtain ⟨io, hio, rfl⟩ := Option.map_eq_some_iff.mp hclose
  unfold IoWorld.closeSharedMemory at hio
  split at hio
  next fd linkedPath hobject =>
    obtain rfl := Option.some.inj hio
    refine ⟨?_, hsettled.numbered, hsettled.unlinked, hsettled.sound⟩
    have hold := hsettled.carried loc
    rw [hobject] at hold
    obtain ⟨_, heq⟩ := hold
    obtain rfl := (IoObject.sharedMemory.inj heq).2
    intro other
    have hclosed := carries_sharedMemory (ledger.creationAt loc) (SharedMemory.close fd none).fd
    have hcarried := carries_update hsettled.carried hclosed loc other
    rwa [Function.update_eq_self] at hcarried
  next => cases hio

/-- The destructor, for an object whose creation is recorded at its location. -/
theorem Settled.destroy_eq (hsettled : Settled released ledger)
    (hdestroy : ledger.destroy loc = some next) :
    ∃ fd, ledger.io.objects loc =
        some (.sharedMemory fd ((ledger.creationAt loc).map Creation.path)) ∧
      next.io.objects = ledger.io.objects.remove loc ∧
      next.creationAt = Function.update ledger.creationAt loc none ∧
      next.creations = ledger.creations ∧
      next.unlinked = ledger.unlinked ++
        (if fd = InvalidFd then [] else (ledger.creationAt loc).toList.map entryOf) := by
  obtain ⟨io, hio, rfl⟩ := Option.map_eq_some_iff.mp hdestroy
  have hcarried := hsettled.carried loc
  cases hobject : ledger.io.objects loc with
  | none => simp [IoWorld.destroy, hobject] at hio
  | some object =>
      rw [hobject] at hcarried
      obtain ⟨fd, rfl⟩ := hcarried
      refine ⟨fd, rfl, ?_⟩
      simp only [IoWorld.destroy, hobject] at hio
      split at hio
      next hclosed =>
        obtain rfl := Option.some.inj hio
        refine ⟨rfl, rfl, rfl, ?_⟩
        simp [IoWorld.remove, hclosed]
      next hopen =>
        obtain rfl := Option.some.inj hio
        refine ⟨rfl, rfl, rfl, ?_⟩
        rw [if_neg hopen, List.drop_left]
        cases ledger.creationAt loc <;> rfl

theorem Settled.destroy (hsettled : Settled released ledger)
    (hdestroy : ledger.destroy loc = some next)
    (hguard : NamesNoneClosed ledger (.destroy loc)) :
    Settled (released ++ (ledger.creationAt loc).toList) next := by
  obtain ⟨fd, hobject, hobjects, hcreationAt, hcreations, hunlinked⟩ := hsettled.destroy_eq hdestroy
  constructor
  · intro other
    have hnone : Carries none none := rfl
    rw [hcreationAt, hobjects]
    exact carries_update hsettled.carried hnone loc other
  · rw [hcreations]
    exact hsettled.numbered
  · rw [hunlinked, hsettled.unlinked, List.map_append]
    cases hcreation : ledger.creationAt loc with
    | none => simp
    | some creation =>
        rw [hcreation] at hobject
        rw [if_neg (hguard fd creation.path hobject)]
  · rw [ownership, hcreationAt, hcreations]
    exact hsettled.sound.release loc

/-- The name of a creation whose segment was closed is lost. -/
theorem Settled.names_of_unlinkedOnce (hsettled : Settled released ledger)
    (hdestroy : ledger.destroy loc = some next) (hnext : UnlinkedOnce next) :
    NamesNoneClosed ledger (.destroy loc) := by
  rintro fd path hobject rfl
  obtain ⟨fd, hobject', _, hcreationAt, hcreations, hunlinked⟩ := hsettled.destroy_eq hdestroy
  obtain ⟨rfl, hpath⟩ := IoObject.sharedMemory.inj (Option.some.inj (hobject.symm.trans hobject'))
  obtain ⟨creation, hheld, _⟩ := Option.map_eq_some_iff.mp hpath.symm
  have hlost : next.unlinked.count (entryOf creation) = 0 := by
    rw [hunlinked, if_pos rfl, List.append_nil]
    exact hsettled.count_of_held hheld
  have hnowhere (other : Nat) : next.creationAt other ≠ some creation := by
    rw [hcreationAt]
    by_cases heq : other = loc
    · rw [heq, Function.update_self]
      exact (Option.some_ne_none creation).symm
    · rw [Function.update_of_ne heq]
      intro hother
      exact heq (hsettled.sound.unique other loc creation hother hheld)
  have hcreation : creation ∈ next.creations := by
    rw [hcreations]
    exact (hsettled.sound.live loc creation hheld).1
  have hone := hnext.gone creation hcreation hnowhere
  omega

theorem Settled.step {action : Action} (hsettled : Settled released ledger)
    (hstep : step ledger action = some next) (hguard : NamesNoneClosed ledger action) :
    ∃ released, Settled released next := by
  cases action with
  | create loc path fd => exact ⟨released, hsettled.create hstep⟩
  | openSegment loc fd => exact ⟨released, hsettled.openSegment hstep⟩
  | moveConstruct loc other => exact ⟨released, hsettled.moveConstruct hstep⟩
  | moveAssign lhs rhs => exact ⟨released, hsettled.swap hstep⟩
  | swap lhs rhs => exact ⟨released, hsettled.swap hstep⟩
  | close loc => exact ⟨released, hsettled.close hstep⟩
  | destroy loc => exact ⟨_, hsettled.destroy hstep hguard⟩

theorem settled_empty : Settled [] empty where
  carried _ := rfl
  numbered _ hcreation := absurd hcreation List.not_mem_nil
  unlinked := rfl
  sound := by constructor <;> simp [ownership, empty]

/-- **Names of segments.** All along a run each name is unlinked exactly once and for the creation that
made it, as soon as its segment is no longer held, exactly when no object that still has a path is
destroyed after it was closed. -/
theorem unlinkedOnce_iff_namesNoneClosed (actions : List Action) :
    Always step UnlinkedOnce empty actions ↔ Guarded step NamesNoneClosed empty actions := by
  apply always_iff_guarded fun ledger => ∃ released, Settled released ledger
  · exact ⟨[], settled_empty⟩
  · exact fun _ ⟨_, hsettled⟩ => hsettled.unlinkedOnce
  · exact fun _ _ _ ⟨_, hsettled⟩ hstep hguard => hsettled.step hstep hguard
  · intro ledger action next hinv hstep hnext
    obtain ⟨released, hsettled⟩ := hinv
    cases action with
    | destroy loc => exact hsettled.names_of_unlinkedOnce hstep hnext
    | _ => trivial

/-- A segment is created, closed and destroyed. -/
theorem not_unlinkedOnce_after_close :
    ¬ Always step UnlinkedOnce empty [.create 0 "/segment" 3, .close 0, .destroy 0] := by
  intro halways
  have hlast := halways.of_run rfl
  have hone := hlast.gone ⟨0, "/segment"⟩ List.mem_cons_self fun loc => by
    by_cases hloc : loc = 0 <;> simp [Function.update, hloc, empty]
  exact absurd hone (by decide)

end Cadence.SegmentNames
