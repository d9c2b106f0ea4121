import Cadence.Proof.IterationExact
import Cadence.Proof.SelectorEquivalence

/-!
# Events of the poll back-end

Which entries a loop over the result of a poll visits is decided by whether their `revents` are zero,
and what it is told of them by a translation of single bits. The translation leaves out two of the
conditions that `poll(2)` reports unasked.
-/

namespace Cadence.PollReasons

open Selector PollRegistrations SelectorEquivalence

variable {Data : Type}

/-- `poll(2)` reports conditions that were asked for, and those it always reports. -/
def MayReport (events : BitVec 32) (revents : BitVec 16) : Prop :=
  revents &&& (interestOf events ||| POLLERR ||| POLLHUP ||| POLLNVAL) = revents

instance (events : BitVec 32) (revents : BitVec 16) : Decidable (MayReport events revents) :=
  inferInstanceAs (Decidable (_ = _))

def addAll (registered : List (Added Data)) : List (PollRegistrations.Call Data) :=
  registered.map fun added => .add added.fd added.events added.data

structure Reasoned (revents : BitVec 16) (flags : BitVec 32) : Prop where
  flagged : flags ≠ 0
  hup : hasFlag revents POLLHUP = true ∨ hasFlag revents POLLRDHUP = true →
    hasFlag flags Selector.Hup = true
  error : hasFlag revents POLLERR = true ∨ hasFlag revents POLLNVAL = true →
    hasFlag flags Selector.Error = true

/-- Every event that a loop over the result of the poll yields says why. -/
def EveryEventReasoned (registered : List (Added Data)) (revents : Nat → BitVec 16)
    (pimpl : Nat) : Prop :=
  ∀ range answered, (applyAll (addAll registered)).poll (.ready revents) = (.ok range, answered) →
    ∀ steps indices, (Selector.poll pimpl range).traverse answered.advance
        (Selector.poll pimpl range).end' steps = some indices →
      ∀ i ∈ indices, ∀ event, answered.getEvent i = some event → Reasoned (revents i) event.events

/-- A hang-up comes with the hang-up of the peer, and an invalid descriptor with an error. -/
structure Translated (revents : BitVec 16) : Prop where
  hup : hasFlag revents POLLHUP = true → hasFlag revents POLLRDHUP = true
  error : hasFlag revents POLLNVAL = true → hasFlag revents POLLERR = true

/-! ### One entry -/

theorem eventFlags_eq (revents : BitVec 16) :
    PollSelectorImpl.eventFlags revents =
      flags (hasFlag revents POLLIN || hasFlag revents POLLPRI) (hasFlag revents POLLOUT)
        (hasFlag revents POLLERR) (hasFlag revents POLLRDHUP) :=
  rfl

theorem hasFlag_hup (read write error hup : Bool) :
    hasFlag (flags read write error hup) Selector.Hup = hup := by
  revert read write error hup
  decide +kernel

theorem hasFlag_error (read write error hup : Bool) :
    hasFlag (flags read write error hup) Selector.Error = error := by
  revert read write error hup
  decide +kernel

theorem flags_eq_zero_iff {read write error hup : Bool} :
    flags read write error hup = 0 ↔
      read = false ∧ write = false ∧ error = false ∧ hup = false :=
  @flags_inj read write error hup false false false false

theorem hasFlag_eq_false_iff {width : Nat} {word flag : BitVec width} :
    hasFlag word flag = false ↔ word &&& flag = 0 := by
  simp [hasFlag]

/-- Reading, writing and the hang-up of the peer are all that `add` asks for. -/
theorem interestOf_subset (events : BitVec 32) :
    interestOf events &&& (POLLIN ||| POLLPRI ||| POLLOUT ||| POLLRDHUP) = interestOf events := by
  unfold interestOf PollSelectorImpl.nativeEvents
  generalize hasFlag events Selector.Read = read
  generalize hasFlag events Selector.Write = write
  generalize hasFlag events Selector.Hup = hup
  revert read write hup
  decide +kernel

theorem eq_zero_of_flagless {events : BitVec 32} {revents : BitVec 16}
    (hmay : MayReport events revents) (htranslated : Translated revents)
    (hflags : PollSelectorImpl.eventFlags revents = 0) : revents = 0 := by
  rw [eventFlags_eq, flags_eq_zero_iff, Bool.or_eq_false_iff] at hflags
  obtain ⟨⟨hin, hpri⟩, hout, herr, hrdhup⟩ := hflags
  have hhup : hasFlag revents POLLHUP = false := by
    by_contra hne
    exact absurd (htranslated.hup (by simpa using hne)) (by simp [hrdhup])
  have hnval : hasFlag revents POLLNVAL = false := by
    by_contra hne
    exact absurd (htranslated.error (by simpa using hne)) (by simp [herr])
  rw [hasFlag_eq_false_iff] at hin hpri hout herr hrdhup hhup hnval
  have hinterest : revents &&& interestOf events = 0 := by
    rw [← interestOf_subset, BitVec.and_comm (interestOf events), ← BitVec.and_assoc]
    simp only [BitVec.and_or_distrib_left, hin, hpri, hout, hrdhup]
    simp
  rw [← hmay]
  simp only [BitVec.and_or_distrib_left, hinterest, herr, hhup, hnval]
  rfl

theorem reasoned_iff {events : BitVec 32} {revents : BitVec 16} (hmay : MayReport events revents)
    (hready : revents ≠ 0) :
    Reasoned revents (PollSelectorImpl.eventFlags revents) ↔ Translated revents := by
  have hhup := hasFlag_hup (hasFlag revents POLLIN || hasFlag revents POLLPRI)
    (hasFlag revents POLLOUT) (hasFlag revents POLLERR) (hasFlag revents POLLRDHUP)
  have herror := hasFlag_error (hasFlag revents POLLIN || hasFlag revents POLLPRI)
    (hasFlag revents POLLOUT) (hasFlag revents POLLERR) (hasFlag revents POLLRDHUP)
  rw [← eventFlags_eq] at hhup herror
  constructor
  · intro hreasoned
    exact ⟨fun hset => hhup ▸ hreasoned.hup (Or.inl hset),
      fun hset => herror ▸ hreasoned.error (Or.inr hset)⟩
  · intro htranslated
    refine ⟨fun hflags => hready (eq_zero_of_flagless hmay htranslated hflags), ?_, ?_⟩
    · exact fun hset => hhup.symm ▸ hset.elim htranslated.hup id
    · exact fun hset => herror.symm ▸ hset.elim id htranslated.error

/-! ### The loop -/

theorem registrations_addAll (registered : List (Added Data)) :
    registrations (addAll registered) = registered.map Added.registration := by
  induction registered using List.reverseRecOn with
  | nil => rfl
  | append_singleton registered added ih =>
      have hcalls : addAll (registered ++ [added]) =
          addAll registered ++ [.add added.fd added.events added.data] := by
        rw [addAll, List.map_append]
        rfl
      rw [hcalls, registrations_concat, ih, List.map_append]
      rfl

/-- **Reasons.** When `poll(2)` reports what it may for the registrations, every event yielded carries a
flag, the hang-up flag for each kind of hang-up and the error flag for each kind of error, exactly when
no entry has `POLLHUP` without `POLLRDHUP` or `POLLNVAL` without `POLLERR`. -/
theorem everyEventReasoned_iff_translated (registered : List (Added Data))
    (revents : Nat → BitVec 16) (pimpl : Nat)
    (hmay : ∀ i added, registered[i]? = some added → MayReport added.events (revents i)) :
    EveryEventReasoned registered revents pimpl ↔
      ∀ i < registered.length, Translated (revents i) := by
  obtain ⟨hexact, hevent⟩ := IterationExact.poll_exact (addAll registered) revents pimpl
  obtain ⟨steps, indices, htraverse, _, hmem⟩ := hexact.visits
  rw [registrations_addAll] at hevent
  simp only [registrations_addAll, List.length_map] at hmem
  have hreasoned (i : Nat) (hi : i < registered.length) (hready : revents i ≠ 0) :
      ∃ event, ((applyAll (addAll registered)).writeRevents revents).getEvent i = some event ∧
        (Reasoned (revents i) event.events ↔ Translated (revents i)) := by
    have hadded : registered[i]? = some registered[i] := List.getElem?_eq_getElem hi
    exact ⟨_, hevent i registered[i].registration (by rw [List.getElem?_map, hadded]; rfl),
      reasoned_iff (hmay i _ hadded) hready⟩
  constructor
  · intro hall i hi
    by_cases hready : revents i = 0
    · rw [hready]
      exact ⟨fun hset => absurd hset (by decide), fun hset => absurd hset (by decide)⟩
    · obtain ⟨event, hgives, hiff⟩ := hreasoned i hi hready
      exact hiff.mp (hall _ _ rfl steps indices htraverse i ((hmem i).mpr ⟨hi, hready⟩) event hgives)
  · intro htranslated range answered hpoll steps' indices' htraverse' i hvisited event hgives
    obtain ⟨hrange, rfl⟩ := Prod.mk.inj hpoll
    obtain rfl := Except.ok.inj hrange
    obtain rfl := Iterator.traverse_unique htraverse htraverse'
    obtain ⟨hi, hready⟩ := (hmem i).mp hvisited
    obtain ⟨event', hgives', hiff⟩ := hreasoned i hi hready
    obtain rfl : event = event' := Option.some.inj (hgives.symm.trans hgives')
    exact hiff.mpr (htranslated i hi)

/-- A socket whose peer has closed, with the hang-up of the peer asked for. -/
theorem everyEventReasoned_of_closed_socket :
    EveryEventReasoned [⟨7, Selector.Read ||| Selector.Hup, ()⟩]
      (fun _ => POLLIN ||| POLLRDHUP ||| POLLHUP) 0 := by
  refine (everyEventReasoned_iff_translated _ _ 0 fun i added hadded => ?_).mpr fun i hi => ?_
  · cases i with
    | zero =>
        cases hadded
        exact (by decide : MayReport (Selector.Read ||| Selector.Hup)
          (POLLIN ||| POLLRDHUP ||| POLLHUP))
    | succ i => cases hadded
  · exact ⟨fun _ => by decide, fun hset => by revert hset; decide⟩

/-- A pipe whose writer has closed. -/
theorem not_everyEventReasoned_of_closed_pipe :
    ¬ EveryEventReasoned [⟨7, Selector.Read, ()⟩] (fun _ => POLLHUP) 0 := by
  intro hall
  have hreasoned := hall _ _ rfl 1 [0] rfl 0 (List.mem_singleton.mpr rfl) _ rfl
  exact hreasoned.flagged (by decide)

end Cadence.PollReasons
