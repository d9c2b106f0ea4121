import Cadence.Foundation.StepSystem
import Cadence.Io.Lifetime
import Mathlib.Data.List.Perm.Subperm

/-!
# Closing a descriptor once

A close that succeeds leaves its object without descriptors, so nothing is left for the next close and
for the destructor. A close that fails releases the descriptor too but forgets nothing.
-/

namespace Cadence.ClosedOnce

open Lifetime StepSystem

structure ReleasedOnce (life : Lifetime) : Prop where
  once : life.released.Nodup
  forgotten : life.raised = true → ∀ object ∈ life.object, object.isOpened = false

/-- Each native close made by a `close` of the object succeeds. -/
def Succeeds (ec ec' : Option Errno) : IoObject → Prop
  | .file fd | .serial fd | .sharedMemory fd _ => fd ≠ InvalidFd → ec = none
  | .bufferedFile _ _ => True
  | .duplex in' out => (in' ≠ InvalidFd → ec = none) ∧ (out ≠ InvalidFd → ec' = none)

def ClosesCleanly (life : Lifetime) : Action → Prop
  | .close ec ec' => ∀ object ∈ life.object, Succeeds ec ec' object
  | .destroy _ _ => True

/-- The descriptors that are still to be closed. -/
def held : IoObject → List PollId
  | .file fd | .serial fd | .sharedMemory fd _ => (validFd fd).toList
  | .bufferedFile _ fp => fp.toList
  | .duplex in' out => (validFd in').toList ++ (validFd out).toList

variable {object : IoObject} {ec ec' : Option Errno}

/-- A close that succeeds releases all that is held, and leaves a closed object. -/
theorem close_of_succeeds (hsucceeds : Succeeds ec ec' object) :
    (object.close ec ec').released = held object ∧ held (object.close ec ec').object = [] ∧
      (object.close ec ec').object.isOpened = false := by
  cases object with
  | file fd =>
      simp only [IoObject.close, File.close_of_succeeds hsucceeds]
      exact ⟨rfl, rfl, rfl⟩
  | serial fd =>
      simp only [IoObject.close, File.close_of_succeeds hsucceeds]
      exact ⟨rfl, rfl, rfl⟩
  | sharedMemory fd linkedPath =>
      obtain ⟨hfd, hreleased⟩ := SharedMemory.close_of_succeeds hsucceeds
      simp only [IoObject.close, Closed.of, hfd, hreleased]
      exact ⟨rfl, rfl, rfl⟩
  | bufferedFile fd fp => exact ⟨rfl, rfl, rfl⟩
  | duplex in' out =>
      simp only [IoObject.close, File.close_of_succeeds hsucceeds.1,
        File.close_of_succeeds hsucceeds.2]
      exact ⟨rfl, rfl, rfl⟩

/-- A close that fails raises and leaves its descriptor in the object. -/
theorem close_of_not_succeeds (hfails : ¬ Succeeds ec ec' object) :
    (∃ e, (object.close ec ec').result = .error e) ∧
      (object.close ec ec').object.isOpened = true := by
  cases object with
  | file fd =>
      obtain ⟨hopen, e, hclose⟩ := File.close_of_not_succeeds hfails
      simp only [IoObject.close, hclose]
      exact ⟨⟨e, rfl⟩, bne_iff_ne.mpr hopen⟩
  | serial fd =>
      obtain ⟨hopen, e, hclose⟩ := File.close_of_not_succeeds hfails
      simp only [IoObject.close, hclose]
      exact ⟨⟨e, rfl⟩, bne_iff_ne.mpr hopen⟩
  | sharedMemory fd linkedPath =>
      obtain ⟨hopen, e, hclose⟩ := File.close_of_not_succeeds hfails
      simp only [IoObject.close, SharedMemory.close_of_opened hopen, hclose]
      exact ⟨⟨e, rfl⟩, bne_iff_ne.mpr hopen⟩
  | bufferedFile fd fp => exact absurd trivial hfails
  | duplex in' out =>
      by_cases hin : in' ≠ InvalidFd → ec = none
      · obtain ⟨hopen, e, hclose⟩ := File.close_of_not_succeeds fun hout => hfails ⟨hin, hout⟩
        simp only [IoObject.close, File.close_of_succeeds hin, hclose]
        exact ⟨⟨e, rfl⟩, by simp [IoObject.isOpened, hopen]⟩
      · obtain ⟨hopen, e, hclose⟩ := File.close_of_not_succeeds hin
        simp only [IoObject.close, hclose]
        exact ⟨⟨e, rfl⟩, by simp [IoObject.isOpened, hopen]⟩

theorem destroy_subperm_held (object : IoObject) (ec ec' : Option Errno) :
    (object.destroy ec ec').Subperm (held object) := by
  cases object with
  | file fd =>
      rw [IoObject.destroy, File.released_close, held]
  | serial fd =>
      rw [IoObject.destroy, File.released_close, held]
  | sharedMemory fd linkedPath =>
      have hreleased : (if fd ≠ InvalidFd then [fd] else []) = (validFd fd).toList := by
        unfold validFd
        split <;> simp_all
      rw [IoObject.destroy, hreleased, held]
  | bufferedFile fd fp => exact .refl _
  | duplex in' out =>
      rw [IoObject.destroy, held]
      split
      next =>
        rw [File.released_close]
        exact (List.sublist_append_right _ _).subperm
      next =>
        rw [File.released_close, File.released_close]
        exact List.perm_append_comm.subperm

/-! ### The run -/

/-- What is released and what is held are the descriptors adopted, each of them once. -/
structure Invariant (life : Lifetime) : Prop where
  nodup : (life.released ++ (life.object.map held).getD []).Nodup
  forgotten : life.raised = true → ∀ object ∈ life.object, object.isOpened = false

theorem Invariant.releasedOnce {life : Lifetime} (hinv : Invariant life) : ReleasedOnce life :=
  ⟨(List.nodup_append.mp hinv.nodup).1, hinv.forgotten⟩

theorem Invariant.adopt (adoption : Adoption) : Invariant (adopt adoption) where
  nodup := by
    cases adoption with
    | duplex inFid outFid distinct =>
        simp only [Lifetime.adopt, Adoption.object, Option.map_some, Option.getD_some, held, validFd]
        split <;> split <;> simp [distinct]
    | bufferedFile fd => simp [Lifetime.adopt, Adoption.object, held]
    | file fd | serial fd | sharedMemory fd linkedPath =>
        simp only [Lifetime.adopt, Adoption.object, Option.map_some, Option.getD_some, held, validFd]
        split <;> simp
  forgotten hraised := by simp [Lifetime.adopt] at hraised

theorem Invariant.step {life next : Lifetime} {action : Action} (hinv : Invariant life)
    (hstep : step life action = some next) (hguard : ClosesCleanly life action) :
    Invariant next := by
  have hnodup := hinv.nodup
  cases action with
  | close ec ec' =>
      obtain ⟨object, hobject, rfl⟩ := Option.map_eq_some_iff.mp hstep
      obtain ⟨hreleased, hheld, hclosed⟩ := close_of_succeeds (hguard object hobject)
      rw [hobject, Option.map_some, Option.getD_some] at hnodup
      constructor
      · simp only [Lifetime.close, hreleased, Option.map_some, hheld, Option.getD_some,
          List.append_nil]
        exact hnodup
      · intro _ object' hobject'
        obtain rfl := Option.some.inj hobject'
        exact hclosed
  | destroy ec ec' =>
      obtain ⟨object, hobject, rfl⟩ := Option.map_eq_some_iff.mp hstep
      rw [hobject, Option.map_some, Option.getD_some] at hnodup
      constructor
      · obtain ⟨permuted, hperm, hsublist⟩ :=
          (List.subperm_append_left life.released).mpr
            (destroy_subperm_held object ec ec')
        simp only [Lifetime.destroy, Option.map_none, Option.getD_none, List.append_nil]
        exact hperm.nodup (hnodup.sublist hsublist)
      · intro hraised
        cases hraised

theorem closesCleanly_of_releasedOnce {life next : Lifetime} {action : Action}
    (hstep : step life action = some next) (hnext : ReleasedOnce next) :
    ClosesCleanly life action := by
  cases action with
  | destroy ec ec' => trivial
  | close ec ec' =>
      obtain ⟨object, hobject, rfl⟩ := Option.map_eq_some_iff.mp hstep
      intro object' hobject'
      obtain rfl := Option.some.inj (hobject.symm.trans hobject')
      by_contra hfails
      obtain ⟨⟨e, hresult⟩, hopened⟩ := close_of_not_succeeds hfails
      have hclosed := hnext.forgotten (by simp [Lifetime.close, hresult]) _ rfl
      exact absurd (hopened.symm.trans hclosed) (by simp)

/-- **Closing once.** From its adoption on, no descriptor is closed twice and no object is open after
a `close` that raised, exactly when no native close made by `close` fails. -/
theorem releasedOnce_iff_closesCleanly (adoption : Adoption) (actions : List Action) :
    Always step ReleasedOnce (adopt adoption) actions ↔
      Guarded step ClosesCleanly (adopt adoption) actions := by
  apply always_iff_guarded Invariant
  · exact Invariant.adopt adoption
  · exact fun _ hinv => hinv.releasedOnce
  · exact fun _ _ _ hinv hstep hguard => hinv.step hstep hguard
  · exact fun _ _ _ _ hstep hnext => closesCleanly_of_releasedOnce hstep hnext

/-- The first close is interrupted, and the destructor closes the descriptor again. -/
theorem not_releasedOnce_after_interruption :
    ¬ Always step ReleasedOnce (adopt (.file 3)) [.close (some EINTR) none, .destroy none none] := by
  intro halways
  have hlast : ReleasedOnce ⟨none, [3, 3], false⟩ := halways.of_run rfl
  exact absurd hlast.once (by decide)

end Cadence.ClosedOnce
