import Mathlib.Data.List.Basic

/-!
# Calls in sequence

An attempt is a call that may fail, with the effects it has made by then. The second of two attempts
is made only when the first does not fail.
-/

/-- An attempt, with its effects in order. -/
structure Attempt (ε κ : Type*) where
  result : Except ε Unit
  effects : List κ

namespace Attempt

variable {ε κ : Type*} {first second : Attempt ε κ}

def Fails (attempt : Attempt ε κ) : Prop := ∃ e, attempt.result = .error e

def andThen (first second : Attempt ε κ) : Attempt ε κ :=
  match first.result with
  | .error e => ⟨.error e, first.effects⟩
  | .ok () => ⟨second.result, first.effects ++ second.effects⟩

theorem andThen_of_ok (hok : first.result = .ok ()) :
    first.andThen second = ⟨second.result, first.effects ++ second.effects⟩ := by
  simp only [andThen, hok]

theorem andThen_of_error {e : ε} (herror : first.result = .error e) :
    first.andThen second = ⟨.error e, first.effects⟩ := by
  simp only [andThen, herror]

theorem not_fails_iff {attempt : Attempt ε κ} : ¬ attempt.Fails ↔ attempt.result = .ok () := by
  unfold Fails
  cases attempt.result with
  | error e => exact ⟨fun hnot => absurd ⟨e, rfl⟩ hnot, fun hok => by cases hok⟩
  | ok value => exact ⟨fun _ => rfl, fun _ ⟨e, herror⟩ => by cases herror⟩

/-- The sequence fails for the failure of either attempt. -/
theorem fails_andThen_iff : (first.andThen second).Fails ↔ first.Fails ∨ second.Fails := by
  by_cases hfails : first.Fails
  · obtain ⟨e, herror⟩ := hfails
    rw [andThen_of_error herror]
    exact ⟨fun _ => Or.inl ⟨e, herror⟩, fun _ => ⟨e, rfl⟩⟩
  · rw [andThen_of_ok (not_fails_iff.mp hfails)]
    exact ⟨Or.inr, fun h => h.resolve_left hfails⟩

/-- No effect is lost exactly when the first attempt does not fail or the second has none. -/
theorem effects_andThen_iff :
    (first.andThen second).effects = first.effects ++ second.effects ↔
      ¬ first.Fails ∨ second.effects = [] := by
  by_cases hfails : first.Fails
  · obtain ⟨e, herror⟩ := hfails
    rw [andThen_of_error herror]
    constructor
    · intro heffects
      exact Or.inr (List.self_eq_append_right.mp heffects)
    · rintro (hnot | hnone)
      · exact absurd ⟨e, herror⟩ hnot
      · rw [hnone, List.append_nil]
  · rw [andThen_of_ok (not_fails_iff.mp hfails)]
    exact ⟨fun _ => Or.inl hfails, fun _ => rfl⟩

end Attempt
