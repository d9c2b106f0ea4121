import Mathlib.Data.List.Basic

/-!
# Properties of numbered items

What is said of an item of a list together with its place. When one item changes, what is said of the
others changes only with what they have to do with it.
-/

namespace Indexed

variable {α : Type*} {P Q : Nat → α → Prop} {l : List α} {i : Nat} {x : α}

def Each (P : Nat → α → Prop) (l : List α) : Prop := ∀ i x, l[i]? = some x → P i x

theorem Each.nil : Each P [] := fun _ _ hnone => (nomatch hnone)

theorem Each.concat (heach : Each P l) (hnew : P l.length x) : Each P (l ++ [x]) := by
  intro j y hy
  rcases Nat.lt_trichotomy j l.length with hlt | rfl | hgt
  · exact heach j y ((List.getElem?_append_left hlt).symm.trans hy)
  · rw [List.getElem?_concat_length] at hy
    rw [← Option.some.inj hy]
    exact hnew
  · rw [List.getElem?_eq_none (by simp; omega)] at hy
    cases hy

theorem Each.set (heach : Each P l) (hx : Q i x) (hothers : ∀ j y, i ≠ j → P j y → Q j y) :
    Each Q (l.set i x) := by
  intro j y hy
  by_cases hij : i = j
  · subst hij
    obtain ⟨hi, hget⟩ := List.getElem?_eq_some_iff.mp hy
    rw [List.getElem_set_self] at hget
    rw [← hget]
    exact hx
  · rw [List.getElem?_set_ne hij] at hy
    exact hothers j y hij (heach j y hy)

theorem Each.modify {f : α → α} (heach : Each P l)
    (hchanged : ∀ y, l[i]? = some y → P i y → Q i (f y))
    (hothers : ∀ j y, i ≠ j → P j y → Q j y) : Each Q (l.modify i f) := by
  intro j y hy
  rw [List.getElem?_modify] at hy
  obtain ⟨z, hz, rfl⟩ := Option.map_eq_some_iff.mp hy
  by_cases hij : i = j
  · subst hij
    rw [if_pos rfl]
    exact hchanged z hz (heach i z hz)
  · rw [if_neg hij]
    exact hothers j z hij (heach j z hz)

end Indexed
