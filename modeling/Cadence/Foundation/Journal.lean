import Mathlib.Data.List.Basic

/-!
# What a journal leaves in a table

A table is changed in two ways only: an element is appended, or all elements of a kind are dropped.
What it holds in the end can be said without following the table: the elements appended and not
dropped by a later entry, in order.
-/

namespace Journal

inductive Entry (α : Type*) where
  | append (x : α)
  | drop (p : α → Bool)

variable {α : Type*}

def Entry.apply (table : List α) : Entry α → List α
  | .append x => table ++ [x]
  | .drop p => table.filter fun x => !p x

def Entry.drops (x : α) : Entry α → Bool
  | .append _ => false
  | .drop p => p x

def surviving : List (Entry α) → List α
  | [] => []
  | .append x :: later =>
      if later.any (Entry.drops x) then surviving later else x :: surviving later
  | .drop _ :: later => surviving later

theorem surviving_concat (journal : List (Entry α)) (entry : Entry α) :
    surviving (journal ++ [entry]) = entry.apply (surviving journal) := by
  induction journal with
  | nil => cases entry <;> simp [surviving, Entry.apply]
  | cons first journal ih =>
      cases first with
      | drop p => exact ih
      | append x =>
          rw [List.cons_append, surviving, surviving, ih, List.any_append]
          cases entry with
          | append y =>
              simp only [Entry.apply, Entry.drops, List.any_cons, List.any_nil, Bool.or_false]
              split <;> rfl
          | drop p =>
              simp only [Entry.apply, Entry.drops, List.any_cons, List.any_nil, Bool.or_false]
              by_cases hlater : journal.any (Entry.drops x) = true
              · simp [hlater]
              · cases hp : p x <;> simp [hlater, hp]

/-! ### Elements held -/

/-- The elements held after an entry, as a predicate. -/
def Entry.holds (held : α → Prop) : Entry α → α → Prop
  | .append x => fun y => held y ∨ y = x
  | .drop p => fun y => held y ∧ p y = false

end Journal
