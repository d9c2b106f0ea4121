import Mathlib.Data.List.Nodup
import Mathlib.Order.Nat

/-!
# A growing vector and the addresses of its elements

`std::vector` keeps its elements in one buffer. Appending past the capacity moves them to a new
buffer, and erasing shifts the elements behind the hole down inside the same one, so the address of
an element is a buffer generation and a slot. An address taken earlier still reaches its element
when neither has happened: the rules below say so for each operation, in both directions.
-/

/-- An element of a list without repetitions keeps its position through a filter that keeps it
exactly when the filter drops nothing in front of it. -/
theorem List.Nodup.getElem?_filter_eq_iff {α : Type*} {l : List α} (hnodup : l.Nodup)
    {keep : α → Bool} {i : Nat} {x : α} (hx : l[i]? = some x) (hkeep : keep x = true) :
    (l.filter keep)[i]? = some x ↔ ∀ y ∈ l.take i, keep y = true := by
  obtain ⟨hi, hget⟩ := List.getElem?_eq_some_iff.mp hx
  have hsplit : l = l.take i ++ x :: l.drop (i + 1) := by
    rw [← hget, List.getElem_cons_drop, List.take_append_drop]
  have hlength : (l.take i).length = i := by simp [hi.le]
  have hfilter : l.filter keep =
      (l.take i).filter keep ++ x :: (l.drop (i + 1)).filter keep := by
    conv_lhs => rw [hsplit]
    simp [List.filter_append, hkeep]
  constructor
  · intro hkept
    have hle : ((l.take i).filter keep).length ≤ i :=
      (List.length_filter_le _ _).trans hlength.le
    rcases hle.lt_or_eq with hlt | heq
    · -- `x` has moved down, so the element now at its position is a later, different one
      exfalso
      rw [hfilter, List.getElem?_append_right hle] at hkept
      obtain ⟨k, hk⟩ : ∃ k, i - ((l.take i).filter keep).length = k + 1 :=
        ⟨i - ((l.take i).filter keep).length - 1, by omega⟩
      rw [hk, List.getElem?_cons_succ] at hkept
      have hmem : x ∈ l.drop (i + 1) :=
        (List.mem_filter.mp (List.mem_of_getElem? hkept)).1
      rw [hsplit] at hnodup
      exact (List.nodup_cons.mp hnodup.of_append_right).1 hmem
    · exact List.length_filter_eq_length_iff.mp (heq.trans hlength.symm)
  · intro hall
    have hself : (l.take i).filter keep = l.take i := List.filter_eq_self.mpr hall
    rw [hfilter, hself, List.getElem?_append_right hlength.le, hlength]
    simp

structure GrowthPolicy where
  next : Nat → Nat
  lt_next : ∀ capacity, capacity < next capacity

def GrowthPolicy.doubling : GrowthPolicy where
  next capacity := max 1 (2 * capacity)
  lt_next capacity := by omega

structure StdVector (α : Type*) where
  generation : Nat
  capacity : Nat
  elems : List α
  fits : elems.length ≤ capacity

/-- The address of an element: the buffer it was in when the address was taken, and its slot. -/
structure SlotAddress where
  generation : Nat
  slot : Nat
  deriving DecidableEq

namespace StdVector

variable {α : Type*}

def empty : StdVector α where
  generation := 0
  capacity := 0
  elems := []
  fits := le_rfl

/-- `reserve(n)`: a larger buffer if `n` exceeds the capacity, else nothing. -/
def reserve (vector : StdVector α) (n : Nat) : StdVector α :=
  if h : vector.capacity < n then
    { generation := vector.generation + 1
      capacity := n
      elems := vector.elems
      fits := vector.fits.trans h.le }
  else
    vector

/-- `push_back`: in place while there is room, else into a new and larger buffer. -/
def pushBack (growth : GrowthPolicy) (vector : StdVector α) (x : α) : StdVector α :=
  if h : vector.elems.length < vector.capacity then
    { vector with
      elems := vector.elems ++ [x]
      fits := by simpa using Nat.succ_le_of_lt h }
  else
    { generation := vector.generation + 1
      capacity := growth.next vector.capacity
      elems := vector.elems ++ [x]
      fits := by
        have hfits := vector.fits
        have hgrow := growth.lt_next vector.capacity
        simp only [List.length_append, List.length_singleton]
        omega }

/-- `erase(remove_if(begin, end, p), end)`: the elements that stay are shifted down in place. -/
def eraseIf (vector : StdVector α) (p : α → Bool) : StdVector α :=
  { vector with
    elems := vector.elems.filter fun x => !p x
    fits := (List.length_filter_le _ _).trans vector.fits }

def backAddress (vector : StdVector α) : SlotAddress :=
  ⟨vector.generation, vector.elems.length - 1⟩

/-- What an address reaches: nothing when the buffer was given up, or the slot lies past the end. -/
def deref (vector : StdVector α) (address : SlotAddress) : Option α :=
  if address.generation = vector.generation then vector.elems[address.slot]? else none

@[simp]
theorem elems_reserve (vector : StdVector α) (n : Nat) :
    (vector.reserve n).elems = vector.elems := by
  unfold reserve
  split <;> rfl

@[simp]
theorem elems_pushBack (growth : GrowthPolicy) (vector : StdVector α) (x : α) :
    (vector.pushBack growth x).elems = vector.elems ++ [x] := by
  unfold pushBack
  split <;> rfl

@[simp]
theorem elems_eraseIf (vector : StdVector α) (p : α → Bool) :
    (vector.eraseIf p).elems = vector.elems.filter fun x => !p x := rfl

@[simp]
theorem generation_eraseIf (vector : StdVector α) (p : α → Bool) :
    (vector.eraseIf p).generation = vector.generation := rfl

theorem generation_pushBack_of_lt {growth : GrowthPolicy} {vector : StdVector α} {x : α}
    (hroom : vector.elems.length < vector.capacity) :
    (vector.pushBack growth x).generation = vector.generation := by
  unfold pushBack
  rw [dif_pos hroom]

theorem generation_pushBack_of_not_lt {growth : GrowthPolicy} {vector : StdVector α} {x : α}
    (hfull : ¬ vector.elems.length < vector.capacity) :
    (vector.pushBack growth x).generation = vector.generation + 1 := by
  unfold pushBack
  rw [dif_neg hfull]

theorem capacity_pushBack_of_lt {growth : GrowthPolicy} {vector : StdVector α} {x : α}
    (hroom : vector.elems.length < vector.capacity) :
    (vector.pushBack growth x).capacity = vector.capacity := by
  unfold pushBack
  rw [dif_pos hroom]

theorem capacity_reserve_empty (n : Nat) : ((empty : StdVector α).reserve n).capacity = n := by
  unfold reserve
  split
  · rfl
  · exact (Nat.eq_zero_of_not_pos ‹_›).symm

theorem deref_eq_some_iff {vector : StdVector α} {address : SlotAddress} {x : α} :
    vector.deref address = some x ↔
      address.generation = vector.generation ∧ vector.elems[address.slot]? = some x := by
  unfold deref
  split <;> simp [*]

theorem deref_backAddress_pushBack (growth : GrowthPolicy) (vector : StdVector α) (x : α) :
    (vector.pushBack growth x).deref (vector.pushBack growth x).backAddress = some x := by
  rw [deref_eq_some_iff]
  refine ⟨rfl, ?_⟩
  simp [backAddress]

theorem deref_pushBack_of_lt {growth : GrowthPolicy} {vector : StdVector α} {x y : α}
    {address : SlotAddress} (hroom : vector.elems.length < vector.capacity)
    (hderef : vector.deref address = some y) :
    (vector.pushBack growth x).deref address = some y := by
  rw [deref_eq_some_iff] at hderef ⊢
  rw [generation_pushBack_of_lt hroom, elems_pushBack]
  exact ⟨hderef.1, List.getElem?_append_left (List.getElem?_eq_some_iff.mp hderef.2).1 ▸ hderef.2⟩

theorem deref_pushBack_of_not_lt {growth : GrowthPolicy} {vector : StdVector α} {x y : α}
    {address : SlotAddress} (hfull : ¬ vector.elems.length < vector.capacity)
    (hderef : vector.deref address = some y) :
    (vector.pushBack growth x).deref address = none := by
  have hgeneration := (deref_eq_some_iff.mp hderef).1
  unfold deref
  rw [generation_pushBack_of_not_lt hfull, if_neg (by omega)]

/-- Erasing keeps an address reaching its element exactly when it erases nothing in front of it. -/
theorem deref_eraseIf_iff {vector : StdVector α} (hnodup : vector.elems.Nodup) {p : α → Bool}
    {address : SlotAddress} {x : α} (hderef : vector.deref address = some x)
    (hstays : p x = false) :
    (vector.eraseIf p).deref address = some x ↔
      ∀ y ∈ vector.elems.take address.slot, p y = false := by
  obtain ⟨hgeneration, hslot⟩ := deref_eq_some_iff.mp hderef
  rw [deref_eq_some_iff, generation_eraseIf, elems_eraseIf,
    hnodup.getElem?_filter_eq_iff hslot (by simp [hstays])]
  simp [hgeneration]

end StdVector
