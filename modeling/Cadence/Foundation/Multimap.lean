import Mathlib.Data.List.Basic
import Mathlib.Order.Lattice

/-!
# An ordered map with repeated keys

`std::multimap` keeps its entries sorted by key and inserts a new entry behind all entries whose key
is not greater, so entries of one key stay in the order of insertion. The two rules at the end are
what a client relies on: an insertion appends to the range of its own key and leaves every other
range alone.
-/

namespace List

variable {α : Type*} {l : List α} {p : α → Bool}

/-- Taking and dropping a prefix is filtering when `p`, once false along the list, stays false. -/
theorem takeWhile_eq_filter_of_pairwise (hdown : l.Pairwise fun a b => p b = true → p a = true) :
    l.takeWhile p = l.filter p := by
  induction l with
  | nil => rfl
  | cons a l ih =>
      obtain ⟨ha, hl⟩ := pairwise_cons.mp hdown
      by_cases hp : p a = true
      · simp [hp, ih hl]
      · have hnone : l.filter p = [] := filter_eq_nil_iff.mpr fun b hb hpb => hp (ha b hb hpb)
        simp [hp, hnone]

theorem dropWhile_eq_filter_of_pairwise (hdown : l.Pairwise fun a b => p b = true → p a = true) :
    l.dropWhile p = l.filter fun a => !p a := by
  induction l with
  | nil => rfl
  | cons a l ih =>
      obtain ⟨ha, hl⟩ := pairwise_cons.mp hdown
      by_cases hp : p a = true
      · simp [hp, ih hl]
      · have hall : (l.filter fun a => !p a) = l := by
          refine filter_eq_self.mpr fun b hb => ?_
          simpa using fun hpb => hp (ha b hb hpb)
        simp [hp, hall]

end List

structure Multimap (Key Value : Type*) [LinearOrder Key] where
  entries : List (Key × Value)
  sorted : entries.Pairwise fun a b => a.1 ≤ b.1

namespace Multimap

variable {Key Value : Type*} [LinearOrder Key] (map : Multimap Key Value)

def empty : Multimap Key Value where
  entries := []
  sorted := List.Pairwise.nil

def upTo (key : Key) : List (Key × Value) := map.entries.takeWhile fun entry => entry.1 ≤ key

def beyond (key : Key) : List (Key × Value) := map.entries.dropWhile fun entry => entry.1 ≤ key

theorem upTo_eq_filter (key : Key) :
    map.upTo key = map.entries.filter fun entry => entry.1 ≤ key :=
  List.takeWhile_eq_filter_of_pairwise <|
    map.sorted.imp fun {a b} hab => by simpa using fun hb => hab.trans hb

theorem beyond_eq_filter (key : Key) :
    map.beyond key = map.entries.filter fun entry => !decide (entry.1 ≤ key) :=
  List.dropWhile_eq_filter_of_pairwise <|
    map.sorted.imp fun {a b} hab => by simpa using fun hb => hab.trans hb

/-- `emplace(key, value)`: the new entry goes to the upper bound of its key. -/
def emplace (key : Key) (value : Value) : Multimap Key Value where
  entries := map.upTo key ++ (key, value) :: map.beyond key
  sorted := by
    have hbelow : ∀ entry ∈ map.upTo key, entry.1 ≤ key := by
      simp [upTo_eq_filter]
    have habove : ∀ entry ∈ map.beyond key, key ≤ entry.1 := by
      intro entry hentry
      simp only [beyond_eq_filter, List.mem_filter, Bool.not_eq_true',
        decide_eq_false_iff_not, not_le] at hentry
      exact hentry.2.le
    refine List.pairwise_append.mpr ⟨?_, List.pairwise_cons.mpr ⟨habove, ?_⟩, ?_⟩
    · rw [upTo_eq_filter]
      exact map.sorted.filter _
    · rw [beyond_eq_filter]
      exact map.sorted.filter _
    · intro entry hentry other hother
      rcases List.mem_cons.mp hother with rfl | hother
      · exact hbelow entry hentry
      · exact (hbelow entry hentry).trans (habove other hother)

/-- `equal_range(key)`: from the lower bound of the key to its upper bound. -/
def equalRange (key : Key) : List Value :=
  ((map.entries.dropWhile fun entry => entry.1 < key).takeWhile fun entry => entry.1 ≤ key).map
    Prod.snd

theorem equalRange_eq (key : Key) :
    map.equalRange key = (map.entries.filter fun entry => entry.1 = key).map Prod.snd := by
  have hlower : (map.entries.dropWhile fun entry => entry.1 < key) =
      map.entries.filter fun entry => !decide (entry.1 < key) :=
    List.dropWhile_eq_filter_of_pairwise <|
      map.sorted.imp fun {a b} hab => by simpa using fun hb => hab.trans_lt hb
  have hupper : ((map.entries.filter fun entry => !decide (entry.1 < key)).takeWhile
      fun entry => entry.1 ≤ key) =
      (map.entries.filter fun entry => !decide (entry.1 < key)).filter
        fun entry => entry.1 ≤ key :=
    List.takeWhile_eq_filter_of_pairwise <|
      (map.sorted.filter _).imp fun {a b} hab => by simpa using fun hb => hab.trans hb
  unfold equalRange
  rw [hlower, hupper, List.filter_filter]
  congr 2
  funext entry
  simp only [Bool.and_eq_decide, decide_eq_true_eq, Bool.not_eq_true', decide_eq_false_iff_not,
    not_lt, decide_eq_decide]
  exact ⟨fun h => le_antisymm h.1 h.2, fun h => ⟨h.le, h.ge⟩⟩

theorem equalRange_emplace_self (key : Key) (value : Value) :
    (map.emplace key value).equalRange key = map.equalRange key ++ [value] := by
  have hbeyond : ((map.beyond key).filter fun entry => decide (entry.1 = key)) = [] := by
    rw [beyond_eq_filter, List.filter_filter, List.filter_eq_nil_iff]
    intro entry _
    simp only [Bool.and_eq_true, decide_eq_true_eq, Bool.not_eq_true', decide_eq_false_iff_not,
      not_le, not_and, not_lt]
    exact fun heq => heq.le
  have hupTo : ((map.upTo key).filter fun entry => decide (entry.1 = key)) =
      map.entries.filter fun entry => decide (entry.1 = key) := by
    conv_rhs => rw [← List.takeWhile_append_dropWhile (p := fun entry => entry.1 ≤ key)
      (l := map.entries), List.filter_append]
    exact (List.append_nil _).symm.trans (congrArg _ hbeyond.symm)
  rw [equalRange_eq, equalRange_eq, emplace, List.filter_append, List.filter_cons_of_pos (by simp),
    hbeyond, hupTo, List.map_append]
  rfl

theorem equalRange_emplace_of_ne {key other : Key} (value : Value) (hne : key ≠ other) :
    (map.emplace key value).equalRange other = map.equalRange other := by
  rw [equalRange_eq, equalRange_eq, emplace, List.filter_append,
    List.filter_cons_of_neg (by simpa using hne), ← List.filter_append, upTo, beyond,
    List.takeWhile_append_dropWhile]

end Multimap
