import Mathlib.Data.List.Basic
import Mathlib.Logic.Function.Basic

/-!
# Strands of an interleaving

Several parties put items into one list, and each item carries the number of its party. The strand of
a party is what it has put there, in its own order. A list in which the numbers never decrease is its
strands one behind the other.
-/

namespace Strands

variable {α : Type*} {l front : List (Nat × α)} {data : List α} {i j n : Nat}

def strand (i : Nat) (l : List (Nat × α)) : List α := (l.filter fun item => item.1 = i).map Prod.snd

/-- Items of one party. -/
def tagged (i : Nat) (data : List α) : List (Nat × α) := data.map (Prod.mk i)

/-- No party goes on after a later one has begun. -/
def Ordered (l : List (Nat × α)) : Prop := l.Pairwise fun first second => first.1 ≤ second.1

def Below (n : Nat) (l : List (Nat × α)) : Prop := ∀ item ∈ l, item.1 < n

theorem strand_append : strand i (front ++ l) = strand i front ++ strand i l := by
  rw [strand, List.filter_append, List.map_append, strand, strand]

theorem map_snd_tagged : (tagged i data).map Prod.snd = data := by
  rw [tagged, List.map_map]
  exact List.map_id data

theorem strand_tagged_self : strand i (tagged i data) = data := by
  have hall : (tagged i data).filter (fun item => item.1 = i) = tagged i data := by
    refine List.filter_eq_self.mpr fun item hitem => ?_
    obtain ⟨x, _, rfl⟩ := List.mem_map.mp hitem
    exact decide_eq_true rfl
  rw [strand, hall, map_snd_tagged]

theorem strand_tagged_of_ne (hne : i ≠ j) : strand j (tagged i data) = [] := by
  have hnone : (tagged i data).filter (fun item => item.1 = j) = [] := by
    refine List.filter_eq_nil_iff.mpr fun item hitem => ?_
    obtain ⟨x, _, rfl⟩ := List.mem_map.mp hitem
    exact fun htag => hne (of_decide_eq_true htag)
  rw [strand, hnone, List.map_nil]

theorem strand_append_tagged_self :
    strand i (l ++ tagged i data) = strand i l ++ data := by
  rw [strand_append, strand_tagged_self]

theorem strand_append_tagged_of_ne (hne : i ≠ j) :
    strand j (l ++ tagged i data) = strand j l := by
  rw [strand_append, strand_tagged_of_ne hne, List.append_nil]

/-- An item changes the strand of its own party alone. -/
theorem strand_concat (x : α) : (fun j => strand j (l ++ [(i, x)])) =
    Function.update (fun j => strand j l) i (strand i l ++ [x]) := by
  have htagged : [(i, x)] = tagged i [x] := rfl
  funext j
  rw [htagged]
  by_cases hij : i = j
  · subst hij
    rw [Function.update_self, strand_append_tagged_self]
  · rw [Function.update_of_ne (Ne.symm hij), strand_append_tagged_of_ne hij]

theorem strand_of_below (hbelow : Below n l) (hi : n ≤ i) : strand i l = [] := by
  have hnone : l.filter (fun item => item.1 = i) = [] := by
    refine List.filter_eq_nil_iff.mpr fun item hitem htag => ?_
    have hlt := hbelow item hitem
    have heq : item.1 = i := of_decide_eq_true htag
    omega
  rw [strand, hnone, List.map_nil]

theorem Below.append (hbelow : Below n l) (hi : i < n) : Below n (l ++ tagged i data) := by
  refine List.forall_mem_append.mpr ⟨hbelow, fun item hitem => ?_⟩
  obtain ⟨x, _, rfl⟩ := List.mem_map.mp hitem
  exact hi

theorem Below.mono {m : Nat} (hbelow : Below n l) (hle : n ≤ m) : Below m l :=
  fun item hitem => Nat.lt_of_lt_of_le (hbelow item hitem) hle

/-- The last party may always go on. -/
theorem Ordered.append (hordered : Ordered l) (hbelow : Below (i + 1) l) :
    Ordered (l ++ tagged i data) := by
  refine List.pairwise_append.mpr ⟨hordered, ?_, fun first hfirst second hsecond => ?_⟩
  · exact List.pairwise_map.mpr (List.pairwise_of_forall fun _ _ => Nat.le_refl i)
  · obtain ⟨x, _, rfl⟩ := List.mem_map.mp hsecond
    exact Nat.le_of_lt_succ (hbelow first hfirst)

theorem Ordered.split (hordered : Ordered l) (n : Nat) :
    l = l.filter (fun item => item.1 < n) ++ l.filter (fun item => ¬ item.1 < n) := by
  induction l with
  | nil => rfl
  | cons item l ih =>
      obtain ⟨hitem, hrest⟩ := List.pairwise_cons.mp hordered
      by_cases hlt : item.1 < n
      · simp only [List.filter_cons, hlt, decide_true, if_true, not_true, decide_false,
          Bool.false_eq_true, if_false, List.cons_append]
        exact congrArg (List.cons item) (ih hrest)
      · have hlate : ∀ other ∈ l, ¬ other.1 < n := fun other hother hother' =>
          hlt (Nat.lt_of_le_of_lt (hitem other hother) hother')
        have hfront : l.filter (fun item => item.1 < n) = [] :=
          List.filter_eq_nil_iff.mpr fun other hother =>
            fun htrue => hlate other hother (of_decide_eq_true htrue)
        have hback : l.filter (fun item => ¬ item.1 < n) = l :=
          List.filter_eq_self.mpr fun other hother => decide_eq_true (hlate other hother)
        simp only [List.filter_cons, hlt, decide_false, Bool.false_eq_true, if_false, not_false_eq_true,
          decide_true, if_true, hfront, hback, List.nil_append]

/-- **In order.** An ordered interleaving is its strands one behind the other. -/
theorem Ordered.eq_strands (hordered : Ordered l) (hbelow : Below n l) :
    l.map Prod.snd = (List.range n).flatMap fun i => strand i l := by
  induction n generalizing l with
  | zero =>
      obtain rfl : l = [] := List.eq_nil_iff_forall_not_mem.mpr fun item hitem =>
        Nat.not_lt_zero _ (hbelow item hitem)
      rfl
  | succ n ih =>
      have hsplit := hordered.split n
      have hearly : Below n (l.filter fun item => item.1 < n) :=
        fun item hitem => of_decide_eq_true (List.mem_filter.mp hitem).2
      have hlast : strand n l = (l.filter fun item => ¬ item.1 < n).map Prod.snd := by
        refine congrArg (List.map Prod.snd) (List.filter_congr fun item hitem => ?_)
        have hlt := hbelow item hitem
        exact decide_eq_decide.mpr (by omega)
      have hstrand : ∀ i ∈ List.range n,
          strand i (l.filter fun item => item.1 < n) = strand i l := by
        intro i hi
        rw [strand, List.filter_filter]
        refine congrArg (List.map Prod.snd) (List.filter_congr fun item _ => ?_)
        have hin := List.mem_range.mp hi
        rw [← Bool.decide_and]
        exact decide_eq_decide.mpr (by omega)
      calc l.map Prod.snd
          = (l.filter fun item => item.1 < n).map Prod.snd ++
              (l.filter fun item => ¬ item.1 < n).map Prod.snd := by
            rw [← List.map_append, ← hsplit]
        _ = ((List.range n).flatMap fun i => strand i l) ++ strand n l := by
            rw [ih (hordered.filter _) hearly, List.flatMap_congr hstrand, hlast]
        _ = (List.range (n + 1)).flatMap fun i => strand i l := by
            rw [List.range_succ, List.flatMap_append, List.flatMap_singleton]

end Strands
