import Mathlib.Data.BitVec

/-!
# Operations in progress

An asynchronous operation waits for what it was started for, is ready once that has happened, and is
resolved when its handler runs. A table has the operations in the order in which they were started,
and changes in three ways only: an operation is started, the operations that have waited longest
complete, or the handler of one that is ready runs.

An invariant of the table is a property of its entries, and is kept when starting and completing keep
it. An operation that goes on waiting has all that have completed in front of it.
-/

namespace Operations

inductive Status (Result : Type*) where
  | waiting
  | ready (result : Result)
  | resolved (result : Result)
  deriving DecidableEq

structure Entry (Op Result : Type*) where
  op : Op
  status : Status Result
  deriving DecidableEq

abbrev Table (Op Result : Type*) := List (Entry Op Result)

theorem sum_map_set {α : Type*} (weight : α → Nat) {l : List α} {i : Nat} {x : α}
    (hx : l[i]? = some x) (y : α) :
    ((l.set i y).map weight).sum + weight x = (l.map weight).sum + weight y := by
  induction l generalizing i with
  | nil => cases hx
  | cons head l ih =>
      cases i with
      | zero =>
          obtain rfl : head = x := Option.some.inj hx
          simp only [List.set_cons_zero, List.map_cons, List.sum_cons]
          omega
      | succ i =>
          have hsum := ih (i := i) hx
          simp only [List.set_cons_succ, List.map_cons, List.sum_cons] at hsum ⊢
          omega

variable {Op Result : Type*}

namespace Status

/-- What the operation completed with. -/
def outcome : Status Result → Option Result
  | .waiting => none
  | .ready result | .resolved result => some result

/-- What the future of the operation is set to. -/
def future : Status Result → Option Result
  | .resolved result => some result
  | .waiting | .ready _ => none

def isWaiting : Status Result → Bool
  | .waiting => true
  | .ready _ | .resolved _ => false

/-- The handler runs, when there is one to run. -/
def settle : Status Result → Status Result
  | .ready result | .resolved result => .resolved result
  | .waiting => .waiting

/-- How many more steps the operation makes. -/
def remaining : Status Result → Nat
  | .waiting => 2
  | .ready _ => 1
  | .resolved _ => 0

theorem outcome_of_future {status : Status Result} {result : Result}
    (hfuture : status.future = some result) : status.outcome = some result := by
  cases status with
  | waiting => cases hfuture
  | ready => cases hfuture
  | resolved => exact hfuture

end Status

namespace Entry

variable {entry : Entry Op Result}

def settle (entry : Entry Op Result) : Entry Op Result := { entry with status := entry.status.settle }

theorem eq_of_isWaiting (hwaiting : entry.status.isWaiting = true) :
    entry = ⟨entry.op, .waiting⟩ := by
  obtain ⟨op, status⟩ := entry
  cases status with
  | waiting => rfl
  | ready result => cases hwaiting
  | resolved result => cases hwaiting

end Entry

namespace Table

def start (table : Table Op Result) (op : Op) : Table Op Result := table ++ [⟨op, .waiting⟩]

/-- The first `count` operations that wait complete. -/
def complete (result : Op → Result) : (count : Nat) → Table Op Result → Table Op Result
  | 0, table => table
  | _ + 1, [] => []
  | count + 1, entry :: table =>
      if entry.status.isWaiting then
        ⟨entry.op, .ready (result entry.op)⟩ :: complete result count table
      else entry :: complete result (count + 1) table

def completeAll (result : Op → Result) (table : Table Op Result) : Table Op Result :=
  complete result table.length table

/-- The handler of operation `i` runs. -/
def deliver (table : Table Op Result) (i : Nat) : Option (Table Op Result) :=
  match table[i]? with
  | some ⟨op, .ready result⟩ => some (table.set i ⟨op, .resolved result⟩)
  | _ => none

/-- The operation that has waited longest. -/
def firstWaiting (table : Table Op Result) : Option Op :=
  (table.find? fun entry => entry.status.isWaiting).map Entry.op

/-- Every handler that can run has run. -/
def settle (table : Table Op Result) : Table Op Result := table.map Entry.settle

def remaining (table : Table Op Result) : Nat :=
  (table.map fun entry => entry.status.remaining).sum

def total (weight : Entry Op Result → Nat) (table : Table Op Result) : Nat :=
  (table.map weight).sum

variable {table next last : Table Op Result} {result : Op → Result} {count i : Nat} {op : Op}
  {P : Entry Op Result → Prop}

@[simp] theorem complete_zero : table.complete result 0 = table := by
  rw [complete]

theorem deliver_eq_some (hdeliver : table.deliver i = some next) :
    ∃ op result, table[i]? = some ⟨op, .ready result⟩ ∧ next = table.set i ⟨op, .resolved result⟩ := by
  unfold deliver at hdeliver
  split at hdeliver
  next op result hentry => exact ⟨op, result, hentry, (Option.some.inj hdeliver).symm⟩
  next => cases hdeliver

/-- A handler changes nothing that depends only on what the operations completed with. -/
theorem map_deliver {β : Type*} {f : Entry Op Result → β}
    (hf : ∀ op result, f ⟨op, .ready result⟩ = f ⟨op, .resolved result⟩)
    (hdeliver : table.deliver i = some next) : next.map f = table.map f := by
  obtain ⟨op, result, hready, rfl⟩ := deliver_eq_some hdeliver
  obtain ⟨hi, hget⟩ := List.getElem?_eq_some_iff.mp hready
  have hi' : i < (table.map f).length := by simpa using hi
  have hsame : (table.map f)[i] = f ⟨op, .resolved result⟩ := by
    rw [List.getElem_map, hget, hf]
  rw [List.map_set, ← hsame, List.set_getElem_self]

/-! ### Entry by entry -/

theorem forall_complete (hall : ∀ entry ∈ table, P entry)
    (hresult : ∀ op, P ⟨op, .waiting⟩ → P ⟨op, .ready (result op)⟩) :
    ∀ entry ∈ table.complete result count, P entry := by
  fun_induction complete result count table with
  | case1 => exact hall
  | case2 => exact hall
  | case3 count entry table hwaiting ih =>
      obtain ⟨hentry, htable⟩ := List.forall_mem_cons.mp hall
      rw [Entry.eq_of_isWaiting hwaiting] at hentry
      exact List.forall_mem_cons.mpr ⟨hresult entry.op hentry, ih htable⟩
  | case4 count entry table hwaiting ih =>
      obtain ⟨hentry, htable⟩ := List.forall_mem_cons.mp hall
      exact List.forall_mem_cons.mpr ⟨hentry, ih htable⟩

theorem mem_of_firstWaiting (hfirst : table.firstWaiting = some op) : ⟨op, .waiting⟩ ∈ table := by
  obtain ⟨entry, hfind, rfl⟩ := Option.map_eq_some_iff.mp hfirst
  have hwaiting := List.find?_some hfind
  rw [← Entry.eq_of_isWaiting hwaiting]
  exact List.mem_of_find?_eq_some hfind

theorem forall_complete_one (hall : ∀ entry ∈ table, P entry) (hfirst : table.firstWaiting = some op)
    (hresult : P ⟨op, .ready (result op)⟩) : ∀ entry ∈ table.complete result 1, P entry := by
  induction table with
  | nil => cases hfirst
  | cons entry table ih =>
      obtain ⟨hentry, htable⟩ := List.forall_mem_cons.mp hall
      rw [complete]
      cases hstatus : entry.status.isWaiting with
      | true =>
          obtain rfl : entry.op = op := by simpa [firstWaiting, hstatus] using hfirst
          rw [if_pos rfl, complete_zero]
          exact List.forall_mem_cons.mpr ⟨hresult, htable⟩
      | false =>
          have hfront : firstWaiting table = some op := by simpa [firstWaiting, hstatus] using hfirst
          rw [if_neg Bool.false_ne_true]
          exact List.forall_mem_cons.mpr ⟨hentry, ih htable hfront⟩

theorem forall_deliver (hall : ∀ entry ∈ table, P entry)
    (hresolve : ∀ op result, P ⟨op, .ready result⟩ → P ⟨op, .resolved result⟩)
    (hdeliver : table.deliver i = some next) : ∀ entry ∈ next, P entry := by
  obtain ⟨op, result, hentry, rfl⟩ := deliver_eq_some hdeliver
  intro entry hmem
  rcases List.mem_or_eq_of_mem_set hmem with hold | rfl
  · exact hall entry hold
  · exact hresolve op result (hall _ (List.mem_of_getElem? hentry))

/-! ### Sums over the table -/

variable {weight : Entry Op Result → Nat}

theorem total_append : total weight (table ++ next) = total weight table + total weight next := by
  rw [total, List.map_append, List.sum_append, total, total]

theorem total_concat {entry : Entry Op Result} :
    total weight (table ++ [entry]) = total weight table + weight entry :=
  total_append.trans (congrArg (total weight table + ·) (List.sum_singleton))

theorem total_start : total weight (table.start op) = total weight table + weight ⟨op, .waiting⟩ :=
  total_concat

theorem total_complete_one (weight : Entry Op Result → Nat) (result : Op → Result)
    (hfirst : table.firstWaiting = some op) :
    total weight (table.complete result 1) + weight ⟨op, .waiting⟩ =
      total weight table + weight ⟨op, .ready (result op)⟩ := by
  induction table with
  | nil => cases hfirst
  | cons entry table ih =>
      rw [complete]
      cases hwaiting : entry.status.isWaiting with
      | true =>
          obtain rfl : entry.op = op := by simpa [firstWaiting, hwaiting] using hfirst
          rw [Entry.eq_of_isWaiting hwaiting]
          simp only [total, if_true, complete, List.map_cons, List.sum_cons]
          omega
      | false =>
          have htable : firstWaiting table = some op := by
            simpa [firstWaiting, hwaiting] using hfirst
          have hsum := ih htable
          simp only [total, Bool.false_eq_true, if_false, Nat.zero_add, List.map_cons,
            List.sum_cons] at hsum ⊢
          omega

/-- Completing does not change the sum when it does not change the weight of an operation. -/
theorem total_complete_of_eq
    (hweight : ∀ op, weight ⟨op, .ready (result op)⟩ = weight ⟨op, .waiting⟩) :
    total weight (table.complete result count) = total weight table := by
  fun_induction complete result count table with
  | case1 => rfl
  | case2 => rfl
  | case3 count entry table hwaiting ih =>
      rw [Entry.eq_of_isWaiting hwaiting]
      simp only [total, List.map_cons, List.sum_cons, hweight] at ih ⊢
      rw [ih]
  | case4 count entry table hwaiting ih =>
      simp only [total, List.map_cons, List.sum_cons] at ih ⊢
      rw [ih]

theorem total_le_total {weight' : Entry Op Result → Nat}
    (hle : ∀ entry ∈ table, weight entry ≤ weight' entry) :
    total weight table ≤ total weight' table := by
  induction table with
  | nil => exact Nat.le_refl _
  | cons entry table ih =>
      obtain ⟨hentry, htable⟩ := List.forall_mem_cons.mp hle
      exact Nat.add_le_add hentry (ih htable)

theorem total_deliver
    (hweight : ∀ op result, weight ⟨op, .ready result⟩ = weight ⟨op, .resolved result⟩)
    (hdeliver : table.deliver i = some next) : total weight next = total weight table :=
  congrArg List.sum (map_deliver hweight hdeliver)

/-! ### All complete -/

/-- All that wait complete when there are enough to complete. -/
theorem complete_eq_map (hcount : table.length ≤ count) :
    table.complete result count = table.map fun entry =>
      if entry.status.isWaiting then ⟨entry.op, .ready (result entry.op)⟩ else entry := by
  fun_induction complete result count table with
  | case1 table => simp [List.length_eq_zero_iff.mp (Nat.le_zero.mp hcount)]
  | case2 => rfl
  | case3 count entry table hwaiting ih =>
      rw [ih (Nat.le_of_succ_le_succ hcount), List.map_cons, if_pos hwaiting]
  | case4 count entry table hwaiting ih =>
      rw [ih (Nat.le_of_succ_le hcount), List.map_cons, if_neg hwaiting]

theorem completeAll_eq_map : table.completeAll result = table.map fun entry =>
    if entry.status.isWaiting then ⟨entry.op, .ready (result entry.op)⟩ else entry :=
  complete_eq_map (Nat.le_refl _)

theorem isWaiting_completeAll {entry : Entry Op Result} (hentry : entry ∈ table.completeAll result) :
    entry.status.isWaiting = false := by
  rw [completeAll_eq_map] at hentry
  obtain ⟨other, _, rfl⟩ := List.mem_map.mp hentry
  split
  next => rfl
  next hwaiting => exact Bool.eq_false_iff.mpr hwaiting

/-! ### What the operations have moved -/

variable {Item : Type*} {chunk : Entry Op Result → List Item}

/-- What each operation has moved, one behind the other. -/
def stream (chunk : Entry Op Result → List Item) (table : Table Op Result) : List Item :=
  (table.map chunk).flatten

/-- Nothing has been moved by an operation behind one that waits. -/
def InOrder (chunk : Entry Op Result → List Item) (table : Table Op Result) : Prop :=
  (table.map fun entry => (entry.status.isWaiting, chunk entry)).Pairwise fun entry later =>
    entry.1 = true → later.2 = []

theorem stream_concat {entry : Entry Op Result} (hchunk : chunk entry = []) :
    stream chunk (table ++ [entry]) = stream chunk table := by
  simp [stream, hchunk]

theorem InOrder.concat {entry : Entry Op Result} (horder : InOrder chunk table)
    (hchunk : chunk entry = []) : InOrder chunk (table ++ [entry]) := by
  rw [InOrder, List.map_append, List.pairwise_append]
  exact ⟨horder, List.pairwise_singleton _ _, by simp [hchunk]⟩

theorem stream_deliver (hchunk : ∀ op result, chunk ⟨op, .ready result⟩ = chunk ⟨op, .resolved result⟩)
    (hdeliver : table.deliver i = some next) : stream chunk next = stream chunk table :=
  congrArg List.flatten (map_deliver hchunk hdeliver)

theorem InOrder.deliver (horder : InOrder chunk table)
    (hchunk : ∀ op result, chunk ⟨op, .ready result⟩ = chunk ⟨op, .resolved result⟩)
    (hdeliver : table.deliver i = some next) : InOrder chunk next := by
  rw [InOrder, map_deliver (fun op result => by rw [hchunk op result]; rfl) hdeliver]
  exact horder

/-- Operations that complete without having moved anything. -/
theorem stream_complete (hwaiting : ∀ op, chunk ⟨op, .waiting⟩ = [])
    (hresult : ∀ op, chunk ⟨op, .ready (result op)⟩ = []) :
    stream chunk (table.complete result count) = stream chunk table := by
  fun_induction complete result count table with
  | case1 => rfl
  | case2 => rfl
  | case3 count entry table hentry ih =>
      rw [Entry.eq_of_isWaiting hentry]
      simp only [stream, List.map_cons, List.flatten_cons, hwaiting, hresult, List.nil_append] at ih ⊢
      exact ih
  | case4 count entry table hentry ih =>
      simp only [stream, List.map_cons, List.flatten_cons] at ih ⊢
      rw [ih]

/-- What the operation that has waited longest moves comes behind all that was moved before. -/
theorem InOrder.stream_complete_one (result : Op → Result) (horder : InOrder chunk table)
    (hwaiting : ∀ op, chunk ⟨op, .waiting⟩ = []) (hfirst : table.firstWaiting = some op) :
    stream chunk (table.complete result 1) = stream chunk table ++ chunk ⟨op, .ready (result op)⟩ := by
  induction table with
  | nil => cases hfirst
  | cons entry table ih =>
      obtain ⟨hentry, htable⟩ := List.pairwise_cons.mp horder
      rw [complete]
      cases hstatus : entry.status.isWaiting with
      | true =>
          obtain rfl : entry.op = op := by simpa [firstWaiting, hstatus] using hfirst
          have hrest : stream chunk table = [] := List.flatten_eq_nil_iff.mpr fun moved hmoved => by
            obtain ⟨other, hother, rfl⟩ := List.mem_map.mp hmoved
            exact hentry _ (List.mem_map_of_mem hother) hstatus
          rw [stream] at hrest
          rw [Entry.eq_of_isWaiting hstatus]
          simp [stream, hrest, hwaiting]
      | false =>
          have hfront : firstWaiting table = some op := by simpa [firstWaiting, hstatus] using hfirst
          have hmoved := ih htable hfront
          simp only [stream, Bool.false_eq_true, if_false, Nat.zero_add, List.map_cons,
            List.flatten_cons] at hmoved ⊢
          rw [hmoved, List.append_assoc]

/-- Those that complete are in front of those that go on waiting. -/
theorem InOrder.complete (horder : InOrder chunk table) :
    InOrder chunk (table.complete result count) := by
  fun_induction Table.complete result count table with
  | case1 => exact horder
  | case2 => exact horder
  | case3 count entry table hwaiting ih =>
      obtain ⟨_, htable⟩ := List.pairwise_cons.mp horder
      exact List.pairwise_cons.mpr ⟨fun _ _ hready => (nomatch hready), ih htable⟩
  | case4 count entry table hwaiting ih =>
      obtain ⟨_, htable⟩ := List.pairwise_cons.mp horder
      exact List.pairwise_cons.mpr ⟨fun _ _ hwaits => absurd hwaits hwaiting, ih htable⟩

/-! ### What remains to be done -/

theorem outcome_eq_future_of_settle (hsettle : table.settle = table) {entry : Entry Op Result}
    (hentry : entry ∈ table) : entry.status.outcome = entry.status.future := by
  rw [← hsettle] at hentry
  obtain ⟨⟨op, status⟩, _, rfl⟩ := List.mem_map.mp hentry
  cases status <;> rfl

/-- A table in which no handler can run is settled. -/
theorem settle_of_deliver_eq_none (hnone : ∀ i, table.deliver i = none) : table.settle = table := by
  refine (List.map_congr_left fun entry hentry => ?_).trans (List.map_id table)
  obtain ⟨i, hget⟩ := List.getElem?_of_mem hentry
  obtain ⟨op, status⟩ := entry
  cases status with
  | waiting => rfl
  | resolved result => rfl
  | ready result =>
      have hi := hnone i
      simp [deliver, hget] at hi

end Table

end Operations
