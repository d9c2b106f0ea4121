import Cadence.Io.Selectable

/-!
# The selector interface

What the two back-ends share: the event flags, the range of ready entries a `poll` returns and the
iterator that walks it. The iterator keeps the size of the range it was created with, and asks the
back-end for the next index.
-/

namespace Cadence.Selector

/-! `Selector::Events`. -/

def Read : BitVec 32 := 0x001
def Write : BitVec 32 := 0x004
def Error : BitVec 32 := 0x008
def Hup : BitVec 32 := 0x010

/-- `if (flags & flag)`. -/
def hasFlag {width : Nat} (flags flag : BitVec width) : Bool := flags &&& flag != 0

/-- `if (flags & flag) target |= bits`. -/
def orIf {width : Nat} (condition : Bool) (target bits : BitVec width) : BitVec width :=
  if condition then target ||| bits else target

structure Event (Data : Type) where
  fd : PollId
  events : BitVec 32
  data : Data
  deriving DecidableEq

/-- The event a back-end keeps per registration. It sets `fd` and `data`; `events` is never set and
never read. -/
structure Selectable (Data : Type) where
  fd : PollId
  data : Data
  deriving DecidableEq

structure ReadyIdRange where
  firstReady : Nat
  count : Nat
  deriving DecidableEq

/-- `Selector::Iterator`. The back-end it points to is identified by its address. -/
structure Iterator where
  index : Nat
  size : Nat
  pimpl : Nat
  deriving DecidableEq

namespace Iterator

def begin (it : Iterator) : Iterator := ⟨it.index, it.size, it.pimpl⟩

def end' (it : Iterator) : Iterator := ⟨it.size, it.size, it.pimpl⟩

def ne (it other : Iterator) : Bool :=
  it.index != other.index || it.size != other.size || it.pimpl != other.pimpl

/-- `operator==`, which does not compare the sizes. -/
def eq (it other : Iterator) : Bool :=
  it.index == other.index && it.pimpl == other.pimpl

theorem eq_end'_iff {it : Iterator} : it.eq it.end' = true ↔ it.index = it.size := by
  simp [eq, end']

theorem ne_end'_iff {it : Iterator} : it.ne it.end' = true ↔ it.index ≠ it.size := by
  simp [ne, end']

theorem ne_end'_eq_false_iff {it : Iterator} : it.ne it.end' = false ↔ it.index = it.size := by
  simp [ne, end']

end Iterator

def assertIndexInRange (index lower upper : Nat) : Except Exception Unit :=
  if lower ≤ index ∧ index < upper then .ok () else .error (.indexOutOfRange index lower upper)

def Iterator.increment (advance : Nat → Nat) (it : Iterator) : Except Exception Iterator := do
  assertIndexInRange it.index 0 it.size
  return { it with index := advance it.index }

theorem Iterator.increment_of_lt {advance : Nat → Nat} {it : Iterator} (hlt : it.index < it.size) :
    it.increment advance = .ok { it with index := advance it.index } := by
  simp only [increment, assertIndexInRange, Nat.zero_le, true_and, if_pos hlt]
  rfl

theorem Iterator.increment_of_not_lt {advance : Nat → Nat} {it : Iterator}
    (hge : ¬ it.index < it.size) :
    it.increment advance = .error (.indexOutOfRange it.index 0 it.size) := by
  simp only [increment, assertIndexInRange, Nat.zero_le, true_and, if_neg hge]
  rfl

/-- `for (auto event : it)`, in at most `steps` rounds. There is no result when an access is out of
range or the end is not reached. -/
def Iterator.walk {Data : Type} (getEvent : Nat → Option (Event Data)) (advance : Nat → Nat)
    (it : Iterator) : (steps : Nat) → Option (List (Event Data))
  | 0 => if it.ne it.end' then none else some []
  | steps + 1 =>
      if it.ne it.end' then
        (getEvent it.index).bind fun event =>
          (it.increment advance).toOption.bind fun next =>
            (walk getEvent advance next steps).map fun events => event :: events
      else some []

/-- Incrementing an iterator until it equals `last`, in at most `steps` rounds: the indices at which it
stood. There is no result when an increment raises or `last` is not reached. -/
def Iterator.traverse (advance : Nat → Nat) (it last : Iterator) : (steps : Nat) → Option (List Nat)
  | 0 => if it.eq last then some [] else none
  | steps + 1 =>
      if it.eq last then some []
      else
        (it.increment advance).toOption.bind fun next =>
          (traverse advance next last steps).map fun indices => it.index :: indices

/-- `Selector::poll`, given what the back-end's `poll` returned. -/
def poll (pimpl : Nat) (range : ReadyIdRange) : Iterator :=
  ⟨range.firstReady, range.count, pimpl⟩

theorem Iterator.traverse_of_eq {advance : Nat → Nat} {it last : Iterator}
    (hend : it.eq last = true) (steps : Nat) : it.traverse advance last steps = some [] := by
  cases steps with
  | zero => exact if_pos hend
  | succ steps => exact if_pos hend

theorem Iterator.traverse_eq_some_of_ne {advance : Nat → Nat} {it last : Iterator} {steps : Nat}
    {indices : List Nat} (hgoes : ¬ it.eq last = true)
    (htraverse : it.traverse advance last steps = some indices) :
    ∃ rest next later, steps = rest + 1 ∧ it.increment advance = .ok next ∧
      next.traverse advance last rest = some later ∧ indices = it.index :: later := by
  cases steps with
  | zero =>
      rw [traverse, if_neg hgoes] at htraverse
      cases htraverse
  | succ rest =>
      rw [traverse, if_neg hgoes] at htraverse
      obtain ⟨next, hnext, hrest⟩ := Option.bind_eq_some_iff.mp htraverse
      obtain ⟨later, hlater, rfl⟩ := Option.map_eq_some_iff.mp hrest
      refine ⟨rest, next, later, rfl, ?_, hlater, rfl⟩
      cases hincrement : it.increment advance with
      | error e =>
          rw [hincrement] at hnext
          cases hnext
      | ok value =>
          rw [hincrement] at hnext
          exact congrArg Except.ok (Option.some.inj hnext)

theorem Iterator.traverse_unique {advance : Nat → Nat} {it last : Iterator} {steps steps' : Nat}
    {indices indices' : List Nat} (htraverse : it.traverse advance last steps = some indices)
    (htraverse' : it.traverse advance last steps' = some indices') : indices = indices' := by
  induction steps generalizing it steps' indices indices' with
  | zero =>
      have hend : it.eq last = true := by
        apply Classical.byContradiction
        intro hgoes
        obtain ⟨_, _, _, hsteps, _⟩ := traverse_eq_some_of_ne hgoes htraverse
        cases hsteps
      rw [traverse_of_eq hend] at htraverse htraverse'
      exact Option.some.inj (htraverse.symm.trans htraverse')
  | succ steps ih =>
      by_cases hend : it.eq last = true
      · rw [traverse_of_eq hend] at htraverse htraverse'
        exact Option.some.inj (htraverse.symm.trans htraverse')
      · obtain ⟨_, next, later, hsteps, hnext, hlater, rfl⟩ :=
          traverse_eq_some_of_ne hend htraverse
        obtain ⟨_, next', later', _, hnext', hlater', rfl⟩ :=
          traverse_eq_some_of_ne hend htraverse'
        obtain rfl := Nat.succ.inj hsteps
        obtain rfl := Except.ok.inj (hnext.symm.trans hnext')
        rw [ih hlater hlater']

section Walk

variable {Data : Type} {getEvent : Nat → Option (Event Data)} {advance : Nat → Nat} {it : Iterator}

theorem Iterator.walk_of_end (hend : it.index = it.size) (steps : Nat) :
    it.walk getEvent advance steps = some [] := by
  cases steps <;> simp [walk, ne_end'_eq_false_iff.mpr hend]

theorem Iterator.walk_of_lt (hlt : it.index < it.size) (steps : Nat) :
    it.walk getEvent advance (steps + 1) =
      (getEvent it.index).bind fun event =>
        (Iterator.walk getEvent advance ⟨advance it.index, it.size, it.pimpl⟩ steps).map
          fun events => event :: events := by
  rw [walk, if_pos (ne_end'_iff.mpr (Nat.ne_of_lt hlt)), increment_of_lt hlt]
  rfl

end Walk

end Cadence.Selector
