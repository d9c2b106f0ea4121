import Cadence.Io.Selector
import Mathlib.Data.List.Basic
import Mathlib.Order.Nat

/-!
# The poll back-end

`PollSelectorImpl` keeps two vectors that belong together, the registrations and the `pollfd` array
handed to `poll(2)`. The kernel's answer is the `revents` it writes for each position.
-/

namespace Cadence

open Selector

section Flags

variable {width : Nat}

def POLLIN : BitVec width := BitVec.ofNat width 0x0001
def POLLPRI : BitVec width := BitVec.ofNat width 0x0002
def POLLOUT : BitVec width := BitVec.ofNat width 0x0004
def POLLERR : BitVec width := BitVec.ofNat width 0x0008
def POLLRDHUP : BitVec width := BitVec.ofNat width 0x2000

end Flags

structure PollFd where
  fd : PollId
  events : BitVec 16
  revents : BitVec 16
  deriving DecidableEq

inductive PollOutcome where
  | failed (errno : Errno)
  | ready (revents : Nat → BitVec 16)

structure PollSelectorImpl (Data : Type) where
  selectables : List (Selectable Data)
  pollfds : List PollFd

namespace PollSelectorImpl

variable {Data : Type}

-- the constructor reserves memory for both vectors, which holds no elements yet
def create : PollSelectorImpl Data := ⟨[], []⟩

def addRaw (impl : PollSelectorImpl Data) (fd : PollId) (nativeEvents : BitVec 32) (data : Data) :
    PollSelectorImpl Data :=
  { selectables := impl.selectables ++ [⟨fd, data⟩]
    pollfds := impl.pollfds ++ [⟨fd, nativeEvents.setWidth 16, 0⟩] }

def nativeEvents (events : BitVec 32) : BitVec 32 :=
  let pollEvents : BitVec 32 := 0
  let pollEvents := orIf (hasFlag events Selector.Read) pollEvents (POLLIN ||| POLLPRI)
  let pollEvents := orIf (hasFlag events Selector.Write) pollEvents POLLOUT
  orIf (hasFlag events Selector.Hup) pollEvents POLLRDHUP

def add (impl : PollSelectorImpl Data) (fd : PollId) (events : BitVec 32) (data : Data) :
    PollSelectorImpl Data :=
  impl.addRaw fd (nativeEvents events) data

/-- The overload of `add` for an `ISelectable`, whose own address is the user data. -/
def addSelectable (impl : PollSelectorImpl Data) (selectable : ISelectable Data)
    (events : BitVec 32) : PollSelectorImpl Data :=
  impl.add selectable.getSelectId events selectable.address

def remove (impl : PollSelectorImpl Data) (fd : PollId) : PollSelectorImpl Data :=
  { selectables := impl.selectables.filter fun x => x.fd != fd
    pollfds := impl.pollfds.filter fun x => x.fd != fd }

def removeSelectable (impl : PollSelectorImpl Data) (selectable : ISelectable Data) :
    PollSelectorImpl Data :=
  impl.remove selectable.getSelectId

def isReady (impl : PollSelectorImpl Data) (i : Nat) : Bool :=
  match impl.pollfds[i]? with
  | some p => p.revents != 0
  | none => false

/-- The remaining `steps` of the loop in `findFirstReady`, the next index being `i`. -/
def findFirstReadyLoop (impl : PollSelectorImpl Data) (pollCount i : Nat) : (steps : Nat) → Nat
  | 0 => pollCount
  | steps + 1 => if impl.isReady i then i else findFirstReadyLoop impl pollCount (i + 1) steps

def findFirstReady (impl : PollSelectorImpl Data) (offsetIndex pollCount : Nat) : Nat :=
  impl.findFirstReadyLoop pollCount offsetIndex (pollCount - offsetIndex)

def advance (impl : PollSelectorImpl Data) (offsetIndex : Nat) : Nat :=
  let pollCount := impl.pollfds.length
  if offsetIndex ≥ impl.pollfds.length then pollCount
  else impl.findFirstReady (offsetIndex + 1) pollCount

def writeRevents (impl : PollSelectorImpl Data) (revents : Nat → BitVec 16) :
    PollSelectorImpl Data :=
  { impl with pollfds := impl.pollfds.mapIdx fun i p => { p with revents := revents i } }

/-- What `poll` does with the `revents` the kernel wrote. `poll(2)` returns how many are non-zero. -/
def rangeOf (impl : PollSelectorImpl Data) : ReadyIdRange :=
  let r := impl.pollfds.countP fun p => p.revents != 0
  if r = 0 then ⟨0, 0⟩
  else
    let pollCount := impl.pollfds.length
    ⟨impl.findFirstReady 0 pollCount, pollCount⟩

def poll (impl : PollSelectorImpl Data) :
    PollOutcome → Except Exception ReadyIdRange × PollSelectorImpl Data
  | .failed errno => (.error (.ioException errno), impl)
  | .ready revents => (.ok (impl.writeRevents revents).rangeOf, impl.writeRevents revents)

def eventFlags (revents : BitVec 16) : BitVec 32 :=
  let flags : BitVec 32 := 0
  let flags := orIf (hasFlag revents POLLIN || hasFlag revents POLLPRI) flags Selector.Read
  let flags := orIf (hasFlag revents POLLOUT) flags Selector.Write
  let flags := orIf (hasFlag revents POLLERR) flags Selector.Error
  orIf (hasFlag revents POLLRDHUP) flags Selector.Hup

/-- `getEvent`. There is no result when the index is outside either vector. -/
def getEvent (impl : PollSelectorImpl Data) (i : Nat) : Option (Event Data) := do
  let ev ← impl.pollfds[i]?
  let selected ← impl.selectables[i]?
  return ⟨selected.fd, eventFlags ev.revents, selected.data⟩

/-! ### What the calls do -/

section Calls

variable {impl : PollSelectorImpl Data}

theorem revents_writeRevents {revents : Nat → BitVec 16} {i : Nat} {p : PollFd}
    (hp : (impl.writeRevents revents).pollfds[i]? = some p) : p.revents = revents i := by
  simp only [writeRevents, List.getElem?_mapIdx] at hp
  obtain ⟨_, _, rfl⟩ := Option.map_eq_some_iff.mp hp
  rfl

theorem isReady_iff {i : Nat} :
    impl.isReady i = true ↔ ∃ p, impl.pollfds[i]? = some p ∧ p.revents ≠ 0 := by
  unfold isReady
  cases impl.pollfds[i]? <;> simp

theorem isReady.lt {i : Nat} (hready : impl.isReady i = true) : i < impl.pollfds.length := by
  obtain ⟨p, hp, _⟩ := isReady_iff.mp hready
  exact (List.getElem?_eq_some_iff.mp hp).1

theorem exists_getEvent_iff {i : Nat} :
    (∃ event, impl.getEvent i = some event) ↔
      i < impl.pollfds.length ∧ i < impl.selectables.length := by
  unfold getEvent
  constructor
  · rintro ⟨event, hevent⟩
    obtain ⟨ev, hev, hrest⟩ := Option.bind_eq_some_iff.mp hevent
    obtain ⟨selected, hselected, _⟩ := Option.bind_eq_some_iff.mp hrest
    exact ⟨(List.getElem?_eq_some_iff.mp hev).1, (List.getElem?_eq_some_iff.mp hselected).1⟩
  · rintro ⟨hpollfds, hselectables⟩
    simp [List.getElem?_eq_getElem hpollfds, List.getElem?_eq_getElem hselectables]

theorem findFirstReadyLoop_spec (impl : PollSelectorImpl Data) (pollCount : Nat) {i steps : Nat}
    (hend : steps = pollCount - i) :
    (impl.findFirstReadyLoop pollCount i steps = pollCount ∧
      ∀ k, i ≤ k → k < pollCount → impl.isReady k = false) ∨
    (i ≤ impl.findFirstReadyLoop pollCount i steps ∧
      impl.findFirstReadyLoop pollCount i steps < pollCount ∧
      impl.isReady (impl.findFirstReadyLoop pollCount i steps) = true) := by
  induction steps generalizing i with
  | zero => exact Or.inl ⟨rfl, fun k hik hk => by omega⟩
  | succ steps ih =>
      rw [findFirstReadyLoop]
      by_cases hready : impl.isReady i = true
      · rw [if_pos hready]
        exact Or.inr ⟨le_rfl, by omega, hready⟩
      · rw [if_neg hready]
        rcases ih (i := i + 1) (by omega) with ⟨hcount, hnone⟩ | ⟨hle, hlt, hfound⟩
        · refine Or.inl ⟨hcount, fun k hik hk => ?_⟩
          rcases hik.eq_or_lt with rfl | hik
          · simpa using hready
          · exact hnone k hik hk
        · exact Or.inr ⟨by omega, hlt, hfound⟩

/-- The loop stops at the first ready entry. -/
theorem not_isReady_of_lt_findFirstReadyLoop (impl : PollSelectorImpl Data) {pollCount : Nat}
    {i steps k : Nat} (hend : steps = pollCount - i) (hik : i ≤ k)
    (hk : k < impl.findFirstReadyLoop pollCount i steps) : impl.isReady k = false := by
  induction steps generalizing i with
  | zero =>
      rw [findFirstReadyLoop] at hk
      omega
  | succ steps ih =>
      rw [findFirstReadyLoop] at hk
      by_cases hready : impl.isReady i = true
      · rw [if_pos hready] at hk
        omega
      · rw [if_neg hready] at hk
        rcases hik.eq_or_lt with rfl | hik
        · simpa using hready
        · exact ih (by omega) hik hk

theorem advance_spec (impl : PollSelectorImpl Data) (i : Nat) :
    (impl.advance i = impl.pollfds.length ∧ ∀ k, i < k → impl.isReady k = false) ∨
    (i < impl.advance i ∧ impl.isReady (impl.advance i) = true) := by
  unfold advance
  by_cases hi : i ≥ impl.pollfds.length
  · rw [if_pos hi]
    refine Or.inl ⟨rfl, fun k hik => ?_⟩
    by_contra hready
    have hlt := isReady.lt (by simpa using hready)
    omega
  · rw [if_neg hi, findFirstReady]
    rcases findFirstReadyLoop_spec impl impl.pollfds.length (i := i + 1) rfl with
      ⟨hcount, hnone⟩ | ⟨hle, _, hfound⟩
    · refine Or.inl ⟨hcount, fun k hik => ?_⟩
      by_contra hready
      rw [hnone k hik (isReady.lt (by simpa using hready))] at hready
      exact hready rfl
    · exact Or.inr ⟨hle, hfound⟩

theorem rangeOf_spec (impl : PollSelectorImpl Data) :
    (impl.rangeOf = ⟨0, 0⟩ ∧ ∀ k, impl.isReady k = false) ∨
    (impl.rangeOf.count = impl.pollfds.length ∧
      impl.isReady impl.rangeOf.firstReady = true) := by
  unfold rangeOf
  by_cases hcount : (impl.pollfds.countP fun p => p.revents != 0) = 0
  · rw [if_pos hcount]
    refine Or.inl ⟨rfl, fun k => ?_⟩
    by_contra hready
    obtain ⟨p, hp, hrevents⟩ := isReady_iff.mp (by simpa using hready)
    have := List.countP_eq_zero.mp hcount p (List.mem_of_getElem? hp)
    exact hrevents (by simpa using this)
  · rw [if_neg hcount]
    refine Or.inr ⟨rfl, ?_⟩
    rcases findFirstReadyLoop_spec impl impl.pollfds.length (i := 0) rfl with
      ⟨_, hnone⟩ | ⟨_, _, hfound⟩
    · exfalso
      apply hcount
      refine List.countP_eq_zero.mpr fun p hp => ?_
      obtain ⟨k, hk⟩ := List.getElem?_of_mem hp
      have hidle := hnone k (Nat.zero_le _) (List.getElem?_eq_some_iff.mp hk).1
      simpa [isReady, hk] using hidle
    · exact hfound

theorem not_isReady_of_lt_firstReady {k : Nat} (hk : k < impl.rangeOf.firstReady) :
    impl.isReady k = false := by
  simp only [rangeOf] at hk
  split at hk
  next => exact absurd hk (Nat.not_lt_zero k)
  next => exact impl.not_isReady_of_lt_findFirstReadyLoop rfl (Nat.zero_le k) hk

end Calls

end PollSelectorImpl

end Cadence
