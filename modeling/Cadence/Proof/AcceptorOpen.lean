import Cadence.Async.Acceptor
import Cadence.Foundation.StepSystem

/-!
# Opening an acceptor again

`Acceptor::open` installs the implementation before it opens it and never takes it away. So only the
first `open` of an acceptor reaches the native one, and it is atomic unless a step fails after the
native socket was opened.
-/

namespace Cadence.AcceptorOpen

open StepSystem

inductive Action where
  | open (endpoint : NetworkEndpoint) (outcomes : NativeOutcomes)
  | close

def step (acceptor : Acceptor) : Action → Option Acceptor
  | .open endpoint outcomes => (acceptor.open endpoint outcomes).map Prod.snd
  | .close => acceptor.close.map Prod.fst

/-- An `open` that returns an error leaves an acceptor that was not open not open and unbound, and
the error is `ISCONN` exactly when the acceptor is open. -/
def Atomic (acceptor : Acceptor) (action : Action) (next : Acceptor) : Prop :=
  match action with
  | .open endpoint outcomes =>
      ∀ result, acceptor.open endpoint outcomes = some (result, next) →
        (∀ e, result = .error e → acceptor.isOpen ≠ some true →
          next.isOpen ≠ some true ∧ next.isBound ≠ some true) ∧
        ((∃ e, result = .error e ∧ e.Is EISCONN) ↔ acceptor.isOpen = some true)
  | .close => True

/-- The first `open` does not fail halfway, and a later one is only made while the acceptor is
open. -/
def Repeatable (acceptor : Acceptor) : Action → Prop
  | .open endpoint outcomes =>
      (acceptor.pimpl = none → ¬ FailsHalfway outcomes endpoint) ∧
        (acceptor.pimpl.isSome = true → acceptor.isOpen = some true)
  | .close => True

theorem atomic_step_iff {acceptor next : Acceptor} {action : Action}
    (hstep : step acceptor action = some next) :
    Atomic acceptor action next ↔ Repeatable acceptor action := by
  cases action with
  | close => exact Iff.rfl
  | «open» endpoint outcomes =>
      obtain ⟨⟨result, next'⟩, hopen, rfl⟩ := Option.map_eq_some_iff.mp hstep
      have hatomic : Atomic acceptor (.open endpoint outcomes) next' ↔
          (∀ e, result = .error e → acceptor.isOpen ≠ some true →
            next'.isOpen ≠ some true ∧ next'.isBound ≠ some true) ∧
          ((∃ e, result = .error e ∧ e.Is EISCONN) ↔ acceptor.isOpen = some true) := by
        constructor
        · exact fun hatomic => hatomic result hopen
        · intro hresult result' hopen'
          obtain ⟨rfl, _⟩ := Prod.mk.inj (Option.some.inj (hopen.symm.trans hopen'))
          exact hresult
      rw [hatomic]
      rcases Acceptor.open_eq_some hopen with ⟨hsome, hnext, hresult⟩ |
        ⟨hnone, impl, hnext, hattempted⟩
      · -- the error is `ISCONN`, so the acceptor has to be open
        have hrefused : ∃ e, result = .error e ∧ e.Is EISCONN := ⟨_, hresult, rfl, rfl⟩
        constructor
        · rintro ⟨_, hiff⟩
          exact ⟨fun hnone => by simp [hnone] at hsome, fun _ => hiff.mp hrefused⟩
        · rintro ⟨_, hopened⟩
          exact ⟨fun _ _ hclosed => absurd (hopened hsome) hclosed,
            fun _ => hopened hsome, fun _ => hrefused⟩
      · have hclosed : acceptor.isOpen ≠ some true := by simp [Acceptor.isOpen, hnone]
        have haccepted : ¬ ∃ e, result = .error e ∧ e.Is EISCONN := by
          rintro ⟨e, hresult, hconn⟩
          obtain ⟨ec, tag, rfl⟩ := (hattempted.error e hresult).1
          exact not_is_fromAsioError hconn
        have hopened : next'.isOpen = some true ↔ impl.isOpen = true := by
          simp [hnext, Acceptor.isOpen]
        constructor
        · rintro ⟨hleft, _⟩
          refine ⟨fun _ hhalfway => ?_, fun hsome => by simp [hnone] at hsome⟩
          obtain ⟨e, hresult⟩ := hattempted.halfway hhalfway
          apply (hleft e hresult hclosed).1
          exact hopened.mpr ((hattempted.error e hresult).2.mpr hhalfway)
        · rintro ⟨hwhole, _⟩
          refine ⟨fun e hresult _ => ?_, fun h => absurd h haccepted, fun h => absurd h hclosed⟩
          have hnot : ¬ impl.isOpen = true := fun h =>
            hwhole hnone ((hattempted.error e hresult).2.mp h)
          refine ⟨fun h => hnot (hopened.mp h), fun h => hnot (hattempted.bound ?_)⟩
          simpa [hnext, Acceptor.isBound] using h

/-- **Opening.** Along a sequence of calls every `open` is atomic, and refused exactly while the
acceptor is open, if and only if the first one does not fail halfway and every later one is made
while the acceptor is open. -/
theorem atomic_iff_repeatable (actions : List Action) :
    EachStep step Atomic Acceptor.create actions ↔
      Guarded step Repeatable Acceptor.create actions := by
  apply eachStep_congr (fun _ => True) trivial
  · exact fun _ _ _ _ _ => trivial
  · exact fun _ _ _ _ hstep => atomic_step_iff hstep

/-- The address is in use, so the first `open` fails. The next one is refused, even after `close`. -/
theorem not_atomic_of_address_in_use :
    ¬ EachStep step Atomic Acceptor.create
      [.open (.ip ⟨8080, .any⟩) ⟨none, none, some EADDRINUSE, none⟩, .close,
        .open (.ip ⟨8080, .any⟩) ⟨none, none, none, none⟩] := by
  intro heach
  have hagain := ((heach _ rfl).2 _ rfl).2 _ rfl
  have hrefused := (hagain.1 _ rfl).2.mp ⟨_, rfl, by decide⟩
  exact absurd hrefused (by decide)

end Cadence.AcceptorOpen
