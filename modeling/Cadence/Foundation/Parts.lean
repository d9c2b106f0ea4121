import Cadence.Foundation.StepSystem

/-!
# Systems made of parts

A part of a system has a state of its own, which the state of the system determines, and steps of its
own. The part is independent of the rest when an action of the system either is a step of the part,
one that can be told from the state in which the action is taken, or leaves the part as it is.

Seen through an independent part, a run of the whole system is a run of the part alone. So the rest of
the system can do what it likes: the part comes out the same.
-/

namespace StepSystem

variable {State State' Action Action' : Type*} (step : State → Action → Option State)
  (step' : State' → Action' → Option State')

/-- The steps of the part that a run makes, if `local` tells them. -/
def concerning (part : State → Action → Option Action') : State → List Action → List Action'
  | _, [] => []
  | state, action :: actions =>
      match step state action with
      | none => []
      | some next => (part state action).toList ++ concerning part next actions

/-- An action is a step of the part or leaves the part as it is, in every state with the invariant. -/
structure Independent (view : State → State') (part : State → Action → Option Action')
    (invariant : State → Prop) : Prop where
  kept : ∀ state action next, invariant state → step state action = some next → invariant next
  moves : ∀ state action next action', invariant state → step state action = some next →
    part state action = some action' → step' (view state) action' = some (view next)
  stays : ∀ state action next, invariant state → step state action = some next →
    part state action = none → view next = view state

variable {step step'} {view : State → State'} {part : State → Action → Option Action'}
  {invariant : State → Prop} {state last : State} {actions : List Action}

theorem Independent.run_concerning (hindependent : Independent step step' view part invariant)
    (hinit : invariant state) (hrun : run step state actions = some last) :
    run step' (view state) (concerning step part state actions) = some (view last) := by
  induction actions generalizing state with
  | nil =>
      obtain rfl := Option.some.inj hrun
      rfl
  | cons action actions ih =>
      obtain ⟨next, hnext, hrun⟩ := Option.bind_eq_some_iff.mp hrun
      have hrest := ih (hindependent.kept state action next hinit hnext) hrun
      rw [concerning, hnext]
      cases hpart : part state action with
      | none =>
          rw [← hindependent.stays state action next hinit hnext hpart]
          exact hrest
      | some action' =>
          have hmoves := hindependent.moves state action next action' hinit hnext hpart
          simp only [Option.toList, List.cons_append, List.nil_append, run, hmoves, Option.bind_some]
          exact hrest

end StepSystem
