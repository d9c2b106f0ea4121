import Cadence.Foundation.StepSystem

/-!
# Simulation

Two step systems, one of which makes steps that the other does not have. The finer system mirrors the
coarser one when each of its runs, seen through a view and without the additional steps, is a run of
the coarser system, one that gets stuck included.

A relation between the states shows this action by action. An action that would leave the relation is
excluded by a guard, and the guard is the exact condition when the two systems part at each such action.
-/

theorem Option.Rel.bind {α β γ δ : Type*} {r : α → β → Prop} {q : γ → δ → Prop} {x : Option α}
    {y : Option β} {f : α → Option γ} {g : β → Option δ} (hrel : Option.Rel r x y)
    (hstep : ∀ a b, x = Option.some a → r a b → Option.Rel q (f a) (g b)) :
    Option.Rel q (x.bind f) (y.bind g) := by
  cases hrel with
  | some hab => exact hstep _ _ rfl hab
  | none => exact .none

/-- A function that fails exactly where the other fails, folded over a list. -/
theorem Option.Rel.foldlM {α β γ : Type*} {r : α → β → Prop} {f : α → γ → Option α}
    {g : β → γ → Option β} (hstep : ∀ a b c, r a b → Option.Rel r (f a c) (g b c))
    (list : List γ) {a : α} {b : β} (hab : r a b) :
    Option.Rel r (list.foldlM f a) (list.foldlM g b) := by
  induction list generalizing a b with
  | nil => exact .some hab
  | cons c list ih => exact (hstep a b c hab).bind fun _ _ _ hnext => ih hnext

namespace StepSystem

variable {State State' Action Action' : Type*} (step : State → Action → Option State)
  (step' : State' → Action' → Option State') (view : State → Option State')
  (erase : Action → Option Action')

/-- Every action of the run is taken in a state that meets the guard, an action with no successor
included. -/
def Respects (guard : State → Action → Prop) : State → List Action → Prop
  | _, [] => True
  | state, action :: actions =>
      guard state action ∧ ∀ next, step state action = some next → Respects guard next actions

def Mirrors (state : State) (state' : State') (actions : List Action) : Prop :=
  ∀ first, first <+: actions →
    (run step state first).bind view = run step' state' (first.filterMap erase)

/-- An action in the coarser system, which may not have it. -/
def advance (state' : State') (action : Action) : Option State' :=
  match erase action with
  | some action' => step' state' action'
  | none => some state'

variable {step step' view erase} {guard : State → Action → Prop} {related : State → State' → Prop}
  {state : State} {state' : State'} {action : Action} {actions : List Action}

theorem run_filterMap_cons :
    run step' state' ((action :: actions).filterMap erase) =
      (advance step' erase state' action).bind fun next =>
        run step' next (actions.filterMap erase) := by
  unfold advance
  cases herase : erase action with
  | some action' => simp [herase, run]
  | none => simp [herase]

theorem Respects.of_prefix (hrespects : Respects step guard state actions) {first : List Action}
    (hfront : first <+: actions) : Respects step guard state first := by
  induction actions generalizing state first with
  | nil =>
      rw [List.prefix_nil.mp hfront]
      trivial
  | cons action actions ih =>
      cases first with
      | nil => trivial
      | cons head first =>
          obtain ⟨rfl, htail⟩ := List.cons_prefix_cons.mp hfront
          exact ⟨hrespects.1, fun next hnext => ih (hrespects.2 next hnext) htail⟩

theorem rel_run (hinit : related state state')
    (hstep : ∀ state state' action, related state state' → guard state action →
      Option.Rel related (step state action) (advance step' erase state' action))
    (hrespects : Respects step guard state actions) :
    Option.Rel related (run step state actions) (run step' state' (actions.filterMap erase)) := by
  induction actions generalizing state state' with
  | nil => exact .some hinit
  | cons action actions ih =>
      rw [run_filterMap_cons]
      apply (hstep state state' action hinit hrespects.1).bind
      intro next next' hnext hrel
      exact ih hrel (hrespects.2 next hnext)

/-- The exact condition of a simulation that holds up to a guard. -/
theorem mirrors_iff_respects (related : State → State' → Prop) (hinit : related state state')
    (hview : ∀ state state', related state state' → view state = some state')
    (hstep : ∀ state state' action, related state state' → guard state action →
      Option.Rel related (step state action) (advance step' erase state' action))
    (hbroken : ∀ state state' action, related state state' → ¬ guard state action →
      (step state action).bind view ≠ advance step' erase state' action) :
    Mirrors step step' view erase state state' actions ↔ Respects step guard state actions := by
  constructor
  · intro hmirrors
    induction actions generalizing state state' with
    | nil => trivial
    | cons action actions ih =>
        have hone := hmirrors [action] (List.prefix_append [action] actions)
        rw [run_filterMap_cons] at hone
        simp only [run, List.filterMap_nil, Option.bind_fun_some] at hone
        have hguard : guard state action :=
          Classical.not_not.mp fun hmiss => hbroken state state' action hinit hmiss hone
        refine ⟨hguard, fun next hnext => ?_⟩
        have hrel := hstep state state' action hinit hguard
        rw [hnext] at hrel
        cases hadvance : advance step' erase state' action with
        | none => simp [hadvance] at hrel
        | some next' =>
            rw [hadvance, Option.rel_some_some] at hrel
            refine ih hrel fun first hfront => ?_
            have hfirst := hmirrors (action :: first) (List.cons_prefix_cons.mpr ⟨rfl, hfront⟩)
            rw [run_filterMap_cons, hadvance] at hfirst
            simpa [run, hnext] using hfirst
  · intro hrespects first hfront
    have hrel := rel_run hinit hstep (hrespects.of_prefix hfront)
    revert hrel
    cases run step state first with
    | none =>
        cases run step' state' (first.filterMap erase) with
        | none => exact fun _ => rfl
        | some last' => simp
    | some last =>
        cases run step' state' (first.filterMap erase) with
        | none => simp
        | some last' => exact fun hlast => hview last last' (Option.rel_some_some.mp hlast)

end StepSystem
