import Mathlib.Data.List.Basic

/-!
# Runs of a step function

A component with effects is a step function: an action carries the caller's arguments together with
the choices of the environment, and an action the environment cannot take has no successor. A safety
property is then a property of every state a run visits.

The rule used most is `always_iff_guarded`. It is for a property that the component keeps only under
a condition: the run visits good states alone exactly when each of its steps meets the condition, and
the condition is read off the state the step is taken from.
-/

namespace StepSystem

variable {State Action : Type*} (step : State → Action → Option State)

def run : State → List Action → Option State
  | state, [] => some state
  | state, action :: actions => (step state action).bind fun next => run next actions

/-- Every state the run visits, the first and the last included, satisfies `property`. -/
def Always (property : State → Prop) : State → List Action → Prop
  | state, [] => property state
  | state, action :: actions =>
      property state ∧ ∀ next, step state action = some next → Always property next actions

def EachStep (relation : State → Action → State → Prop) : State → List Action → Prop
  | _, [] => True
  | state, action :: actions =>
      ∀ next, step state action = some next →
        relation state action next ∧ EachStep relation next actions

abbrev Guarded (guard : State → Action → Prop) : State → List Action → Prop :=
  EachStep step fun state action _ => guard state action

instance decidableEachStep (relation : State → Action → State → Prop)
    [∀ state action next, Decidable (relation state action next)] :
    ∀ state actions, Decidable (EachStep step relation state actions)
  | _, [] => isTrue trivial
  | state, action :: actions =>
      match hstep : step state action with
      | none => isTrue fun next hnext => by simp [hstep] at hnext
      | some next =>
          have := decidableEachStep relation next actions
          decidable_of_iff (relation state action next ∧ EachStep step relation next actions)
            ⟨fun h next' hnext => by
              obtain rfl : next = next' := Option.some.inj (hstep.symm.trans hnext)
              exact h, fun h => h next hstep⟩

variable {step} {property invariant : State → Prop} {guard : State → Action → Prop}
  {relation relation' : State → Action → State → Prop} {state : State} {actions : List Action}

theorem Always.head (halways : Always step property state actions) : property state := by
  cases actions with
  | nil => exact halways
  | cons action actions => exact halways.1

theorem always_iff_forall_run :
    Always step property state actions ↔
      ∀ first reached, first <+: actions → run step state first = some reached →
        property reached := by
  induction actions generalizing state with
  | nil =>
      constructor
      · intro hstate first reached hfront hrun
        rw [List.prefix_nil.mp hfront] at hrun
        obtain rfl : state = reached := Option.some.inj hrun
        exact hstate
      · intro hall
        exact hall [] state (List.prefix_refl _) rfl
  | cons action actions ih =>
      constructor
      · rintro ⟨hstate, hrest⟩ first reached hfront hrun
        cases first with
        | nil =>
            obtain rfl : state = reached := Option.some.inj hrun
            exact hstate
        | cons head first =>
            obtain ⟨rfl, htail⟩ := List.cons_prefix_cons.mp hfront
            obtain ⟨next, hnext, hrun⟩ := Option.bind_eq_some_iff.mp hrun
            exact ih.mp (hrest next hnext) first reached htail hrun
      · intro hall
        refine ⟨hall [] state (List.nil_prefix) rfl, fun next hnext => ih.mpr ?_⟩
        intro first reached hfront hrun
        refine hall (action :: first) reached (List.cons_prefix_cons.mpr ⟨rfl, hfront⟩) ?_
        simp [run, hnext, hrun]

theorem Always.of_run {last : State} (halways : Always step property state actions)
    (hrun : run step state actions = some last) : property last :=
  always_iff_forall_run.mp halways actions last (List.prefix_refl _) hrun

theorem Always.mono {property' : State → Prop} (himp : ∀ state, property state → property' state)
    (halways : Always step property state actions) : Always step property' state actions := by
  induction actions generalizing state with
  | nil => exact himp _ halways
  | cons action actions ih =>
      exact ⟨himp _ halways.1, fun next hnext => ih (halways.2 next hnext)⟩

theorem always_of_guarded (hinit : invariant state)
    (hstep : ∀ state action next, invariant state → step state action = some next →
      guard state action → invariant next)
    (hguarded : Guarded step guard state actions) :
    Always step invariant state actions := by
  induction actions generalizing state with
  | nil => exact hinit
  | cons action actions ih =>
      refine ⟨hinit, fun next hnext => ?_⟩
      obtain ⟨hguard, hrest⟩ := hguarded next hnext
      exact ih (hstep state action next hinit hnext hguard) hrest

theorem always_of_step (hinit : invariant state)
    (hstep : ∀ state action next, invariant state → step state action = some next →
      invariant next) : Always step invariant state actions := by
  induction actions generalizing state with
  | nil => exact hinit
  | cons action actions ih =>
      exact ⟨hinit, fun next hnext => ih (hstep state action next hinit hnext)⟩

/-- The exact condition of a property. The invariant implies the property and is kept by each step
that meets the guard, and a step that misses the guard leaves the property broken: then the property
holds all along the run exactly when each step of it meets the guard. -/
theorem always_iff_guarded (invariant : State → Prop) (hinit : invariant state)
    (hproperty : ∀ state, invariant state → property state)
    (hstep : ∀ state action next, invariant state → step state action = some next →
      guard state action → invariant next)
    (hbroken : ∀ state action next, invariant state → step state action = some next →
      property next → guard state action) :
    Always step property state actions ↔ Guarded step guard state actions := by
  constructor
  · intro halways
    induction actions generalizing state with
    | nil => trivial
    | cons action actions ih =>
        intro next hnext
        have hrest := halways.2 next hnext
        have hguard := hbroken state action next hinit hnext hrest.head
        exact ⟨hguard, ih (hstep state action next hinit hnext hguard) hrest⟩
  · intro hguarded
    exact (always_of_guarded hinit hstep hguarded).mono hproperty

theorem invariant_of_run {last : State} (hinit : invariant state)
    (hstep : ∀ state action next, invariant state → step state action = some next →
      invariant next)
    (hrun : run step state actions = some last) : invariant last := by
  induction actions generalizing state with
  | nil =>
      obtain rfl := Option.some.inj hrun
      exact hinit
  | cons action actions ih =>
      obtain ⟨next, hnext, hrun⟩ := Option.bind_eq_some_iff.mp hrun
      exact ih (hstep state action next hinit hnext) hrun

theorem run_eq_foldlM : run step state actions = actions.foldlM step state := by
  induction actions generalizing state with
  | nil => rfl
  | cons action actions ih =>
      rw [run, List.foldlM_cons]
      exact congrArg _ (funext fun next => ih)

/-- The rule for a function of the component that makes a list of steps itself. -/
theorem invariant_of_foldlM (invariant : State → Prop) {last : State} (hinit : invariant state)
    (hstep : ∀ state action next, invariant state → step state action = some next →
      invariant next)
    (hfold : actions.foldlM step state = some last) : invariant last :=
  invariant_of_run hinit hstep (run_eq_foldlM.trans hfold)

theorem eachStep_of_step (hstep : ∀ state action next, step state action = some next →
      relation state action next) : EachStep step relation state actions := by
  induction actions generalizing state with
  | nil => trivial
  | cons action actions ih => exact fun next hnext => ⟨hstep state action next hnext, ih⟩

theorem eachStep_congr (invariant : State → Prop) (hinit : invariant state)
    (hstep : ∀ state action next, invariant state → step state action = some next →
      invariant next)
    (hiff : ∀ state action next, invariant state → step state action = some next →
      (relation state action next ↔ relation' state action next)) :
    EachStep step relation state actions ↔ EachStep step relation' state actions := by
  induction actions generalizing state with
  | nil => exact Iff.rfl
  | cons action actions ih =>
      refine forall_congr' fun next => forall_congr' fun hnext => ?_
      exact and_congr (hiff state action next hinit hnext)
        (ih (hstep state action next hinit hnext))

end StepSystem
