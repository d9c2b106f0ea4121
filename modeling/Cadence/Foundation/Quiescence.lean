import Cadence.Foundation.StepSystem

/-!
# Coming to rest

Some actions of a system are its own: it takes them whenever it can, in an order that nobody outside
chooses. The system settles in a state when its own actions come to an end in that state and in no
other, whatever their order.

The rule for it asks for two things of a single step: that less remains to be done after it, and that
it does not change the state in which the system is going to settle. Where the state does depend on
the order, the system comes to rest all the same, and the rule for that asks for an invariant in place
of the second.
-/

namespace StepSystem

variable {State Action : Type*} (step : State → Action → Option State) (own : Action → Prop)

/-- The system can do nothing more on its own. -/
def AtRest (state : State) : Prop := ∀ action, own action → step state action = none

/-- The system comes to rest whatever it does on its own, and then has the property. -/
structure ComesToRest (property : State → Prop) (state : State) (bound : Nat) : Prop where
  bounded : ∀ actions last, (∀ action ∈ actions, own action) →
    run step state actions = some last → actions.length ≤ bound
  reached : ∃ actions last, (∀ action ∈ actions, own action) ∧
    run step state actions = some last ∧ AtRest step own last
  rested : ∀ actions last, (∀ action ∈ actions, own action) →
    run step state actions = some last → AtRest step own last → property last

variable {step own} {invariant : State → Prop} {remaining : State → Nat} {settle : State → State}
  {state last : State} {actions : List Action}

theorem length_add_le_of_run
    (hless : ∀ state action next, invariant state → own action → step state action = some next →
      invariant next ∧ remaining next < remaining state)
    (hinit : invariant state) (hown : ∀ action ∈ actions, own action)
    (hrun : run step state actions = some last) :
    actions.length + remaining last ≤ remaining state := by
  induction actions generalizing state with
  | nil =>
      obtain rfl := Option.some.inj hrun
      simp
  | cons action actions ih =>
      obtain ⟨next, hnext, hrun⟩ := Option.bind_eq_some_iff.mp hrun
      obtain ⟨haction, hactions⟩ := List.forall_mem_cons.mp hown
      obtain ⟨hinvariant, hfirst⟩ := hless state action next hinit haction hnext
      have hrest := ih hinvariant hactions hrun
      rw [List.length_cons]
      omega

theorem exists_run_atRest
    (hless : ∀ state action next, invariant state → own action → step state action = some next →
      invariant next ∧ remaining next < remaining state) (hinit : invariant state) :
    ∃ actions last, (∀ action ∈ actions, own action) ∧ run step state actions = some last ∧
      AtRest step own last := by
  induction hbound : remaining state using Nat.strongRecOn generalizing state with
  | ind bound ih =>
      by_cases hrest : AtRest step own state
      · exact ⟨[], state, by simp, rfl, hrest⟩
      · simp only [AtRest, not_forall] at hrest
        obtain ⟨action, haction, hstep⟩ := hrest
        obtain ⟨next, hnext⟩ := Option.ne_none_iff_exists'.mp hstep
        obtain ⟨hinvariant, hfirst⟩ := hless state action next hinit haction hnext
        obtain ⟨actions, last, hactions, hrun, hlast⟩ :=
          ih (remaining next) (hbound ▸ hfirst) hinvariant rfl
        refine ⟨action :: actions, last, List.forall_mem_cons.mpr ⟨haction, hactions⟩, ?_, hlast⟩
        rw [run, hnext, Option.bind_some, hrun]

theorem comesToRest {property : State → Prop} (remaining : State → Nat)
    (hless : ∀ state action next, invariant state → own action → step state action = some next →
      remaining next < remaining state)
    (hstep : ∀ state action next, invariant state → step state action = some next → invariant next)
    (hrest : ∀ state, invariant state → AtRest step own state → property state)
    (state : State) (hinit : invariant state) :
    ComesToRest step own property state (remaining state) := by
  have hless' : ∀ state action next, invariant state → own action →
      step state action = some next → invariant next ∧ remaining next < remaining state :=
    fun state action next hinvariant haction hnext =>
      ⟨hstep state action next hinvariant hnext, hless state action next hinvariant haction hnext⟩
  constructor
  · intro actions last hown hrun
    have hlength := length_add_le_of_run hless' hinit hown hrun
    omega
  · exact exists_run_atRest hless' hinit
  · intro actions last _ hrun hlast
    exact hrest last (invariant_of_run hinit hstep hrun) hlast

end StepSystem
