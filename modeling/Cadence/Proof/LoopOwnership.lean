import Cadence.Async.ChannelObject
import Cadence.Foundation.StepSystem

/-!
# Channels and their loops

A move constructor moves the loop pointer and the implementation together, and so does the assignment
of a stream socket. Every other assignment, and every swap, exchanges the implementations alone.
-/

namespace Cadence.LoopOwnership

open Channels StepSystem

/-- A channel with an implementation has the loop on which that was created. -/
def KnowsLoop (channel : Channel) : Prop :=
  ∀ impl, channel.pimpl = some impl → channel.ioContext = some impl.loop

/-- The two channels have the same loop pointer, or neither has an implementation. -/
def OnOneLoop (channels : Channels) (lhs rhs : Nat) : Prop :=
  ∀ x ∈ channels lhs, ∀ y ∈ channels rhs,
    x.ioContext = y.ioContext ∨ x.pimpl = none ∧ y.pimpl = none

def KeepsLoops (channelClass : ChannelClass) (channels : Channels) : Action → Prop
  | .swap lhs rhs => OnOneLoop channels lhs rhs
  | .moveAssign lhs rhs => channelClass = .streamSocket ∨ OnOneLoop channels lhs rhs
  | _ => True

variable {channels next : Channels} {lhs rhs : Nat}

theorem KnowsLoop.of_none {ioContext : Option EventLoop} : KnowsLoop ⟨ioContext, none⟩ := by
  intro impl himpl
  cases himpl

theorem all_moveConstruct (hall : channels.All KnowsLoop)
    (hmove : channels.moveConstruct lhs rhs = some next) : next.All KnowsLoop := by
  unfold Channels.moveConstruct at hmove
  split at hmove
  next =>
    obtain ⟨y, hy, rfl⟩ := Option.map_eq_some_iff.mp hmove
    exact (hall.put .of_none).put (hall rhs y hy)
  next => cases hmove

theorem all_swap_iff (hall : channels.All KnowsLoop)
    (hswap : channels.swap lhs rhs = some next) :
    next.All KnowsLoop ↔ OnOneLoop channels lhs rhs := by
  obtain ⟨x, hx, hrest⟩ := Option.bind_eq_some_iff.mp hswap
  obtain ⟨y, hy, hnext⟩ := Option.bind_eq_some_iff.mp hrest
  obtain rfl := Option.some.inj hnext
  constructor
  · intro hswapped x' hx' y' hy'
    obtain rfl := Option.some.inj (hx.symm.trans hx')
    obtain rfl := Option.some.inj (hy.symm.trans hy')
    by_cases heq : lhs = rhs
    · rw [heq] at hx
      exact Or.inl (by rw [Option.some.inj (hx.symm.trans hy)])
    · obtain ⟨hleft, hright⟩ := hswapped.of_put_put heq
      cases hxp : x.pimpl with
      | some impl => exact Or.inl ((hall lhs x hx impl hxp).trans (hright impl hxp).symm)
      | none =>
          cases hyp : y.pimpl with
          | some impl => exact Or.inl ((hleft impl hyp).trans (hall rhs y hy impl hyp).symm)
          | none => exact Or.inr ⟨rfl, rfl⟩
  · intro hone
    rcases hone x hx y hy with hloop | ⟨hxp, hyp⟩
    · refine (hall.put fun impl himpl => ?_).put fun impl himpl => ?_
      · exact hloop.trans (hall rhs y hy impl himpl)
      · exact hloop.symm.trans (hall lhs x hx impl himpl)
    · rw [hxp, hyp]
      exact (hall.put .of_none).put .of_none

theorem all_moveAssign_streamSocket (hall : channels.All KnowsLoop)
    (hassign : moveAssign .streamSocket channels lhs rhs = some next) : next.All KnowsLoop := by
  obtain ⟨middle, hswap, hmove⟩ := Option.bind_eq_some_iff.mp hassign
  obtain ⟨x, hx, hrest⟩ := Option.bind_eq_some_iff.mp hswap
  obtain ⟨y, hy, hmiddle⟩ := Option.bind_eq_some_iff.mp hrest
  obtain rfl := Option.some.inj hmiddle
  obtain ⟨y', hy', hrest⟩ := Option.bind_eq_some_iff.mp hmove
  obtain ⟨x', hx', hnext⟩ := Option.bind_eq_some_iff.mp hrest
  obtain rfl := Option.some.inj hnext
  rw [ObjectStore.put_self] at hy'
  obtain rfl := Option.some.inj hy'
  by_cases heq : lhs = rhs
  · subst heq
    obtain rfl := Option.some.inj (hx.symm.trans hy)
    rw [ObjectStore.put_self] at hx'
    obtain rfl := Option.some.inj hx'
    -- a self-assignment writes the channel four times, the last time as it was
    rw [ObjectStore.put_put, ObjectStore.put_put, ObjectStore.put_put]
    exact hall.put (hall lhs x hx)
  · rw [ObjectStore.put_of_ne heq, ObjectStore.put_of_ne heq, ObjectStore.put_self] at hx'
    obtain rfl := Option.some.inj hx'
    rw [ObjectStore.put_put, ObjectStore.put_comm heq, ObjectStore.put_put]
    exact (hall.put .of_none).put (hall rhs y hy)

theorem all_step_iff {channelClass : ChannelClass} {action : Action}
    (hall : channels.All KnowsLoop) (hstep : step channelClass channels action = some next) :
    next.All KnowsLoop ↔ KeepsLoops channelClass channels action := by
  cases action with
  | construct lhs loop =>
      simp only [step, Channels.construct] at hstep
      split at hstep
      next =>
        obtain rfl := Option.some.inj hstep
        refine iff_of_true (hall.put fun impl himpl => ?_) trivial
        obtain rfl := Option.some.inj himpl
        rfl
      next => cases hstep
  | moveConstruct lhs rhs => exact iff_of_true (all_moveConstruct hall hstep) trivial
  | swap lhs rhs => exact all_swap_iff hall hstep
  | destroy lhs =>
      obtain rfl := Option.some.inj hstep
      exact iff_of_true hall.remove trivial
  | moveAssign lhs rhs =>
      cases channelClass
      case streamSocket =>
        exact iff_of_true (all_moveAssign_streamSocket hall hstep) (Or.inl rfl)
      all_goals exact (all_swap_iff hall hstep).trans (by simp [KeepsLoops])

/-- **Loops.** All along a run every channel that has an implementation knows the loop that was
created on, exactly when implementations are only ever exchanged between channels of one loop. -/
theorem knowsLoop_iff_keepsLoops (channelClass : ChannelClass) (actions : List Action) :
    Always (step channelClass) (ObjectStore.All KnowsLoop) (fun _ => none) actions ↔
      Guarded (step channelClass) (KeepsLoops channelClass) (fun _ => none) actions := by
  apply always_iff_guarded (ObjectStore.All KnowsLoop)
  · intro loc object hobject
    cases hobject
  · exact fun _ hall => hall
  · exact fun _ _ _ hall hstep hguard => (all_step_iff hall hstep).mpr hguard
  · exact fun _ _ _ hall hstep hnext => (all_step_iff hall hstep).mp hnext

/-- A pipe is moved away and moved back, all on one loop. -/
theorem not_knowsLoop_of_moving_back :
    ¬ Always (step .pipe) (ObjectStore.All KnowsLoop) (fun _ => none)
      [.construct 0 1, .moveConstruct 1 0, .moveAssign 0 1] := by
  intro halways
  have hknows := halways.of_run rfl
  have hloop := hknows 0 ⟨none, some ⟨1⟩⟩ (by decide) ⟨1⟩ rfl
  cases hloop

end Cadence.LoopOwnership
