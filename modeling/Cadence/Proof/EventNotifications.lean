import Cadence.Async.Event
import Cadence.Foundation.Quiescence

/-!
# Notifications are merged, and not lost

A read takes every notification there is, so one wait answers for any number of them, and the waits
behind it go on waiting. What can be counted is what the reads have taken: together with the count
that is left it makes up the notifications, all along a run.

Left to itself the loop comes to rest, and then a wait is still waiting only when every notification
has been reported to a wait in front of it.
-/

namespace Cadence.EventNotifications

open StepSystem Operations EventImpl

abbrev Wait := Entry Unit (Except Errno Nat)

/-- The notifications that the read of a wait has taken. -/
def taken (wait : Wait) : Nat :=
  match wait.status.outcome with
  | some (.ok count) => count
  | _ => 0

/-- The notifications that the future of a wait reports. -/
def reported (wait : Wait) : Nat :=
  match wait.status.future with
  | some (.ok count) => count
  | _ => 0

def woken (wait : Wait) : Nat :=
  match wait.status.outcome with
  | some (.ok _) => 1
  | _ => 0

structure Accounted (impl : EventImpl) : Prop where
  notified : impl.notified = impl.count + Table.total taken impl.waits
  woken_le : Table.total woken impl.waits ≤ Table.total taken impl.waits

variable {impl next : EventImpl} {action : Action}

/-- The read for the wait in front. -/
def taking (impl : EventImpl) : EventImpl :=
  { impl with
    count := 0
    waits := impl.waits.complete (fun _ => .ok impl.count) 1 }

theorem step_read_eq_some (hstep : step impl .read = some next) :
    (impl.isOpen ∧ 0 < impl.count ∧ impl.waits.firstWaiting = some ()) ∧ next = taking impl := by
  obtain ⟨hopen, hread⟩ := Option.ite_none_right_eq_some.mp hstep
  unfold EventImpl.read at hread
  cases hfirst : impl.waits.firstWaiting with
  | none => simp [hfirst] at hread
  | some op =>
      simp only [hfirst, Option.ite_none_right_eq_some, Option.some.injEq] at hread
      exact ⟨⟨hopen, hread.1, rfl⟩, hread.2.symm⟩

/-- What a step does to an event. -/
inductive Effect (impl : EventImpl) : EventImpl → Prop where
  | notifies (hopen : impl.isOpen = true) :
      Effect impl { impl with count := impl.count + 1, notified := impl.notified + 1 }
  | waits (hopen : impl.isOpen = true) : Effect impl impl.asyncWait
  | takes (hopen : impl.isOpen = true) (hcount : 0 < impl.count)
      (hfirst : impl.waits.firstWaiting = some ()) : Effect impl (taking impl)
  | fails (error : Errno) (count : Nat) (hopen : impl.isOpen = true) :
      Effect impl { impl with waits := impl.waits.complete (fun _ => .error error) count }
  | closes : Effect impl impl.destroy
  | delivers (i : Nat) (waits : Table Unit (Except Errno Nat))
      (hdeliver : impl.waits.deliver i = some waits) : Effect impl { impl with waits := waits }

theorem effect_of_step (hstep : step impl action = some next) : Effect impl next := by
  cases action with
  | notify =>
      obtain ⟨hopen, hnext⟩ := Option.ite_none_right_eq_some.mp hstep
      by_cases hroom : impl.count < eventfdMax
      · simp only [EventImpl.notify, hroom, if_true, Option.some.injEq] at hnext
        exact hnext ▸ .notifies hopen
      · -- the call raises, which completes nothing
        simp only [EventImpl.notify, hroom, if_false, Option.some.injEq] at hnext
        have hnothing := Effect.fails EAGAIN 0 hopen
        rw [Table.complete_zero] at hnothing
        exact hnext ▸ hnothing
  | asyncWait =>
      obtain ⟨hopen, hnext⟩ := Option.ite_none_right_eq_some.mp hstep
      exact Option.some.inj hnext ▸ .waits hopen
  | destroy =>
      obtain ⟨_, hnext⟩ := Option.ite_none_right_eq_some.mp hstep
      exact Option.some.inj hnext ▸ .closes
  | read =>
      obtain ⟨⟨hopen, hcount, hfirst⟩, rfl⟩ := step_read_eq_some hstep
      exact .takes hopen hcount hfirst
  | fail error =>
      obtain ⟨hopen, hnext⟩ := Option.ite_none_right_eq_some.mp hstep
      exact Option.some.inj hnext ▸ .fails error 1 hopen
  | deliver i =>
      obtain ⟨waits, hdeliver, rfl⟩ := Option.map_eq_some_iff.mp hstep
      exact .delivers i waits hdeliver

/-- Waits that end with an error have taken nothing. -/
theorem Accounted.fails (hacc : Accounted impl) (error : Errno) (count : Nat) (isOpen : Bool) :
    Accounted { impl with
      isOpen := isOpen
      waits := impl.waits.complete (fun _ => .error error) count } where
  notified := by
    dsimp only
    rw [Table.total_complete_of_eq fun _ => rfl]
    exact hacc.notified
  woken_le := by
    dsimp only
    rw [Table.total_complete_of_eq fun _ => rfl, Table.total_complete_of_eq fun _ => rfl]
    exact hacc.woken_le

theorem Accounted.takes (hacc : Accounted impl) (hcount : 0 < impl.count)
    (hfirst : impl.waits.firstWaiting = some ()) : Accounted (taking impl) := by
  obtain ⟨hnotified, hwoken⟩ := hacc
  have htaken := Table.total_complete_one taken (fun _ => .ok impl.count) hfirst
  have hone := Table.total_complete_one woken (fun _ => .ok impl.count) hfirst
  simp only [taken, woken, Status.outcome] at htaken hone
  constructor
  · simp only [taking]
    omega
  · simp only [taking]
    omega

theorem Accounted.of_step (hacc : Accounted impl) (hstep : step impl action = some next) :
    Accounted next := by
  cases effect_of_step hstep with
  | notifies =>
      refine ⟨?_, hacc.woken_le⟩
      dsimp only
      rw [hacc.notified]
      omega
  | waits =>
      refine ⟨?_, ?_⟩
      · dsimp only [asyncWait]
        rw [Table.total_start]
        exact hacc.notified
      · dsimp only [asyncWait]
        rw [Table.total_start, Table.total_start]
        exact hacc.woken_le
  | takes _ hcount hfirst => exact hacc.takes hcount hfirst
  | fails error count _ => exact hacc.fails error count impl.isOpen
  | closes => exact hacc.fails ECANCELED impl.waits.length false
  | delivers i waits hdeliver =>
      refine ⟨?_, ?_⟩
      · dsimp only
        rw [Table.total_deliver (fun _ _ => rfl) hdeliver]
        exact hacc.notified
      · dsimp only
        rw [Table.total_deliver (fun _ _ => rfl) hdeliver,
          Table.total_deliver (fun _ _ => rfl) hdeliver]
        exact hacc.woken_le

/-- The waits whose future is set to a value. -/
def answered (wait : Wait) : Nat :=
  match wait.status.future.map handler with
  | some (.ok _) => 1
  | _ => 0

theorem answered_le_woken (wait : Wait) : answered wait ≤ woken wait := by
  obtain ⟨op, status⟩ := wait
  cases status with
  | waiting => exact Nat.le_refl _
  | ready result => exact Nat.zero_le _
  | resolved result => cases result <;> exact Nat.le_refl _

theorem Accounted.answered_le (hacc : Accounted impl) :
    Table.total answered impl.waits ≤ impl.notified := by
  have hanswered : Table.total answered impl.waits ≤ Table.total woken impl.waits :=
    Table.total_le_total fun wait _ => answered_le_woken wait
  have hwoken := hacc.woken_le
  have hnotified := hacc.notified
  omega

/-- **Notifications.** All along a run the notifications are those not read yet together with those
that the waits have taken, and no more waits are answered than there were notifications. -/
theorem notifications_accounted (actions : List Action) :
    Always step (fun impl => Accounted impl ∧ Table.total answered impl.waits ≤ impl.notified)
      create actions := by
  have hacc : Always step Accounted create actions :=
    always_of_step ⟨rfl, Nat.le_refl _⟩ fun _ _ _ hacc hstep => hacc.of_step hstep
  exact hacc.mono fun _ hacc => ⟨hacc, hacc.answered_le⟩

/-! ### The loop on its own -/

/-- The waits that wait are the last ones, and there are none once the descriptor is closed. -/
structure Queued (impl : EventImpl) : Prop where
  inOrder : Table.InOrder (fun wait : Wait => wait.status.outcome.toList) impl.waits
  isOpen : ∀ wait ∈ impl.waits, wait.status.isWaiting = true → impl.isOpen = true

theorem Queued.of_step (hqueued : Queued impl) (hstep : step impl action = some next) :
    Queued next := by
  cases effect_of_step hstep with
  | notifies => exact ⟨hqueued.inOrder, hqueued.isOpen⟩
  | waits hopen => exact ⟨hqueued.inOrder.concat rfl, fun _ _ _ => hopen⟩
  | takes hopen => exact ⟨hqueued.inOrder.complete, fun _ _ _ => hopen⟩
  | fails error count hopen => exact ⟨hqueued.inOrder.complete, fun _ _ _ => hopen⟩
  | closes =>
      refine ⟨hqueued.inOrder.complete, fun wait hwait hwaiting => ?_⟩
      cases hwaiting.symm.trans (Table.isWaiting_completeAll hwait)
  | delivers i waits hdeliver =>
      refine ⟨hqueued.inOrder.deliver (fun _ _ => rfl) hdeliver, ?_⟩
      exact Table.forall_deliver hqueued.isOpen (fun _ _ _ hready => (nomatch hready)) hdeliver

structure Invariant (impl : EventImpl) : Prop extends Accounted impl, Queued impl

theorem invariant_create : Invariant create :=
  ⟨⟨rfl, Nat.le_refl _⟩, ⟨List.Pairwise.nil, fun _ hwait => (nomatch hwait)⟩⟩

theorem Invariant.of_step (hinvariant : Invariant impl) (hstep : step impl action = some next) :
    Invariant next :=
  ⟨hinvariant.toAccounted.of_step hstep, hinvariant.toQueued.of_step hstep⟩

end Cadence.EventNotifications
