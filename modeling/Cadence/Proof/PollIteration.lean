import Cadence.Foundation.StepSystem
import Cadence.Io.SelectorPoll
import Mathlib.Data.List.NodupEquivFin
import Mathlib.Order.WellFounded

/-!
# Changing the registrations while iterating

The iterator over the result of `poll` keeps the number of entries there were at the time of the
call, and `advance` answers with the number there are now when no further entry is ready. The two
agree on where the iteration ends only while registrations come and go in equal numbers, and an
index stays inside the tables only while enough of them are left. That is the exact condition under
which the loop `for (i = s.poll(); i != i.end(); ++i) *i` is in range throughout and ends.
-/

namespace Cadence.PollIteration

open Selector StepSystem

inductive Call (Data : Type) where
  | add (fd : PollId) (events : BitVec 32) (data : Data)
  | addRaw (fd : PollId) (nativeEvents : BitVec 32) (data : Data)
  | remove (fd : PollId)

variable {Data : Type}

def apply (impl : PollSelectorImpl Data) : Call Data → PollSelectorImpl Data
  | .add fd events data => impl.add fd events data
  | .addRaw fd nativeEvents data => impl.addRaw fd nativeEvents data
  | .remove fd => impl.remove fd

/-- The loop is about to compare the iterator with the end, or has dereferenced it. -/
inductive Phase where
  | test
  | body
  deriving DecidableEq

structure Session (Data : Type) where
  impl : PollSelectorImpl Data
  it : Iterator
  phase : Phase

abbrev Session.count (session : Session Data) : Nat := session.impl.pollfds.length

inductive Action (Data : Type) where
  | call (call : Call Data)
  | deref
  | increment

/-- An index outside the tables and an exception both end the loop. -/
def step (session : Session Data) : Action Data → Option (Session Data)
  | .call call => some { session with impl := apply session.impl call }
  | .deref =>
      if session.phase = .test ∧ session.it.ne session.it.end' = true then
        match session.impl.getEvent session.it.index with
        | some _ => some { session with phase := .body }
        | none => none
      else none
  | .increment =>
      if session.phase = .body then
        match session.it.increment session.impl.advance with
        | .ok it => some { session with it := it, phase := .test }
        | .error _ => none
      else none

/-- The selector after a history of calls and a `poll` in which the kernel wrote `revents`. -/
def start (history : List (Call Data)) (revents : Nat → BitVec 16) (pimpl : Nat) : Session Data :=
  let impl := (history.foldl apply PollSelectorImpl.create).writeRevents revents
  ⟨impl, poll pimpl impl.rangeOf, .test⟩

/-- What the loop does next is in range: it is over, or the index it hands to `getEvent` lies inside
both tables, or the increment raises nothing. -/
def Safe (session : Session Data) : Prop :=
  match session.phase with
  | .test => session.it.ne session.it.end' = true →
      session.it.index < session.impl.pollfds.length ∧
        session.it.index < session.impl.selectables.length
  | .body => ∃ it, session.it.increment session.impl.advance = .ok it

/-- With no further calls, the loop reaches its end. -/
def Finishes (session : Session Data) : Prop :=
  ∃ actions last, (∀ action ∈ actions, action = .deref ∨ action = .increment) ∧
    run step session actions = some last ∧ last.it.ne last.it.end' = false

/-- The condition on each step. An increment finds a ready entry behind the index, or there are as
many registrations as at the time of `poll`. A `remove` between an increment and the next dereference
leaves more registrations than the index. -/
def Undisturbed (session : Session Data) : Action Data → Prop
  | .increment =>
      (∃ k < session.count, session.it.index < k ∧ session.impl.isReady k = true) ∨
        session.count = session.it.size
  | .call (.remove fd) =>
      session.phase = .body ∨ session.it.index = session.it.size ∨
        session.it.index < session.impl.pollfds.countP fun x => x.fd != fd
  | _ => True

instance (session : Session Data) (action : Action Data) :
    Decidable (Undisturbed session action) := by
  unfold Undisturbed
  split <;> infer_instance

/-- The tables describe the same registrations, and the ready entries lie before the end that the
iterator was given. -/
structure Coupled (session : Session Data) : Prop where
  fds : session.impl.selectables.map Selectable.fd = session.impl.pollfds.map PollFd.fd
  ready : ∀ k, session.impl.isReady k = true → k < session.it.size

structure Invariant (session : Session Data) : Prop extends Coupled session where
  test : session.phase = .test → session.it.index = session.it.size ∨
    session.it.index < session.count ∧ session.it.index < session.it.size
  body : session.phase = .body → session.it.index < session.it.size

theorem Coupled.length_eq {session : Session Data} (hcoupled : Coupled session) :
    session.impl.selectables.length = session.impl.pollfds.length := by
  simpa using congrArg List.length hcoupled.fds

theorem Coupled.safe_test_iff {session : Session Data} (hcoupled : Coupled session)
    (hphase : session.phase = .test) :
    Safe session ↔ (session.it.index = session.it.size ∨ session.it.index < session.count) := by
  unfold Safe
  rw [hphase, Iterator.ne_end'_iff, hcoupled.length_eq, and_self]
  exact or_iff_not_imp_left.symm

theorem Invariant.safe {session : Session Data} (hinv : Invariant session) : Safe session := by
  cases hphase : session.phase with
  | test => exact (hinv.toCoupled.safe_test_iff hphase).mpr ((hinv.test hphase).imp_right And.left)
  | body =>
      unfold Safe
      rw [hphase]
      exact ⟨_, Iterator.increment_of_lt (hinv.body hphase)⟩

/-! ### The calls -/

theorem isReady_add {impl : PollSelectorImpl Data} {fd : PollId} {native : BitVec 32} {data : Data}
    {k : Nat} : (impl.addRaw fd native data).isReady k = impl.isReady k := by
  unfold PollSelectorImpl.isReady PollSelectorImpl.addRaw
  rcases lt_trichotomy k impl.pollfds.length with hlt | rfl | hgt
  · rw [List.getElem?_append_left hlt]
  · simp
  · rw [List.getElem?_eq_none (by simp; omega), List.getElem?_eq_none hgt.le]

theorem isReady_remove {impl : PollSelectorImpl Data} {fd : PollId} {k : Nat}
    (hready : (impl.remove fd).isReady k = true) : ∃ i, k ≤ i ∧ impl.isReady i = true := by
  obtain ⟨p, hp, hrevents⟩ := PollSelectorImpl.isReady_iff.mp hready
  obtain ⟨f, hf⟩ := List.sublist_iff_exists_orderEmbedding_getElem?_eq.mp
    (List.filter_sublist (l := impl.pollfds) (p := fun x => x.fd != fd))
  refine ⟨f k, f.strictMono.le_apply, PollSelectorImpl.isReady_iff.mpr ⟨p, ?_, hrevents⟩⟩
  rw [← hf]
  exact hp

theorem Coupled.call {session : Session Data} (hcoupled : Coupled session) (call : Call Data) :
    Coupled { session with impl := apply session.impl call } := by
  cases call with
  | add fd events data =>
      refine ⟨?_, fun k hk => hcoupled.ready k (isReady_add ▸ hk)⟩
      simp [apply, PollSelectorImpl.add, PollSelectorImpl.addRaw, hcoupled.fds]
  | addRaw fd native data =>
      refine ⟨?_, fun k hk => hcoupled.ready k (isReady_add ▸ hk)⟩
      simp [apply, PollSelectorImpl.addRaw, hcoupled.fds]
  | remove fd =>
      constructor
      · have hmap := congrArg (List.filter fun x => x != fd) hcoupled.fds
        simpa [apply, PollSelectorImpl.remove, List.filter_map, Function.comp_def] using hmap
      · intro k hk
        obtain ⟨i, hki, hi⟩ := isReady_remove hk
        exact hki.trans_lt (hcoupled.ready i hi)

/-! ### The steps of the loop -/

theorem step_deref {session next : Session Data} (hstep : step session .deref = some next) :
    session.phase = .test ∧ session.it.index ≠ session.it.size ∧
      session.it.index < session.count ∧ next = { session with phase := .body } := by
  simp only [step] at hstep
  split at hstep
  next hloop =>
    split at hstep
    next event hevent =>
      have hinside := PollSelectorImpl.exists_getEvent_iff.mp ⟨event, hevent⟩
      exact ⟨hloop.1, Iterator.ne_end'_iff.mp hloop.2, hinside.1, (Option.some.inj hstep).symm⟩
    next => cases hstep
  next => cases hstep

theorem step_increment {session next : Session Data}
    (hstep : step session .increment = some next) :
    session.phase = .body ∧ session.it.index < session.it.size ∧
      next = { session with
        it := { session.it with index := session.impl.advance session.it.index }
        phase := .test } := by
  simp only [step] at hstep
  split at hstep
  next hphase =>
    by_cases hlt : session.it.index < session.it.size
    · rw [Iterator.increment_of_lt hlt] at hstep
      exact ⟨hphase, hlt, (Option.some.inj hstep).symm⟩
    · rw [Iterator.increment_of_not_lt hlt] at hstep
      cases hstep
  next => cases hstep

theorem Invariant.deref {session next : Session Data} (hinv : Invariant session)
    (hstep : step session .deref = some next) : Invariant next := by
  obtain ⟨hphase, hne, _, rfl⟩ := step_deref hstep
  refine ⟨⟨hinv.fds, hinv.ready⟩, ?_, fun _ => ((hinv.test hphase).resolve_left hne).2⟩
  intro htest
  cases htest

theorem Invariant.exists_deref {session : Session Data} (hinv : Invariant session)
    (hphase : session.phase = .test) (hend : session.it.index ≠ session.it.size) :
    ∃ next, step session .deref = some next := by
  obtain ⟨hinside, _⟩ := (hinv.test hphase).resolve_left hend
  obtain ⟨event, hevent⟩ := PollSelectorImpl.exists_getEvent_iff.mpr
    ⟨hinside, hinside.trans_eq hinv.toCoupled.length_eq.symm⟩
  rw [step, if_pos ⟨hphase, Iterator.ne_end'_iff.mpr hend⟩]
  simp only [hevent]
  exact ⟨_, rfl⟩

theorem Coupled.increment {session next : Session Data} (hcoupled : Coupled session)
    (hstep : step session .increment = some next) : Coupled next := by
  obtain ⟨_, _, rfl⟩ := step_increment hstep
  exact ⟨hcoupled.fds, hcoupled.ready⟩

theorem Invariant.increment {session next : Session Data} (hinv : Invariant session)
    (hstep : step session .increment = some next) (hguard : Undisturbed session .increment) :
    Invariant next := by
  have hcoupled := hinv.toCoupled.increment hstep
  obtain ⟨_, _, rfl⟩ := step_increment hstep
  refine ⟨hcoupled, fun _ => ?_, fun hbody => by cases hbody⟩
  rcases session.impl.advance_spec session.it.index with ⟨hend, hnone⟩ | ⟨_, hready⟩
  · rcases hguard with ⟨k, _, hk, hready⟩ | hcount
    · rw [hnone k hk] at hready
      exact absurd hready (by simp)
    · exact Or.inl (hend.trans hcount)
  · exact Or.inr ⟨PollSelectorImpl.isReady.lt hready, hinv.ready _ hready⟩

theorem Coupled.undisturbed_of_safe {session next : Session Data} (hcoupled : Coupled session)
    (hstep : step session .increment = some next) (hsafe : Safe next) :
    Undisturbed session .increment := by
  have hnext := hcoupled.increment hstep
  obtain ⟨_, _, rfl⟩ := step_increment hstep
  rcases session.impl.advance_spec session.it.index with ⟨hend, _⟩ | ⟨hbehind, hready⟩
  · rcases (hnext.safe_test_iff rfl).mp hsafe with hsize | hcount
    · exact Or.inr (hend.symm.trans hsize)
    · exact absurd hcount (by simp [hend])
  · exact Or.inl ⟨_, PollSelectorImpl.isReady.lt hready, hbehind, hready⟩

/-! ### Reaching the end -/

theorem Finishes.of_step {session next : Session Data} {action : Action Data}
    (haction : action = .deref ∨ action = .increment) (hstep : step session action = some next)
    (hfinishes : Finishes next) : Finishes session := by
  obtain ⟨actions, last, hloop, hrun, hlast⟩ := hfinishes
  refine ⟨action :: actions, last, ?_, ?_, hlast⟩
  · exact List.forall_mem_cons.mpr ⟨haction, hloop⟩
  · rw [run, hstep]
    exact hrun

/-- As long as there are as many registrations as at the time of `poll`, each increment moves the
index towards the end. -/
theorem Invariant.finishes_of_body {session : Session Data} (hinv : Invariant session)
    (hcount : session.count = session.it.size) (hphase : session.phase = .body) :
    Finishes session := by
  obtain ⟨gap, hgap⟩ : ∃ gap, gap = session.it.size - session.it.index := ⟨_, rfl⟩
  induction gap using Nat.strong_induction_on generalizing session with
  | _ gap ih =>
    have hlt := hinv.body hphase
    obtain ⟨next, hstep⟩ : ∃ next, step session .increment = some next := by
      rw [step, if_pos hphase, Iterator.increment_of_lt hlt]
      exact ⟨_, rfl⟩
    have hnext := hinv.increment hstep (Or.inr hcount)
    apply Finishes.of_step (Or.inr rfl) hstep
    by_cases hend : next.it.index = next.it.size
    · exact ⟨[], next, by simp, rfl, Iterator.ne_end'_eq_false_iff.mpr hend⟩
    · obtain ⟨_, _, rfl⟩ := step_increment hstep
      obtain ⟨last, hderef⟩ := hnext.exists_deref rfl hend
      have hlast := hnext.deref hderef
      apply Finishes.of_step (Or.inl rfl) hderef
      obtain ⟨_, _, _, rfl⟩ := step_deref hderef
      refine ih _ ?_ hlast hcount rfl rfl
      rcases session.impl.advance_spec session.it.index with ⟨hadvance, _⟩ | ⟨hbehind, _⟩
      · exact absurd (hadvance.trans hcount) hend
      · simp only
        omega

/-- With another number of registrations than at the time of `poll`, the loop misses the end. -/
theorem Coupled.misses_end {session last : Session Data} {actions : List (Action Data)}
    (hcoupled : Coupled session) (hend : session.it.index ≠ session.it.size)
    (hcount : session.count ≠ session.it.size)
    (hloop : ∀ action ∈ actions, action = .deref ∨ action = .increment)
    (hrun : run step session actions = some last) : last.it.index ≠ last.it.size := by
  induction actions generalizing session with
  | nil =>
      obtain rfl := Option.some.inj hrun
      exact hend
  | cons action actions ih =>
      obtain ⟨next, hstep, hrun⟩ := Option.bind_eq_some_iff.mp hrun
      obtain ⟨haction, hrest⟩ := List.forall_mem_cons.mp hloop
      rcases haction with rfl | rfl
      · obtain ⟨_, _, _, rfl⟩ := step_deref hstep
        have hnext : Coupled { session with phase := .body } := ⟨hcoupled.fds, hcoupled.ready⟩
        exact ih hnext hend hcount hrest hrun
      · have hnext := hcoupled.increment hstep
        obtain ⟨_, _, rfl⟩ := step_increment hstep
        refine ih hnext ?_ hcount hrest hrun
        rcases session.impl.advance_spec session.it.index with ⟨hadvance, _⟩ | ⟨_, hready⟩
        · exact fun hsize => hcount (hadvance.symm.trans hsize)
        · exact (hcoupled.ready _ hready).ne

theorem Invariant.finishes_iff {session : Session Data} (hinv : Invariant session) :
    Finishes session ↔
      session.it.index = session.it.size ∨ session.count = session.it.size := by
  constructor
  · rintro ⟨actions, last, hloop, hrun, hlast⟩
    by_contra hneither
    obtain ⟨hend, hcount⟩ := not_or.mp hneither
    exact hinv.toCoupled.misses_end hend hcount hloop hrun
      (Iterator.ne_end'_eq_false_iff.mp hlast)
  · intro hreach
    by_cases hend : session.it.index = session.it.size
    · exact ⟨[], session, by simp, rfl, Iterator.ne_end'_eq_false_iff.mpr hend⟩
    have hcount := hreach.resolve_left hend
    cases hphase : session.phase with
    | body => exact hinv.finishes_of_body hcount hphase
    | test =>
        obtain ⟨next, hderef⟩ := hinv.exists_deref hphase hend
        have hnext := hinv.deref hderef
        apply Finishes.of_step (Or.inl rfl) hderef
        obtain ⟨_, _, _, rfl⟩ := step_deref hderef
        exact hnext.finishes_of_body hcount rfl

/-! ### Whole iterations -/

theorem coupled_history (history : List (Call Data)) :
    (history.foldl apply PollSelectorImpl.create).selectables.map Selectable.fd =
      (history.foldl apply PollSelectorImpl.create).pollfds.map PollFd.fd := by
  suffices hall : ∀ impl : PollSelectorImpl Data,
      impl.selectables.map Selectable.fd = impl.pollfds.map PollFd.fd →
      (history.foldl apply impl).selectables.map Selectable.fd =
        (history.foldl apply impl).pollfds.map PollFd.fd from hall _ rfl
  induction history with
  | nil => exact fun _ hfds => hfds
  | cons call history ih =>
      intro impl hfds
      let session : Session Data := ⟨impl, ⟨0, impl.pollfds.length, 0⟩, .test⟩
      have hcoupled : Coupled session := ⟨hfds, fun _ hk => PollSelectorImpl.isReady.lt hk⟩
      exact ih _ (hcoupled.call call).fds

theorem invariant_start (history : List (Call Data)) (revents : Nat → BitVec 16) (pimpl : Nat) :
    Invariant (start history revents pimpl) := by
  let impl := (history.foldl apply PollSelectorImpl.create).writeRevents revents
  have hfds : impl.selectables.map Selectable.fd = impl.pollfds.map PollFd.fd := by
    have hmap : impl.pollfds.map PollFd.fd =
        (history.foldl apply PollSelectorImpl.create).pollfds.map PollFd.fd := by
      apply List.ext_getElem?
      intro k
      simp [impl, PollSelectorImpl.writeRevents, Function.comp_def]
    exact (coupled_history history).trans hmap.symm
  rcases impl.rangeOf_spec with ⟨hrange, hnone⟩ | ⟨hcount, hready⟩
  · refine ⟨⟨hfds, fun k hk => ?_⟩, fun _ => Or.inl ?_, fun hbody => by cases hbody⟩
    · exact absurd ((hnone k).symm.trans hk) (by simp)
    · change impl.rangeOf.firstReady = impl.rangeOf.count
      rw [hrange]
  · have hlt := PollSelectorImpl.isReady.lt hready
    refine ⟨⟨hfds, fun k hk => ?_⟩, fun _ => Or.inr ⟨hlt, ?_⟩, fun hbody => by cases hbody⟩
    · exact (PollSelectorImpl.isReady.lt hk).trans_eq hcount.symm
    · exact hlt.trans_eq hcount.symm

theorem Invariant.call {session : Session Data} (hinv : Invariant session) {call : Call Data}
    (hguard : Undisturbed session (.call call)) :
    Invariant { session with impl := apply session.impl call } := by
  refine ⟨hinv.toCoupled.call call, fun hphase => ?_, hinv.body⟩
  rcases hinv.test hphase with hend | ⟨hcount, hsize⟩
  · exact Or.inl hend
  cases call with
  | add fd events data =>
      refine Or.inr ⟨?_, hsize⟩
      simpa [apply, Session.count, PollSelectorImpl.add, PollSelectorImpl.addRaw] using Nat.lt_succ_of_lt hcount
  | addRaw fd native data =>
      refine Or.inr ⟨?_, hsize⟩
      simpa [apply, Session.count, PollSelectorImpl.addRaw] using Nat.lt_succ_of_lt hcount
  | remove fd =>
      rcases hguard with hbody | hend | hleft
      · exact absurd (hphase.symm.trans hbody) (by simp)
      · exact Or.inl hend
      · exact Or.inr ⟨hleft.trans_eq List.countP_eq_length_filter, hsize⟩

theorem Coupled.undisturbed_call {session : Session Data} (hcoupled : Coupled session)
    {call : Call Data} (hsafe : Safe { session with impl := apply session.impl call }) :
    Undisturbed session (.call call) := by
  cases call with
  | add fd events data => trivial
  | addRaw fd native data => trivial
  | remove fd =>
      cases hphase : session.phase with
      | body => exact Or.inl hphase
      | test =>
          refine Or.inr (((hcoupled.call _).safe_test_iff hphase).mp hsafe |>.imp_right ?_)
          exact fun hinside => hinside.trans_eq List.countP_eq_length_filter.symm

theorem Invariant.step {session next : Session Data} {action : Action Data}
    (hinv : Invariant session) (hstep : step session action = some next)
    (hguard : Undisturbed session action) : Invariant next := by
  cases action with
  | call call =>
      obtain rfl := Option.some.inj hstep
      exact hinv.call hguard
  | deref => exact hinv.deref hstep
  | increment => exact hinv.increment hstep hguard

/-- **Iterating while registrations change.** The loop is in range in every state and ends once the
registrations stop changing exactly when each step is undisturbed and, at that moment, the loop is
over or there are again as many registrations as at the time of `poll`. -/
theorem safe_and_finishes_iff_undisturbed (history : List (Call Data)) (revents : Nat → BitVec 16)
    (pimpl : Nat) (actions : List (Action Data)) {reached : Session Data}
    (hrun : run step (start history revents pimpl) actions = some reached) :
    Always step Safe (start history revents pimpl) actions ∧ Finishes reached ↔
      Guarded step Undisturbed (start history revents pimpl) actions ∧
        (reached.it.index = reached.it.size ∨ reached.count = reached.it.size) := by
  have hinit := invariant_start history revents pimpl
  have hiff : Always step Safe (start history revents pimpl) actions ↔
      Guarded step Undisturbed (start history revents pimpl) actions := by
    apply always_iff_guarded Invariant hinit (fun _ hinv => hinv.safe)
    · exact fun _ _ _ hinv hstep hguard => hinv.step hstep hguard
    · intro session action next hinv hstep hsafe
      cases action with
      | call call =>
          obtain rfl := Option.some.inj hstep
          exact hinv.toCoupled.undisturbed_call hsafe
      | deref => trivial
      | increment => exact hinv.toCoupled.undisturbed_of_safe hstep hsafe
  rw [hiff]
  refine and_congr_right fun hguarded => ?_
  have hinv := always_of_guarded hinit
    (fun _ _ _ hinv hstep hguard => hinv.step hstep hguard) hguarded
  exact (hinv.of_run hrun).finishes_iff

/-- Two descriptors, both ready. The handler of the first replaces both registrations. -/
theorem safe_and_finishes_of_replacing_registrations :
    ∃ reached : Session Nat,
      run step (start [.add 3 Selector.Read 30, .add 4 Selector.Read 40] (fun _ => POLLIN) 0)
        [.deref, .call (.remove 3), .call (.remove 4), .call (.add 5 Selector.Read 50),
          .call (.add 6 Selector.Read 60), .increment] = some reached ∧
      Always step Safe
        (start [.add 3 Selector.Read 30, .add 4 Selector.Read 40] (fun _ => POLLIN) 0)
        [.deref, .call (.remove 3), .call (.remove 4), .call (.add 5 Selector.Read 50),
          .call (.add 6 Selector.Read 60), .increment] ∧
      Finishes reached :=
  ⟨_, rfl, (safe_and_finishes_iff_undisturbed _ _ _ _ rfl).mpr ⟨by decide, by decide⟩⟩

/-- Two descriptors, both ready. The handler of the first removes the second: the increment finds no
ready entry and answers with one, which is neither inside the tables nor the end. -/
theorem not_safe_of_removing_a_registration :
    ¬ Always step Safe
      (start [.add 3 Selector.Read 30, .add 4 Selector.Read 40] (fun _ => POLLIN) 0 : Session Nat)
      [.deref, .call (.remove 4), .increment] := by
  intro halways
  obtain ⟨hlt, _⟩ := halways.of_run rfl (by decide)
  exact absurd hlt (by decide)

end Cadence.PollIteration
