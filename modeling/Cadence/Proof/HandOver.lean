import Cadence.Proof.AcceptLoop

/-!
# Handing over every connection once

A server has one native acceptor for its whole life: another `startListen` fails, and a closed
acceptor is never opened again. So there is at most one accept that is outstanding or completed and
not yet run, whatever fails and whoever calls `stop`, and the connections are handed over one by one.
-/

namespace Cadence.HandOver

open AsyncServer StepSystem AcceptLoop

def connectionOf : Completion → Option Connection
  | .peer connection => some connection
  | .failed _ => none

/-- The connections that are accepted and not handed over yet. -/
def pending (world : World) : List Connection := world.completed.filterMap connectionOf

structure HandedOver (world : World) : Prop where
  once : world.accepted = world.handled ++ pending world
  single : world.server.accepting + world.completed.length ≤ 1
  closed : world.server.acceptor.isOpen ≠ some true → world.server.accepting = 0
  enabled : ∀ i < world.completed.length, ∀ calls, ∃ next, world.runCompletion i calls = some next

/-- A failed accept does not call the handler. -/
def SilentFailure (world : World) (action : Action) (next : World) : Prop :=
  ∀ i calls ec, action = .runCompletion i calls → world.completed[i]? = some (.failed ec) →
    next.handled = world.handled

/-- The acceptor exists, and at most `n` accepts are outstanding or wait to be run. -/
structure Accounted (n : Nat) (world : World) : Prop where
  handler : world.server.connectionHandler = true
  installed : world.server.acceptor.pimpl.isSome = true
  once : world.accepted = world.handled ++ pending world
  single : world.server.accepting + world.completed.length ≤ n
  closed : world.server.acceptor.isOpen ≠ some true → world.server.accepting = 0

/-- Nothing was accepted so far. -/
structure Unused (world : World) : Prop where
  handler : world.server.connectionHandler = true
  pimpl : world.server.acceptor.pimpl = none
  accepted : world.accepted = []
  handled : world.handled = []
  completed : world.completed = []

def Invariant (world : World) : Prop := Unused world ∨ Accounted 1 world

/-! ### Calls of the server -/

theorem Accounted.call {n : Nat} {world next : World} {call : Call} (hinv : Accounted n world)
    (hcall : world.call call = some next) : Accounted n next := by
  cases call with
  | startListen endpoint outcomes =>
      obtain ⟨⟨result, server⟩, hstart, hnext⟩ := Option.map_eq_some_iff.mp hcall
      obtain ⟨rfl, e, rfl⟩ := startListen_of_installed hinv.installed hstart
      subst hnext
      exact ⟨hinv.handler, hinv.installed, hinv.once, hinv.single, hinv.closed⟩
  | stop =>
      obtain ⟨⟨server, aborted⟩, hstop, rfl⟩ := Option.map_eq_some_iff.mp hcall
      obtain ⟨rfl, haccepting, hinstalled, _, hhandler⟩ := stop_eq_some hstop
      refine ⟨hhandler.trans hinv.handler, hinstalled, ?_, ?_, fun _ => haccepting⟩
      · have hfailed : (List.replicate world.server.accepting
            (Completion.failed ECANCELED)).filterMap connectionOf = [] := by
          simp [connectionOf]
        rw [pending, List.filterMap_append, hfailed, List.append_nil]
        exact hinv.once
      · have hsingle := hinv.single
        simp only [haccepting, List.length_append, List.length_replicate]
        omega

theorem Accounted.calls {n : Nat} {calls : List Call} {world next : World}
    (hinv : Accounted n world) (hcalls : calls.foldlM World.call world = some next) :
    Accounted n next :=
  invariant_of_foldlM (Accounted n) hinv (fun _ _ _ hinv hcall => hinv.call hcall) hcalls

theorem startListen_installs {server next : AsyncServer} {endpoint : NetworkEndpoint}
    {outcomes : NativeOutcomes} {result : Except Error Unit}
    (hstart : server.startListen endpoint outcomes = some (result, next)) :
    next.acceptor.pimpl.isSome = true ∧ next.connectionHandler = server.connectionHandler := by
  obtain ⟨⟨opened, acceptor⟩, hopen, hrest⟩ := Option.bind_eq_some_iff.mp hstart
  have hinstalled : acceptor.pimpl.isSome = true := by
    rcases Acceptor.open_eq_some hopen with ⟨hsome, rfl, _⟩ | ⟨_, impl, rfl, _⟩
    · exact hsome
    · rfl
  cases opened with
  | ok value =>
      obtain ⟨listening, hlistening, hpair⟩ := Option.map_eq_some_iff.mp hrest
      obtain ⟨rfl, rfl⟩ := Prod.mk.inj hpair
      obtain ⟨accepting, haccepting, rfl⟩ := Option.map_eq_some_iff.mp hlistening
      obtain ⟨impl, _, rfl⟩ := Option.map_eq_some_iff.mp haccepting
      exact ⟨rfl, rfl⟩
  | error e =>
      obtain ⟨rfl, rfl⟩ := Prod.mk.inj (Option.some.inj hrest)
      exact ⟨hinstalled, rfl⟩

theorem Unused.call {world next : World} {call : Call} (hunused : Unused world)
    (hcall : world.call call = some next) : Invariant next := by
  cases call with
  | startListen endpoint outcomes =>
      obtain ⟨⟨result, server⟩, hstart, hnext⟩ := Option.map_eq_some_iff.mp hcall
      obtain ⟨hinstalled, hhandler⟩ := startListen_installs hstart
      have hserver : next.server = server ∧ next.accepted = world.accepted ∧
          next.handled = world.handled ∧ next.completed = world.completed := by
        cases result <;> subst hnext <;> exact ⟨rfl, rfl, rfl, rfl⟩
      obtain ⟨rfl, haccepted, hhandled, hcompleted⟩ := hserver
      refine .inr ⟨hhandler.trans hunused.handler, hinstalled, ?_, ?_, ?_⟩
      · rw [pending, haccepted, hhandled, hcompleted, hunused.accepted, hunused.handled,
          hunused.completed]
        rfl
      · rw [hcompleted, hunused.completed, List.length_nil]
        rcases startListen_of_not_installed hunused.pimpl hstart with ⟨_, _, hone⟩ | ⟨_, hzero⟩
        · omega
        · omega
      · intro hclosed
        rcases startListen_of_not_installed hunused.pimpl hstart with ⟨_, hopen, _⟩ | ⟨_, hzero⟩
        · exact absurd hopen hclosed
        · exact hzero
  | stop =>
      obtain ⟨⟨server, aborted⟩, hstop, rfl⟩ := Option.map_eq_some_iff.mp hcall
      simp [stop, Acceptor.close, hunused.pimpl] at hstop

/-! ### The event loop -/

theorem complete_eq {world next : World} {completion : Completion}
    (hcomplete : world.complete completion = some next) :
    next.accepted = world.accepted ++ (connectionOf completion).toList ∧
      next.handled = world.handled ∧
      next.server.connectionHandler = world.server.connectionHandler := by
  unfold World.complete at hcomplete
  split at hcomplete
  next =>
    obtain rfl := Option.some.inj hcomplete
    cases completion <;> simp [connectionOf]
  next => cases hcomplete

theorem Accounted.complete {n : Nat} {world next : World} {completion : Completion}
    (hinv : Accounted n world) (hcomplete : world.complete completion = some next) :
    Accounted n next := by
  obtain ⟨hpos, haccepting, hopen, hinstalled, hcompleted, _⟩ := complete_eq_some hcomplete
  obtain ⟨haccepted, hhandled, hhandler⟩ := complete_eq hcomplete
  refine ⟨hhandler.trans hinv.handler, hinstalled.trans hinv.installed, ?_, ?_, ?_⟩
  · rw [haccepted, hhandled, pending, hcompleted, List.filterMap_append, hinv.once,
      List.append_assoc, pending]
    cases completion <;> rfl
  · have hsingle := hinv.single
    rw [haccepting, hcompleted, List.length_append, List.length_singleton]
    omega
  · intro hclosed
    have hzero := hinv.closed (hopen ▸ hclosed)
    omega

/-- The only completed accept is taken. -/
theorem Accounted.take {world : World} (hinv : Accounted 1 world) {i : Nat}
    {completion : Completion} (hi : world.completed[i]? = some completion) :
    world.server.accepting = 0 ∧ world.completed.eraseIdx i = [] ∧
      pending world = (connectionOf completion).toList := by
  have hlt := (List.getElem?_eq_some_iff.mp hi).1
  have hsingle := hinv.single
  obtain ⟨only, hcompleted⟩ := List.length_eq_one_iff.mp (show world.completed.length = 1 by omega)
  obtain rfl : i = 0 := by omega
  rw [hcompleted] at hi
  obtain rfl := Option.some.inj hi
  refine ⟨by omega, by rw [hcompleted]; rfl, ?_⟩
  rw [pending, hcompleted]
  cases only <;> rfl

theorem Accounted.continuation {world next : World} {connection : Connection} {calls : List Call}
    (hinv : Accounted 0 { world with handled := world.handled ++ [connection] })
    (hrun : world.continuation connection calls = some next) : Accounted 1 next := by
  obtain ⟨middle, hcalls, hrun⟩ := Option.bind_eq_some_iff.mp hrun
  rw [World.handOver, if_pos hinv.handler] at hcalls
  have hmiddle := hinv.calls hcalls
  obtain ⟨isOpen, hopen, hrun⟩ := Option.bind_eq_some_iff.mp hrun
  have hsingle := hmiddle.single
  cases isOpen with
  | true =>
      obtain ⟨server, hserver, rfl⟩ := Option.map_eq_some_iff.mp hrun
      obtain ⟨haccepting, hinstalled, hstill, hhandler⟩ := doAcceptSession_eq_some hserver
      refine ⟨hhandler.trans hmiddle.handler, hinstalled, hmiddle.once, ?_, fun hclosed => ?_⟩
      · simp only [haccepting]
        omega
      · exact absurd (hstill.trans hopen) hclosed
  | false =>
      obtain rfl := Option.some.inj hrun
      exact ⟨hmiddle.handler, hmiddle.installed, hmiddle.once, by omega, hmiddle.closed⟩

theorem Accounted.handed {world : World} (hinv : Accounted 1 world) {i : Nat}
    {connection : Connection} (hi : world.completed[i]? = some (.peer connection)) :
    Accounted 0 { world with
      completed := world.completed.eraseIdx i
      handled := world.handled ++ [connection] } := by
  obtain ⟨haccepting, herased, hpending⟩ := hinv.take hi
  refine ⟨hinv.handler, hinv.installed, ?_, ?_, hinv.closed⟩
  · change world.accepted = (world.handled ++ [connection]) ++
      (world.completed.eraseIdx i).filterMap connectionOf
    rw [herased, hinv.once, hpending]
    simp [connectionOf]
  · have hnone : world.server.accepting + (world.completed.eraseIdx i).length = 0 := by
      rw [haccepting, herased]
      rfl
    exact Nat.le_of_eq hnone

theorem Accounted.failed {world : World} (hinv : Accounted 1 world) {i : Nat} {ec : Errno}
    (hi : world.completed[i]? = some (.failed ec)) :
    Accounted 1 { world with completed := world.completed.eraseIdx i } := by
  obtain ⟨haccepting, herased, hpending⟩ := hinv.take hi
  refine ⟨hinv.handler, hinv.installed, ?_, ?_, hinv.closed⟩
  · rw [pending, herased, hinv.once, hpending]
    rfl
  · have hnone : world.server.accepting + (world.completed.eraseIdx i).length = 0 := by
      rw [haccepting, herased]
      rfl
    exact Nat.le_succ_of_le (Nat.le_of_eq hnone)

theorem Invariant.accounted_of_completed {world : World} (hinv : Invariant world) {i : Nat}
    {completion : Completion} (hi : world.completed[i]? = some completion) :
    Accounted 1 world := by
  rcases hinv with hunused | hinv
  · simp [hunused.completed] at hi
  · exact hinv

theorem Invariant.step {world next : World} {action : Action} (hinv : Invariant world)
    (hstep : step world action = some next) : Invariant next := by
  cases action with
  | call call =>
      rcases hinv with hunused | hinv
      · exact hunused.call hstep
      · exact .inr (hinv.call hstep)
  | complete completion =>
      rcases hinv with hunused | hinv
      · obtain ⟨hpos, _⟩ := complete_eq_some hstep
        simp [accepting, hunused.pimpl] at hpos
      · exact .inr (hinv.complete hstep)
  | runCompletion i calls =>
      rcases runCompletion_cases hstep with ⟨connection, hi, hrun⟩ | ⟨ec, hi, rfl⟩
      · exact .inr (((hinv.accounted_of_completed hi).handed hi).continuation hrun)
      · exact .inr ((hinv.accounted_of_completed hi).failed hi)

/-! ### What the invariant says -/

theorem Invariant.accounts {world : World} (hinv : Invariant world) : HandedOver world := by
  rcases hinv with hunused | hinv
  · have hzero : world.server.accepting = 0 := by simp [accepting, hunused.pimpl]
    constructor
    · rw [pending, hunused.accepted, hunused.handled, hunused.completed]
      rfl
    · rw [hzero, hunused.completed]
      exact Nat.zero_le 1
    · exact fun _ => hzero
    · intro i hi
      rw [hunused.completed] at hi
      exact absurd hi (Nat.not_lt_zero i)
  · refine ⟨hinv.once, hinv.single, hinv.closed, fun i hi calls => ?_⟩
    exact exists_runCompletion calls hinv.installed hi

theorem silentFailure_of_step {world next : World} {action : Action}
    (hstep : step world action = some next) : SilentFailure world action next := by
  rintro i calls ec rfl hfailed
  rcases runCompletion_cases hstep with ⟨connection, hi, _⟩ | ⟨_, _, rfl⟩
  · exact absurd (hfailed.symm.trans hi) (by simp)
  · rfl

/-! ### After the acceptor is closed -/

/-- The acceptor is closed, and the handler is called for what is completed at most. -/
structure Stopped (bound : Nat) (world : World) : Prop where
  accounted : Accounted 1 world
  closed : world.server.acceptor.isOpen = some false
  bound : world.handled.length + world.completed.length ≤ bound

theorem Stopped.accepting {bound : Nat} {world : World} (hstopped : Stopped bound world) :
    world.server.accepting = 0 :=
  hstopped.accounted.closed (by simp [hstopped.closed])

theorem call_of_closed {n : Nat} {call : Call} {world next : World} (hinv : Accounted n world)
    (hclosed : world.server.acceptor.isOpen = some false) (hcall : world.call call = some next) :
    next.server.acceptor.isOpen = some false ∧ next.handled = world.handled ∧
      next.completed = world.completed := by
  cases call with
  | startListen endpoint outcomes =>
      obtain ⟨⟨result, server⟩, hstart, hnext⟩ := Option.map_eq_some_iff.mp hcall
      obtain ⟨rfl, e, rfl⟩ := startListen_of_installed hinv.installed hstart
      subst hnext
      exact ⟨hclosed, rfl, rfl⟩
  | stop =>
      obtain ⟨⟨server, aborted⟩, hstop, rfl⟩ := Option.map_eq_some_iff.mp hcall
      obtain ⟨rfl, _, _, hstopped, _⟩ := stop_eq_some hstop
      have hzero := hinv.closed (by simp [hclosed])
      exact ⟨hstopped, rfl, by simp [hzero]⟩

/-- Calls on a closed server change nothing that counts. -/
theorem calls_of_closed {n : Nat} {calls : List Call} {world next : World} (hinv : Accounted n world)
    (hclosed : world.server.acceptor.isOpen = some false)
    (hcalls : calls.foldlM World.call world = some next) :
    next.server.acceptor.isOpen = some false ∧ next.handled = world.handled ∧
      next.completed = world.completed := by
  have hlast : Accounted n next ∧ next.server.acceptor.isOpen = some false ∧
      next.handled = world.handled ∧ next.completed = world.completed := by
    apply invariant_of_foldlM (fun state => Accounted n state ∧
      state.server.acceptor.isOpen = some false ∧ state.handled = world.handled ∧
        state.completed = world.completed) ⟨hinv, hclosed, rfl, rfl⟩ _ hcalls
    rintro state call last ⟨hinv, hclosed, hhandled, hcompleted⟩ hcall
    obtain ⟨hstill, hhandled', hcompleted'⟩ := call_of_closed hinv hclosed hcall
    exact ⟨hinv.call hcall, hstill, hhandled'.trans hhandled, hcompleted'.trans hcompleted⟩
  exact hlast.2

theorem Stopped.step {bound : Nat} {world next : World} {action : Action}
    (hstopped : Stopped bound world) (hstep : step world action = some next) :
    Stopped bound next := by
  have hinv := hstopped.accounted
  cases action with
  | call call =>
      obtain ⟨hclosed, hhandled, hcompleted⟩ := call_of_closed hinv hstopped.closed hstep
      exact ⟨hinv.call hstep, hclosed, by rw [hhandled, hcompleted]; exact hstopped.bound⟩
  | complete completion =>
      obtain ⟨hpos, _⟩ := complete_eq_some hstep
      exact absurd hstopped.accepting (Nat.pos_iff_ne_zero.mp hpos)
  | runCompletion i calls =>
      have hbound := hstopped.bound
      rcases runCompletion_cases hstep with ⟨connection, hi, hrun⟩ | ⟨ec, hi, rfl⟩
      · have hlength := List.length_eraseIdx_of_lt (List.getElem?_eq_some_iff.mp hi).1
        have hlt := (List.getElem?_eq_some_iff.mp hi).1
        have hhanded := hinv.handed hi
        have haccounted := hhanded.continuation hrun
        obtain ⟨middle, hcalls, hrun⟩ := Option.bind_eq_some_iff.mp hrun
        rw [World.handOver, if_pos hinv.handler] at hcalls
        obtain ⟨hclosed, hhandled, hcompleted⟩ := calls_of_closed hhanded hstopped.closed hcalls
        rw [hclosed, Option.bind_some] at hrun
        obtain rfl := Option.some.inj hrun
        refine ⟨haccounted, hclosed, ?_⟩
        rw [hhandled, hcompleted]
        simp only [List.length_append, List.length_singleton]
        omega
      · have hlength := List.length_eraseIdx_le (l := world.completed) (i := i)
        refine ⟨hinv.failed hi, hstopped.closed, ?_⟩
        change world.handled.length + (world.completed.eraseIdx i).length ≤ bound
        omega

/-- **Handing over.** All along a run the connections accepted are those handed over, in order and
once each, and at most one more whose handler can be run; a failed accept calls no handler and a closed
acceptor has no accept outstanding. After a state with a closed acceptor, one connection at most is
handed over. -/
theorem handedOver (actions : List Action) :
    Always step HandedOver (World.create true) actions ∧
      EachStep step SilentFailure (World.create true) actions ∧
      ∀ before after stopped last, actions = before ++ after →
        run step (World.create true) before = some stopped →
        stopped.server.acceptor.isOpen = some false → run step stopped after = some last →
        last.handled.length ≤ stopped.handled.length + 1 := by
  have hinit : Invariant (World.create true) := .inl ⟨rfl, rfl, rfl, rfl, rfl⟩
  refine ⟨?_, ?_, ?_⟩
  · refine always_iff_forall_run.mpr fun first reached _ hrun => ?_
    have hinv : Invariant reached :=
      invariant_of_run hinit (fun _ _ _ hinv hstep => hinv.step hstep) hrun
    exact hinv.accounts
  · exact eachStep_of_step fun _ _ _ hstep => silentFailure_of_step hstep
  · intro before after stopped last _ hbefore hclosed hafter
    have hinv : Invariant stopped :=
      invariant_of_run hinit (fun _ _ _ hinv hstep => hinv.step hstep) hbefore
    rcases hinv with hunused | hinv
    · simp [Acceptor.isOpen, hunused.pimpl] at hclosed
    · have hstopped : Stopped (stopped.handled.length + 1) stopped := by
        refine ⟨hinv, hclosed, ?_⟩
        have hsingle := hinv.single
        omega
      have hlast := invariant_of_run hstopped (fun _ _ _ hstopped hstep => hstopped.step hstep) hafter
      have hbound := hlast.bound
      omega

end Cadence.HandOver
