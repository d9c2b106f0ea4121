import Cadence.AsyncServer
import Cadence.Foundation.StepSystem

/-!
# The accept loop

The next accept is started by the continuation of the last one, and a continuation runs only for a
value. So one accept is outstanding for as long as no accept of an open acceptor fails, and the first
failure leaves the server deaf.
-/

namespace Cadence.AcceptLoop

open AsyncServer StepSystem

/-- While the server listens on an open acceptor and no completed accept waits to be run, exactly one
accept is outstanding. -/
def Hears (world : World) : Prop :=
  world.listening = true → world.server.acceptor.isOpen = some true → world.completed = [] →
    world.server.accepting = 1

def NoFailureWhileOpen (world : World) : Action → Prop
  | .runCompletion i _ =>
      world.server.acceptor.isOpen = some true →
        ∀ ec, world.completed[i]? ≠ some (.failed ec)
  | _ => True

/-- The server listens, and `n` accepts of the open acceptor are outstanding or wait to be run. -/
structure Listening (n : Nat) (world : World) : Prop where
  listening : world.listening = true
  installed : world.server.acceptor.pimpl.isSome = true
  opened : world.server.acceptor.isOpen = some true →
    world.server.accepting + world.completed.length = n
  closed : world.server.acceptor.isOpen ≠ some true → world.server.accepting = 0

structure Silent (world : World) : Prop where
  listening : world.listening = false
  accepting : world.server.accepting = 0
  completed : world.completed = []

def Invariant (world : World) : Prop := Silent world ∨ Listening 1 world

theorem Invariant.hears {world : World} (hinv : Invariant world) : Hears world := by
  intro hlistening hopen hcompleted
  rcases hinv with hsilent | hinv
  · exact absurd (hsilent.listening.symm.trans hlistening) (by simp)
  · simpa [hcompleted] using hinv.opened hopen

/-! ### Calls of the server -/

theorem startListen_of_installed {server next : AsyncServer} {endpoint : NetworkEndpoint}
    {outcomes : NativeOutcomes} {result : Except Error Unit}
    (hinstalled : server.acceptor.pimpl.isSome = true)
    (hstart : server.startListen endpoint outcomes = some (result, next)) :
    next = server ∧ ∃ e, result = .error e := by
  obtain ⟨⟨opened, acceptor⟩, hopen, hrest⟩ := Option.bind_eq_some_iff.mp hstart
  rcases Acceptor.open_eq_some hopen with ⟨_, rfl, rfl⟩ | ⟨hnone, _⟩
  · obtain ⟨rfl, rfl⟩ := Prod.mk.inj (Option.some.inj hrest)
    exact ⟨rfl, _, rfl⟩
  · simp [hnone] at hinstalled

theorem startListen_of_not_installed {server next : AsyncServer} {endpoint : NetworkEndpoint}
    {outcomes : NativeOutcomes} {result : Except Error Unit}
    (hnone : server.acceptor.pimpl = none)
    (hstart : server.startListen endpoint outcomes = some (result, next)) :
    (result = .ok () ∧ next.acceptor.isOpen = some true ∧ next.accepting = 1) ∨
      (∃ e, result = .error e) ∧ next.accepting = 0 := by
  obtain ⟨⟨opened, acceptor⟩, hopen, hrest⟩ := Option.bind_eq_some_iff.mp hstart
  rcases Acceptor.open_eq_some hopen with ⟨hsome, _⟩ | ⟨_, impl, rfl, hattempted⟩
  · simp [hnone] at hsome
  · cases opened with
    | ok value =>
        obtain ⟨rfl, rfl⟩ := Prod.mk.inj (Option.some.inj hrest)
        have hopened := hattempted.ok value rfl
        have haccepting := hattempted.accepting
        refine Or.inl ⟨rfl, ?_, ?_⟩
        · cases impl <;> exact congrArg some hopened
        · cases impl <;> exact congrArg (· + 1) haccepting
    | error e =>
        obtain ⟨rfl, rfl⟩ := Prod.mk.inj (Option.some.inj hrest)
        exact Or.inr ⟨⟨e, rfl⟩, hattempted.accepting⟩

theorem stop_eq_some {server next : AsyncServer} {aborted : Nat}
    (hstop : server.stop = some (next, aborted)) :
    aborted = server.accepting ∧ next.accepting = 0 ∧ next.acceptor.pimpl.isSome = true ∧
      next.acceptor.isOpen = some false ∧ next.connectionHandler = server.connectionHandler := by
  obtain ⟨⟨acceptor, count⟩, hclose, hpair⟩ := Option.map_eq_some_iff.mp hstop
  obtain ⟨impl, himpl, himplPair⟩ := Option.map_eq_some_iff.mp hclose
  obtain ⟨rfl, rfl⟩ := Prod.mk.inj hpair
  obtain ⟨rfl, rfl⟩ := Prod.mk.inj himplPair
  cases impl <;> simp [accepting, himpl] <;> exact ⟨rfl, rfl, rfl⟩

/-- With an implementation in place, every call has a result and leaves one in place. -/
theorem exists_call {world : World} (hinstalled : world.server.acceptor.pimpl.isSome = true)
    (call : Call) :
    ∃ next, world.call call = some next ∧ next.server.acceptor.pimpl.isSome = true := by
  cases call with
  | startListen endpoint outcomes =>
      have hopen : world.server.acceptor.open endpoint outcomes =
          some (.error (makeSystemError EISCONN "Acceptor::open"), world.server.acceptor) :=
        if_pos hinstalled
      exact ⟨world, by simp [World.call, startListen, hopen], hinstalled⟩
  | stop =>
      obtain ⟨impl, himpl⟩ := Option.isSome_iff_exists.mp hinstalled
      exact ⟨_, by rw [World.call, stop, Acceptor.close, himpl]; rfl, rfl⟩

theorem exists_calls {calls : List Call} {world : World}
    (hinstalled : world.server.acceptor.pimpl.isSome = true) :
    ∃ next, calls.foldlM World.call world = some next ∧
      next.server.acceptor.pimpl.isSome = true := by
  induction calls generalizing world with
  | nil => exact ⟨world, rfl, hinstalled⟩
  | cons call calls ih =>
      obtain ⟨middle, hcall, hmiddle⟩ := exists_call hinstalled call
      obtain ⟨next, hcalls, hnext⟩ := ih hmiddle
      exact ⟨next, by simp [List.foldlM_cons, hcall, hcalls], hnext⟩

theorem exists_runCompletion {world : World} {i : Nat} (calls : List Call)
    (hinstalled : world.server.acceptor.pimpl.isSome = true) (hi : i < world.completed.length) :
    ∃ next, world.runCompletion i calls = some next := by
  have hcompletion := List.getElem?_eq_getElem hi
  cases hkind : world.completed[i] with
  | failed ec =>
      rw [hkind] at hcompletion
      exact ⟨_, by rw [World.runCompletion, hcompletion]; rfl⟩
  | peer connection =>
      rw [hkind] at hcompletion
      obtain ⟨middle, hmiddle, hstill⟩ : ∃ middle,
          World.handOver { world with completed := world.completed.eraseIdx i } connection calls =
            some middle ∧ middle.server.acceptor.pimpl.isSome = true := by
        unfold World.handOver
        split
        next => exact exists_calls hinstalled
        next => exact ⟨_, rfl, hinstalled⟩
      obtain ⟨impl, himpl⟩ := Option.isSome_iff_exists.mp hstill
      rw [World.runCompletion, hcompletion]
      simp only [Option.bind_eq_bind, Option.bind_some, World.continuation, hmiddle,
        Acceptor.isOpen, himpl, Option.map_some]
      cases impl.isOpen with
      | true => exact ⟨_, by simp [doAcceptSession, Acceptor.asyncAccept, himpl]; rfl⟩
      | false => exact ⟨_, rfl⟩

theorem doAcceptSession_eq_some {server next : AsyncServer}
    (haccept : server.doAcceptSession = some next) :
    next.accepting = server.accepting + 1 ∧ next.acceptor.pimpl.isSome = true ∧
      next.acceptor.isOpen = server.acceptor.isOpen ∧
      next.connectionHandler = server.connectionHandler := by
  obtain ⟨acceptor, hacceptor, rfl⟩ := Option.map_eq_some_iff.mp haccept
  obtain ⟨impl, himpl, rfl⟩ := Option.map_eq_some_iff.mp hacceptor
  rw [accepting, accepting, Acceptor.isOpen, Acceptor.isOpen, himpl]
  cases impl <;> exact ⟨rfl, rfl, rfl, rfl⟩

theorem Listening.call {n : Nat} {world next : World} {call : Call} (hinv : Listening n world)
    (hcall : world.call call = some next) : Listening n next := by
  cases call with
  | startListen endpoint outcomes =>
      obtain ⟨⟨result, server⟩, hstart, hnext⟩ := Option.map_eq_some_iff.mp hcall
      obtain ⟨rfl, e, rfl⟩ := startListen_of_installed hinv.installed hstart
      subst hnext
      exact ⟨hinv.listening, hinv.installed, hinv.opened, hinv.closed⟩
  | stop =>
      obtain ⟨⟨server, aborted⟩, hstop, rfl⟩ := Option.map_eq_some_iff.mp hcall
      obtain ⟨_, haccepting, hinstalled, hclosed, _⟩ := stop_eq_some hstop
      refine ⟨hinv.listening, hinstalled, fun hopen => ?_, fun _ => haccepting⟩
      exact absurd (hclosed.symm.trans hopen) (by simp)

theorem Listening.calls {n : Nat} {calls : List Call} {world next : World}
    (hinv : Listening n world) (hcalls : calls.foldlM World.call world = some next) :
    Listening n next :=
  invariant_of_foldlM (Listening n) hinv (fun _ _ _ hinv hcall => hinv.call hcall) hcalls

theorem Silent.call {world next : World} {call : Call} (hsilent : Silent world)
    (hcall : world.call call = some next) : Invariant next := by
  cases call with
  | startListen endpoint outcomes =>
      obtain ⟨⟨result, server⟩, hstart, hnext⟩ := Option.map_eq_some_iff.mp hcall
      by_cases hinstalled : world.server.acceptor.pimpl.isSome = true
      · obtain ⟨rfl, e, rfl⟩ := startListen_of_installed hinstalled hstart
        subst hnext
        exact Or.inl ⟨hsilent.listening, hsilent.accepting, hsilent.completed⟩
      · rcases startListen_of_not_installed (by simpa using hinstalled) hstart with
          ⟨rfl, hopen, haccepting⟩ | ⟨⟨e, rfl⟩, haccepting⟩
        · subst hnext
          refine Or.inr ⟨rfl, ?_, fun _ => ?_, fun hclosed => absurd hopen hclosed⟩
          · exact Acceptor.isSome_of_isOpen hopen
          · simp [haccepting, hsilent.completed]
        · subst hnext
          exact Or.inl ⟨hsilent.listening, haccepting, hsilent.completed⟩
  | stop =>
      obtain ⟨⟨server, aborted⟩, hstop, rfl⟩ := Option.map_eq_some_iff.mp hcall
      obtain ⟨haborted, haccepting, _⟩ := stop_eq_some hstop
      refine Or.inl ⟨hsilent.listening, haccepting, ?_⟩
      simp [haborted, hsilent.accepting, hsilent.completed]

/-! ### The event loop -/

theorem accepting_completeAccept {server : AsyncServer} (hpos : 0 < server.accepting) :
    accepting { server with
        acceptor.pimpl := server.acceptor.pimpl.map AcceptorImpl.completeAccept } =
      server.accepting - 1 ∧
    Acceptor.isOpen ⟨server.acceptor.pimpl.map AcceptorImpl.completeAccept⟩ =
      server.acceptor.isOpen ∧ server.acceptor.pimpl.isSome = true := by
  cases himpl : server.acceptor.pimpl with
  | none => simp [accepting, himpl] at hpos
  | some impl =>
      rw [accepting, accepting, Acceptor.isOpen, Acceptor.isOpen, himpl]
      cases impl <;> exact ⟨rfl, rfl, rfl⟩

theorem complete_eq_some {world next : World} {completion : Completion}
    (hcomplete : world.complete completion = some next) :
    0 < world.server.accepting ∧ next.server.accepting = world.server.accepting - 1 ∧
      next.server.acceptor.isOpen = world.server.acceptor.isOpen ∧
      next.server.acceptor.pimpl.isSome = world.server.acceptor.pimpl.isSome ∧
      next.completed = world.completed ++ [completion] ∧ next.listening = world.listening := by
  unfold World.complete at hcomplete
  split at hcomplete
  next hpos =>
    obtain rfl := Option.some.inj hcomplete
    obtain ⟨haccepting, hopen, _⟩ := accepting_completeAccept hpos
    exact ⟨hpos, haccepting, hopen, Option.isSome_map, rfl, rfl⟩
  next => cases hcomplete

theorem Listening.complete {n : Nat} {world next : World} {completion : Completion}
    (hinv : Listening n world) (hcomplete : world.complete completion = some next) :
    Listening n next := by
  obtain ⟨hpos, haccepting, hopen, hinstalled, hcompleted, hlistening⟩ :=
    complete_eq_some hcomplete
  refine ⟨hlistening.trans hinv.listening, hinstalled.trans hinv.installed, ?_, ?_⟩
  · intro hopened
    have hcount := hinv.opened (hopen.symm.trans hopened)
    rw [haccepting, hcompleted, List.length_append, List.length_singleton]
    omega
  · intro hclosed
    have hzero := hinv.closed (hopen ▸ hclosed)
    omega

theorem Listening.continuation {world next : World} {connection : Connection} {calls : List Call}
    (hinv : Listening 0 world) (hrun : world.continuation connection calls = some next) :
    Listening 1 next := by
  obtain ⟨middle, hcalls, hrun⟩ := Option.bind_eq_some_iff.mp hrun
  have hmiddle : Listening 0 middle := by
    unfold World.handOver at hcalls
    split at hcalls
    next =>
      have hstart : Listening 0 { world with handled := world.handled ++ [connection] } :=
        ⟨hinv.listening, hinv.installed, hinv.opened, hinv.closed⟩
      exact hstart.calls hcalls
    next =>
      obtain rfl := Option.some.inj hcalls
      exact hinv
  obtain ⟨isOpen, hopen, hrun⟩ := Option.bind_eq_some_iff.mp hrun
  cases isOpen with
  | true =>
      have hzero := hmiddle.opened hopen
      obtain ⟨server, hserver, rfl⟩ := Option.map_eq_some_iff.mp hrun
      obtain ⟨haccepting, hinstalled, hstill, _⟩ := doAcceptSession_eq_some hserver
      refine ⟨hmiddle.listening, hinstalled, fun _ => ?_, fun hclosed => ?_⟩
      · simp only [haccepting]
        omega
      · exact absurd (hstill.trans hopen) hclosed
  | false =>
      obtain rfl := Option.some.inj hrun
      refine ⟨hmiddle.listening, hmiddle.installed, fun hopened => ?_, hmiddle.closed⟩
      exact absurd (hopen.symm.trans hopened) (by simp)

theorem Listening.erase {world : World} {i : Nat} {completion : Completion}
    (hinv : Listening 1 world) (hi : world.completed[i]? = some completion) :
    Listening 0 { world with completed := world.completed.eraseIdx i } := by
  have hlt := (List.getElem?_eq_some_iff.mp hi).1
  refine ⟨hinv.listening, hinv.installed, fun hopen => ?_, hinv.closed⟩
  have hcount := hinv.opened hopen
  have hlength := List.length_eraseIdx_of_lt hlt
  change world.server.accepting + (world.completed.eraseIdx i).length = 0
  omega

theorem Invariant.listening_of_completed {world : World} (hinv : Invariant world) {i : Nat}
    {completion : Completion} (hi : world.completed[i]? = some completion) :
    Listening 1 world := by
  rcases hinv with hsilent | hinv
  · simp [hsilent.completed] at hi
  · exact hinv

theorem runCompletion_cases {world next : World} {i : Nat} {calls : List Call}
    (hrun : world.runCompletion i calls = some next) :
    (∃ connection, world.completed[i]? = some (.peer connection) ∧
      World.continuation { world with completed := world.completed.eraseIdx i } connection calls
        = some next) ∨
    ∃ ec, world.completed[i]? = some (.failed ec) ∧
      next = { world with completed := world.completed.eraseIdx i } := by
  obtain ⟨completion, hi, hrun⟩ := Option.bind_eq_some_iff.mp hrun
  cases completion with
  | peer connection => exact Or.inl ⟨connection, hi, hrun⟩
  | failed ec => exact Or.inr ⟨ec, hi, (Option.some.inj hrun).symm⟩

theorem Invariant.of_step {world next : World} {action : Action} (hinv : Invariant world)
    (hstep : step world action = some next) (hguard : NoFailureWhileOpen world action) :
    Invariant next := by
  cases action with
  | call call =>
      rcases hinv with hsilent | hinv
      · exact hsilent.call hstep
      · exact Or.inr (hinv.call hstep)
  | complete completion =>
      rcases hinv with hsilent | hinv
      · obtain ⟨hpos, _⟩ := complete_eq_some hstep
        exact absurd hsilent.accepting (Nat.pos_iff_ne_zero.mp hpos)
      · exact Or.inr (hinv.complete hstep)
  | runCompletion i calls =>
      rcases runCompletion_cases hstep with ⟨connection, hi, hrun⟩ | ⟨ec, hi, rfl⟩
      · exact Or.inr (((hinv.listening_of_completed hi).erase hi).continuation hrun)
      · have herased := (hinv.listening_of_completed hi).erase hi
        refine Or.inr ⟨herased.listening, herased.installed, fun hopen => ?_, herased.closed⟩
        exact absurd hi (hguard hopen ec)

theorem Invariant.noFailureWhileOpen {world next : World} {action : Action}
    (hinv : Invariant world) (hstep : step world action = some next) (hhears : Hears next) :
    NoFailureWhileOpen world action := by
  cases action with
  | call call => trivial
  | complete completion => trivial
  | runCompletion i calls =>
      intro hopen ec hi
      have hlistening := hinv.listening_of_completed hi
      rcases runCompletion_cases hstep with ⟨connection, hpeer, _⟩ | ⟨_, _, rfl⟩
      · exact absurd (hi.symm.trans hpeer) (by simp)
      · have hzero := (hlistening.erase hi).opened hopen
        have hone := hhears hlistening.listening hopen
          (List.length_eq_zero_iff.mp (Nat.eq_zero_of_add_eq_zero_left hzero))
        have := Nat.eq_zero_of_add_eq_zero_right hzero
        omega

/-- **The accept loop.** All along a run the server hears exactly when no handler of a failed accept
runs while the acceptor is open. -/
theorem hears_iff_noFailureWhileOpen (connectionHandler : Bool) (actions : List Action) :
    Always step Hears (World.create connectionHandler) actions ↔
      Guarded step NoFailureWhileOpen (World.create connectionHandler) actions := by
  apply always_iff_guarded Invariant
  · exact Or.inl ⟨rfl, rfl, rfl⟩
  · exact fun _ hinv => hinv.hears
  · exact fun _ _ _ hinv hstep hguard => hinv.of_step hstep hguard
  · exact fun _ _ _ hinv hstep hhears => hinv.noFailureWhileOpen hstep hhears

/-- The peer aborts one connection while it waits to be accepted. -/
theorem deaf_after_an_aborted_connection :
    ¬ Always step Hears (World.create true)
      [.call (.startListen (.ip ⟨8080, .any⟩) ⟨none, none, none, none⟩),
        .complete (.failed ECONNABORTED), .runCompletion 0 []] := by
  intro halways
  have hone := halways.of_run rfl rfl rfl rfl
  exact absurd hone (by decide)

end Cadence.AcceptLoop
