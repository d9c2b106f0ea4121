import Cadence.AsyncServerObject
import Cadence.Foundation.Simulation
import Cadence.Proof.AcceptLoop
import Mathlib.Data.List.InsertIdx

/-!
# A server that is moved

A server that is moved while none of its accepts is outstanding goes on as if it had not been moved,
and so it does when the accept fails. The continuation of an accept that succeeds after a move reads
what was left behind: no handler is called, and the pointer to the acceptor is empty.
-/

namespace Cadence.MovedServer

open AsyncServer (Call)
open AsyncServerObject StepSystem AcceptLoop

/-- Each prefix of the run comes to what it comes to without the moves. -/
def Transparent (connectionHandler : Bool) (actions : List Action) : Prop :=
  Mirrors step AsyncServer.step World.seen Action.unmoved (World.create connectionHandler)
    (AsyncServer.World.create connectionHandler) actions

/-- No continuation is run for a connection whose accept was started before the last move. -/
def StartedSinceMove (world : World) : Action → Prop
  | .serve (.runCompletion i _) =>
      ∀ loc connection, world.completed[i]? = some (loc, .peer connection) → loc = world.owner
  | _ => True

structure Related (world : World) (plain : AsyncServer.World) : Prop where
  server : world.servers world.owner = some plain.server
  left : ∀ loc < world.owner, world.servers loc = some ⟨⟨none⟩, false⟩
  accepting : plain.server.accepting = world.sessions.length
  completed : plain.completed = world.completed.map Prod.snd
  accepted : plain.accepted = world.accepted
  handled : plain.handled = world.handled
  listening : plain.listening = world.listening
  outstanding : ∀ loc ∈ world.sessions, loc ≤ world.owner
  captured : ∀ entry ∈ world.completed, entry.1 ≤ world.owner
  installed : plain.completed ≠ [] → plain.server.acceptor.pimpl.isSome = true

variable {world next : World} {plain : AsyncServer.World}

theorem Related.seen (hrel : Related world plain) : world.seen = some plain := by
  rw [World.seen, hrel.server, Option.map_some, ← hrel.completed, ← hrel.accepted, ← hrel.handled,
    ← hrel.listening]

/-- An update of the server in place. -/
theorem Related.put (hrel : Related world plain) {server : AsyncServer}
    (haccepting : server.accepting = plain.server.accepting)
    (hinstalled : plain.server.acceptor.pimpl.isSome = true →
      server.acceptor.pimpl.isSome = true) :
    Related { world with servers := world.servers.put world.owner server }
      { plain with server := server } where
  server := ObjectStore.put_self
  left loc hloc := (ObjectStore.put_of_ne (Nat.ne_of_lt hloc)).trans (hrel.left loc hloc)
  accepting := haccepting.trans hrel.accepting
  completed := hrel.completed
  accepted := hrel.accepted
  handled := hrel.handled
  listening := hrel.listening
  outstanding := hrel.outstanding
  captured := hrel.captured
  installed hcompleted := hinstalled (hrel.installed hcompleted)

theorem Related.doAcceptSession (hrel : Related world plain) :
    Option.Rel Related (world.doAcceptSession world.owner)
      (plain.server.doAcceptSession.map fun server => { plain with server := server }) := by
  rw [World.doAcceptSession, hrel.server, Option.bind_some]
  cases haccept : plain.server.doAcceptSession with
  | none => exact .none
  | some server =>
      obtain ⟨haccepting, hinstalled, _⟩ := doAcceptSession_eq_some haccept
      refine .some ⟨ObjectStore.put_self, ?_, ?_, hrel.completed, hrel.accepted, hrel.handled,
        hrel.listening, ?_, hrel.captured, fun _ => hinstalled⟩
      · intro loc hloc
        exact (ObjectStore.put_of_ne (Nat.ne_of_lt hloc)).trans (hrel.left loc hloc)
      · rw [haccepting, hrel.accepting, List.length_append, List.length_singleton]
      · intro loc hmem
        rcases List.mem_append.mp hmem with hold | hnew
        · exact hrel.outstanding loc hold
        · exact Nat.le_of_eq (List.mem_singleton.mp hnew)

theorem accepting_of_open {server : AsyncServer} {acceptor : Acceptor} {endpoint : NetworkEndpoint}
    {outcomes : NativeOutcomes} {result : Except Error Unit}
    (hopen : server.acceptor.open endpoint outcomes = some (result, acceptor)) :
    AsyncServer.accepting { server with acceptor := acceptor } = server.accepting ∧
      acceptor.pimpl.isSome = true := by
  rcases Acceptor.open_eq_some hopen with ⟨hsome, rfl, _⟩ | ⟨hnone, impl, rfl, hattempted⟩
  · exact ⟨rfl, hsome⟩
  · refine ⟨?_, rfl⟩
    rw [AsyncServer.accepting, AsyncServer.accepting, hnone]
    exact hattempted.accepting

theorem Related.startListen (hrel : Related world plain) (endpoint : NetworkEndpoint)
    (outcomes : NativeOutcomes) :
    Option.Rel Related (world.startListen endpoint outcomes)
      (plain.call (.startListen endpoint outcomes)) := by
  rw [World.startListen, hrel.server, Option.bind_some, AsyncServer.World.call,
    AsyncServer.startListen]
  cases hopen : plain.server.acceptor.open endpoint outcomes with
  | none => exact .none
  | some attempted =>
      obtain ⟨result, acceptor⟩ := attempted
      obtain ⟨haccepting, hinstalled⟩ := accepting_of_open hopen
      have hopened := hrel.put haccepting fun _ => hinstalled
      cases result with
      | error e => exact .some hopened
      | ok value =>
          have hlistening : Related
              { world with
                servers := world.servers.put world.owner
                  { plain.server with acceptor := acceptor }
                listening := true }
              { plain with
                server := { plain.server with acceptor := acceptor }
                listening := true } :=
            ⟨hopened.server, hopened.left, hopened.accepting, hopened.completed,
              hopened.accepted, hopened.handled, rfl, hopened.outstanding, hopened.captured,
              hopened.installed⟩
          have haccept := hlistening.doAcceptSession
          simpa [Option.map_map, Function.comp_def] using haccept

theorem Related.stop (hrel : Related world plain) :
    Option.Rel Related world.stop (plain.call .stop) := by
  rw [World.stop, hrel.server, Option.bind_some, AsyncServer.World.call]
  cases hstop : plain.server.stop with
  | none => exact .none
  | some stopped =>
      obtain ⟨server, aborted⟩ := stopped
      obtain ⟨rfl, haccepting, hinstalled, _⟩ := stop_eq_some hstop
      refine .some ⟨ObjectStore.put_self, ?_, haccepting, ?_, hrel.accepted, hrel.handled,
        hrel.listening, ?_, ?_, fun _ => hinstalled⟩
      · intro loc hloc
        exact (ObjectStore.put_of_ne (Nat.ne_of_lt hloc)).trans (hrel.left loc hloc)
      · simp only [List.map_append, List.map_map, hrel.completed, hrel.accepting]
        rw [← List.map_const']
        rfl
      · exact fun loc hmem => absurd hmem List.not_mem_nil
      · intro entry hentry
        rcases List.mem_append.mp hentry with hold | hnew
        · exact hrel.captured entry hold
        · obtain ⟨loc, hloc, rfl⟩ := List.mem_map.mp hnew
          exact hrel.outstanding loc hloc

theorem Related.call (hrel : Related world plain) (call : Call) :
    Option.Rel Related (world.call call) (plain.call call) := by
  cases call with
  | startListen endpoint outcomes => exact hrel.startListen endpoint outcomes
  | stop => exact hrel.stop

/-! ### The server stays where it is -/

theorem owner_of_doAcceptSession {loc : Nat} (haccept : world.doAcceptSession loc = some next) :
    next.owner = world.owner := by
  obtain ⟨server, _, haccept⟩ := Option.bind_eq_some_iff.mp haccept
  obtain ⟨server', _, rfl⟩ := Option.map_eq_some_iff.mp haccept
  rfl

theorem owner_of_call {call : Call} (hcall : world.call call = some next) :
    next.owner = world.owner := by
  cases call with
  | startListen endpoint outcomes =>
      obtain ⟨server, _, hcall⟩ := Option.bind_eq_some_iff.mp hcall
      obtain ⟨⟨result, acceptor⟩, _, hcall⟩ := Option.bind_eq_some_iff.mp hcall
      cases result with
      | ok value =>
          have howner := owner_of_doAcceptSession hcall
          exact howner
      | error e =>
          obtain rfl := Option.some.inj hcall
          rfl
  | stop =>
      obtain ⟨server, _, hcall⟩ := Option.bind_eq_some_iff.mp hcall
      obtain ⟨⟨server', aborted⟩, _, rfl⟩ := Option.map_eq_some_iff.mp hcall
      rfl

theorem owner_of_calls {calls : List Call} (hcalls : calls.foldlM World.call world = some next) :
    next.owner = world.owner := by
  apply invariant_of_foldlM (fun state => state.owner = world.owner) rfl _ hcalls
  intro state call last howner hcall
  exact (owner_of_call hcall).trans howner

theorem owner_of_handOver {loc : Nat} {connection : Connection} {calls : List Call}
    (hhand : world.handOver loc connection calls = some next) : next.owner = world.owner := by
  obtain ⟨server, _, hhand⟩ := Option.bind_eq_some_iff.mp hhand
  split at hhand
  next =>
    have howner := owner_of_calls hhand
    exact howner
  next =>
    obtain rfl := Option.some.inj hhand
    rfl

/-! ### The event loop -/

theorem Related.complete (hrel : Related world plain) (completion : Completion) :
    Option.Rel Related (world.complete completion) (plain.complete completion) := by
  have haccepting := hrel.accepting
  unfold World.complete AsyncServer.World.complete
  cases hsessions : world.sessions with
  | nil =>
      rw [hsessions, List.length_nil] at haccepting
      rw [haccepting, if_neg (Nat.lt_irrefl 0)]
      exact .none
  | cons loc sessions =>
      rw [hsessions, List.length_cons] at haccepting
      have hpos : 0 < plain.server.accepting := haccepting ▸ Nat.succ_pos _
      obtain ⟨hcount, _, hinstalled⟩ := accepting_completeAccept hpos
      rw [if_pos hpos, hrel.server]
      refine .some ⟨ObjectStore.put_self, ?_, ?_, ?_, ?_, hrel.handled, hrel.listening, ?_, ?_, ?_⟩
      · intro loc hloc
        exact (ObjectStore.put_of_ne (Nat.ne_of_lt hloc)).trans (hrel.left loc hloc)
      · rw [haccepting] at hcount
        exact hcount
      · rw [List.map_append, hrel.completed, List.map_singleton]
      · cases completion with
        | peer connection => exact congrArg (· ++ [connection]) hrel.accepted
        | failed ec => exact hrel.accepted
      · exact fun loc hmem => hrel.outstanding loc (hsessions ▸ List.mem_cons_of_mem _ hmem)
      · intro entry hentry
        rcases List.mem_append.mp hentry with hold | hnew
        · exact hrel.captured entry hold
        · rw [List.mem_singleton.mp hnew]
          exact hrel.outstanding loc (hsessions ▸ List.mem_cons_self)
      · intro _
        rw [Option.isSome_map]
        exact hinstalled

theorem Related.handOver (hrel : Related world plain) (connection : Connection)
    (calls : List Call) :
    Option.Rel Related (world.handOver world.owner connection calls)
      (plain.handOver connection calls) := by
  rw [World.handOver, hrel.server, Option.bind_some, AsyncServer.World.handOver]
  split
  next =>
    apply Option.Rel.foldlM (fun world plain call hrel => Related.call hrel call) calls
    exact ⟨hrel.server, hrel.left, hrel.accepting, hrel.completed, hrel.accepted,
      congrArg (· ++ [connection]) hrel.handled, hrel.listening, hrel.outstanding, hrel.captured,
      hrel.installed⟩
  next => exact .some hrel

theorem Related.continuation (hrel : Related world plain) (connection : Connection)
    (calls : List Call) :
    Option.Rel Related (world.continuation world.owner connection calls)
      (plain.continuation connection calls) := by
  apply (hrel.handOver connection calls).bind
  intro middle middle' hmiddle hrel
  rw [← owner_of_handOver hmiddle, hrel.server, Option.bind_some]
  cases hopen : middle'.server.acceptor.isOpen with
  | none => exact .none
  | some isOpen =>
      cases isOpen with
      | true => exact hrel.doAcceptSession
      | false => exact .some hrel

theorem Related.erase (hrel : Related world plain) (i : Nat) :
    Related { world with completed := world.completed.eraseIdx i }
      { plain with completed := plain.completed.eraseIdx i } where
  server := hrel.server
  left := hrel.left
  accepting := hrel.accepting
  completed := by rw [hrel.completed, List.eraseIdx_map]
  accepted := hrel.accepted
  handled := hrel.handled
  listening := hrel.listening
  outstanding := hrel.outstanding
  captured entry hentry := hrel.captured entry (List.mem_of_mem_eraseIdx hentry)
  installed hcompleted := by
    apply hrel.installed
    rintro hnil
    simp [hnil] at hcompleted

theorem Related.runCompletion (hrel : Related world plain) (i : Nat) (calls : List Call)
    (hguard : StartedSinceMove world (.serve (.runCompletion i calls))) :
    Option.Rel Related (world.runCompletion i calls) (plain.runCompletion i calls) := by
  rw [World.runCompletion, AsyncServer.World.runCompletion, hrel.completed, List.getElem?_map]
  cases hi : world.completed[i]? with
  | none => exact .none
  | some entry =>
      obtain ⟨loc, completion⟩ := entry
      have herased := hrel.erase i
      rw [hrel.completed] at herased
      cases completion with
      | failed ec => exact .some herased
      | peer connection =>
          obtain rfl := hguard loc connection hi
          exact herased.continuation connection calls

theorem Related.move (hrel : Related world plain) :
    ∃ next, world.move = some next ∧ Related next plain := by
  rw [World.move, hrel.server]
  refine ⟨_, rfl, ObjectStore.put_self, ?_, hrel.accepting, hrel.completed, hrel.accepted,
    hrel.handled, hrel.listening, ?_, ?_, hrel.installed⟩
  · intro loc hloc
    apply (ObjectStore.put_of_ne (Nat.ne_of_lt hloc)).trans
    rcases Nat.lt_or_eq_of_le (Nat.le_of_lt_succ hloc) with hlt | rfl
    · exact (ObjectStore.put_of_ne (Nat.ne_of_lt hlt)).trans (hrel.left loc hlt)
    · exact ObjectStore.put_self
  · exact fun loc hmem => Nat.le_succ_of_le (hrel.outstanding loc hmem)
  · exact fun entry hentry => Nat.le_succ_of_le (hrel.captured entry hentry)

theorem Related.keeps (hrel : Related world plain) (action : Action)
    (hguard : StartedSinceMove world action) :
    Option.Rel Related (step world action)
      (advance AsyncServer.step Action.unmoved plain action) := by
  cases action with
  | move =>
      obtain ⟨next, hmove, hnext⟩ := hrel.move
      rw [AsyncServerObject.step, hmove]
      exact .some hnext
  | serve action =>
      cases action with
      | call call => exact hrel.call call
      | complete completion => exact hrel.complete completion
      | runCompletion i calls => exact hrel.runCompletion i calls hguard

/-- Neither the handler nor the acceptor is where the continuation looks for them. -/
theorem continuation_of_left {loc : Nat} {connection : Connection} {calls : List Call}
    (hleft : world.servers loc = some ⟨⟨none⟩, false⟩) :
    world.continuation loc connection calls = none := by
  rw [World.continuation, World.handOver, hleft, Option.bind_some, if_neg (by simp),
    Option.bind_some, hleft]
  rfl

theorem Related.parts (hrel : Related world plain) (action : Action)
    (hmiss : ¬ StartedSinceMove world action) :
    (step world action).bind World.seen ≠
      advance AsyncServer.step Action.unmoved plain action := by
  cases action with
  | move => exact absurd trivial hmiss
  | serve action =>
      cases action with
      | call call => exact absurd trivial hmiss
      | complete completion => exact absurd trivial hmiss
      | runCompletion i calls =>
          simp only [StartedSinceMove, not_forall] at hmiss
          obtain ⟨loc, connection, hi, hne⟩ := hmiss
          have hbound := hrel.captured _ (List.mem_of_getElem? hi)
          have hleft := hrel.left loc (Nat.lt_of_le_of_ne hbound hne)
          have hstuck : step world (.serve (.runCompletion i calls)) = none := by
            rw [AsyncServerObject.step, World.runCompletion, hi]
            exact continuation_of_left hleft
          have hlt : i < plain.completed.length := by
            rw [hrel.completed, List.length_map]
            exact (List.getElem?_eq_some_iff.mp hi).1
          have hinstalled := hrel.installed (List.length_pos_iff.mp (Nat.zero_lt_of_lt hlt))
          obtain ⟨next, hnext⟩ := exists_runCompletion calls hinstalled hlt
          rw [hstuck]
          intro heq
          exact absurd (heq.trans hnext) (by simp)

/-- **Moving a server.** A move goes unnoticed exactly when no accept that was outstanding at a move
succeeds and has its continuation run. -/
theorem transparent_iff_startedSinceMove (connectionHandler : Bool) (actions : List Action) :
    Transparent connectionHandler actions ↔
      Respects step StartedSinceMove (World.create connectionHandler) actions := by
  apply mirrors_iff_respects Related
  · refine ⟨rfl, ?_, rfl, rfl, rfl, rfl, rfl, ?_, ?_, ?_⟩
    · exact fun loc hloc => absurd hloc (Nat.not_lt_zero loc)
    · exact fun loc hmem => absurd hmem List.not_mem_nil
    · exact fun entry hentry => absurd hentry List.not_mem_nil
    · exact fun hcompleted => absurd rfl hcompleted
  · exact fun _ _ hrel => hrel.seen
  · exact fun _ _ action hrel hguard => hrel.keeps action hguard
  · exact fun _ _ action hrel hmiss => hrel.parts action hmiss

/-- The server is moved while it waits for its first connection. -/
theorem not_transparent_of_listening_move :
    ¬ Transparent true
      [.serve (.call (.startListen (.ip ⟨8080, .any⟩) ⟨none, none, none, none⟩)), .move,
        .serve (.complete (.peer 7)), .serve (.runCompletion 0 [])] := by
  intro htransparent
  exact absurd (htransparent _ (List.prefix_refl _)) (by decide)

end Cadence.MovedServer
