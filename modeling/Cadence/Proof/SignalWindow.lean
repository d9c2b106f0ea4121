import Cadence.Foundation.StepSystem
import Cadence.Io.SignalAttach
import Cadence.Proof.SignalChain

/-!
# Signals that arrive during an attach

The disposition is replaced first, so for the rest of the attach a delivery runs what the map has for
the signal by then. That is the whole of the old chain as long as the dispatcher was installed before,
or once the function that it replaced is in the map.
-/

namespace Cadence.SignalWindow

open SignalDispatcher SignalChain StepSystem

section

variable {Fn Handler : Type} [DecidableEq Fn] {ignoredByDefault : Int → Bool}
  {initial : Dispositions Fn} {dispatcher : SignalDispatcher Fn Handler}
  {request : Attach Handler} {oldAction : Sigaction Fn} {signum : Int}

/-- The delivery has the effect it has before the attach in progress, or the effect it has after it. -/
def Whole (ignoredByDefault : Int → Bool) (initial : Dispositions Fn) (world : World Fn Handler) :
    Action Handler → World Fn Handler → Prop
  | .deliver signum, _ =>
      world.dispatcher.effect ignoredByDefault signum =
          (attachAll initial world.attached).effect ignoredByDefault signum ∨
        ∃ attaching ∈ world.attaching, world.dispatcher.effect ignoredByDefault signum =
          (attachAll initial (world.attached ++ [attaching.request])).effect ignoredByDefault signum
  | _, _ => True

/-- What the map has for the signal of the attach is what the replaced disposition did. -/
def StandsIn (ignoredByDefault : Int → Bool) (attaching : Attaching Fn Handler) : Prop :=
  match attaching.oldAction.saHandler with
  | .signalHandler => True
  | .function _ => attaching.kept = true
  | .sigIgn => attaching.kept = false
  | .sigDfl => ignoredByDefault attaching.request.signalNumber = true

def Timely (ignoredByDefault : Int → Bool) (world : World Fn Handler) : Action Handler → Prop
  | .deliver signum => ∀ attaching ∈ world.attaching, attaching.request.signalNumber = signum →
      StandsIn ignoredByDefault attaching
  | _ => True

/-! ### The effect of a delivery -/

def callsOf (range : List (Mapped Fn Handler)) (signum : Int) : SignalEffect Fn Handler :=
  .calls (range.map fun mapped => mapped.call signum)

theorem effect_of_signalHandler
    (hinstalled : (dispatcher.installed signum).saHandler = .signalHandler) :
    dispatcher.effect ignoredByDefault signum =
      callsOf (dispatcher.mapping.equalRange signum) signum := by
  simp [effect, deliver, hinstalled, signalHandler, callsOf]

theorem effect_congr {other : SignalDispatcher Fn Handler}
    (hinstalled : dispatcher.installed signum = other.installed signum)
    (hrange : dispatcher.mapping.equalRange signum = other.mapping.equalRange signum) :
    dispatcher.effect ignoredByDefault signum = other.effect ignoredByDefault signum := by
  simp only [effect, deliver, signalHandler, hinstalled, hrange]

theorem equalRange_keepOldAction_self :
    (dispatcher.keepOldAction signum oldAction).mapping.equalRange signum =
      dispatcher.mapping.equalRange signum ++ kept oldAction := by
  unfold keepOldAction kept
  split
  · exact Multimap.equalRange_emplace_self _ _ _
  · exact (List.append_nil _).symm

theorem installed_keepOldAction {signalNumber : Int} :
    (dispatcher.keepOldAction signalNumber oldAction).installed = dispatcher.installed := by
  unfold keepOldAction
  split <;> rfl

theorem equalRange_keepOldAction_of_ne {signalNumber : Int} (hne : signalNumber ≠ signum) :
    (dispatcher.keepOldAction signalNumber oldAction).mapping.equalRange signum =
      dispatcher.mapping.equalRange signum := by
  unfold keepOldAction
  split
  · exact Multimap.equalRange_emplace_of_ne _ _ hne
  · rfl

/-- The dispatcher in the middle of an attach. -/
def midway (dispatcher : SignalDispatcher Fn Handler) (attaching : Attaching Fn Handler) :
    SignalDispatcher Fn Handler :=
  if attaching.kept then
    (dispatcher.replaceAction attaching.request.signalNumber).keepOldAction
      attaching.request.signalNumber attaching.oldAction
  else dispatcher.replaceAction attaching.request.signalNumber

theorem effect_midway_of_ne {attaching : Attaching Fn Handler}
    (hne : attaching.request.signalNumber ≠ signum) :
    (midway dispatcher attaching).effect ignoredByDefault signum =
      dispatcher.effect ignoredByDefault signum := by
  have hinstalled : (dispatcher.replaceAction attaching.request.signalNumber).installed signum =
      dispatcher.installed signum := Function.update_of_ne hne.symm _ _
  unfold midway
  split
  · apply effect_congr
    · rw [installed_keepOldAction, hinstalled]
    · exact equalRange_keepOldAction_of_ne hne
  · exact effect_congr hinstalled rfl

theorem effect_midway_self (attaching : Attaching Fn Handler) :
    (midway dispatcher attaching).effect ignoredByDefault attaching.request.signalNumber =
      callsOf (dispatcher.mapping.equalRange attaching.request.signalNumber ++
        if attaching.kept then kept attaching.oldAction else [])
          attaching.request.signalNumber := by
  have hinstalled : (dispatcher.replaceAction attaching.request.signalNumber).installed
      attaching.request.signalNumber = ⟨.signalHandler, 0⟩ := Function.update_self _ _ _
  unfold midway
  split
  · rw [effect_of_signalHandler (by rw [installed_keepOldAction, hinstalled]),
      equalRange_keepOldAction_self]
    rfl
  · rw [effect_of_signalHandler (by rw [hinstalled]), List.append_nil]
    rfl

theorem effect_attach_self (hok : request.failure = none) :
    (dispatcher.attach request).effect ignoredByDefault request.signalNumber =
      callsOf (dispatcher.mapping.equalRange request.signalNumber ++
        kept (dispatcher.installed request.signalNumber) ++ [.handler request.handler])
          request.signalNumber := by
  rw [effect_of_signalHandler, equalRange_attach_self hok]
  rw [installed_attach hok, Function.update_self]

/-! ### A delivery of the signal that is being attached -/

/-- The new handler is put in the map last, so it is missing from every delivery during the attach. -/
theorem effect_midway_ne_attach {attaching : Attaching Fn Handler}
    (hok : attaching.request.failure = none)
    (hold : attaching.oldAction = dispatcher.installed attaching.request.signalNumber) :
    (midway dispatcher attaching).effect ignoredByDefault attaching.request.signalNumber ≠
      (dispatcher.attach attaching.request).effect ignoredByDefault
        attaching.request.signalNumber := by
  rw [effect_midway_self, effect_attach_self hok, ← hold]
  intro heq
  have hlength := congrArg List.length (SignalEffect.calls.inj heq)
  simp only [List.length_map, List.length_append, List.length_singleton] at hlength
  split at hlength
  · omega
  · rw [List.length_nil] at hlength
    omega

theorem effect_midway_eq_iff {attaching : Attaching Fn Handler}
    (hold : attaching.oldAction = dispatcher.installed attaching.request.signalNumber)
    (hvacant : attaching.oldAction.saHandler ≠ .signalHandler →
      dispatcher.mapping.equalRange attaching.request.signalNumber = []) :
    (midway dispatcher attaching).effect ignoredByDefault attaching.request.signalNumber =
        dispatcher.effect ignoredByDefault attaching.request.signalNumber ↔
      StandsIn ignoredByDefault attaching := by
  rw [effect_midway_self, StandsIn]
  cases hhandler : attaching.oldAction.saHandler with
  | signalHandler =>
      have hkept : (kept attaching.oldAction : List (Mapped Fn Handler)) = [] := by
        simp [kept, hhandler]
      rw [effect_of_signalHandler (hold ▸ hhandler), hkept, ite_self, List.append_nil]
      exact iff_of_true rfl trivial
  | function address =>
      rw [hvacant (by simp [hhandler])]
      rw [hold] at hhandler
      cases attaching.kept <;> simp [effect, deliver, hold, hhandler, callsOf, kept, Mapped.call]
  | sigIgn =>
      rw [hvacant (by simp [hhandler])]
      rw [hold] at hhandler
      cases attaching.kept <;> simp [effect, deliver, hold, hhandler, callsOf, kept]
  | sigDfl =>
      rw [hvacant (by simp [hhandler])]
      rw [hold] at hhandler
      cases hignored : ignoredByDefault attaching.request.signalNumber <;>
        simp [effect, deliver, hold, hhandler, hignored, callsOf, kept]

/-! ### The run -/

theorem equalRange_attachAll {requests : List (Attach Handler)}
    (hinstalled : ((attachAll initial requests).installed signum).saHandler ≠ .signalHandler) :
    (attachAll initial requests).mapping.equalRange signum = [] := by
  have hserves := serves_attachAll initial requests signum
  by_cases hattached : attachedTo signum requests = []
  · exact (hserves.before hattached).2
  · rw [(hserves.after hattached).1] at hinstalled
    exact absurd rfl hinstalled

/-- The dispatcher is that of the calls which have returned, or in the middle of one more. -/
structure Invariant (initial : Dispositions Fn) (world : World Fn Handler) : Prop where
  idle : world.attaching = none → world.dispatcher = attachAll initial world.attached
  busy : ∀ attaching ∈ world.attaching,
    world.dispatcher = midway (attachAll initial world.attached) attaching ∧
      attaching.request.failure = none ∧
      attaching.oldAction =
        (attachAll initial world.attached).installed attaching.request.signalNumber

variable {world next : World Fn Handler} {action : Action Handler}

theorem Invariant.sigaction (hinv : Invariant initial world) (hidle : world.attaching = none)
    (hok : request.failure = none) :
    Invariant initial
      { world with
        dispatcher := world.dispatcher.replaceAction request.signalNumber
        attaching := some ⟨request, world.dispatcher.installed request.signalNumber, false⟩ } where
  idle hnone := by cases hnone
  busy attaching hattaching := by
    obtain rfl := Option.some.inj hattaching
    rw [hinv.idle hidle]
    exact ⟨rfl, hok, rfl⟩

theorem Invariant.keepOldAction (hinv : Invariant initial world)
    (hattaching : world.attaching = some ⟨request, oldAction, false⟩) :
    Invariant initial
      { world with
        dispatcher := world.dispatcher.keepOldAction request.signalNumber oldAction
        attaching := some ⟨request, oldAction, true⟩ } where
  idle hnone := by cases hnone
  busy attaching hkept := by
    obtain ⟨hdispatcher, hok, hold⟩ := hinv.busy _ hattaching
    obtain rfl := Option.some.inj hkept
    rw [hdispatcher]
    exact ⟨rfl, hok, hold⟩

/-- With the last step the attach is done as a whole. -/
theorem Invariant.emplaceHandler (hinv : Invariant initial world)
    (hattaching : world.attaching = some ⟨request, oldAction, true⟩) :
    Invariant initial
      { world with
        dispatcher := world.dispatcher.emplaceHandler request.signalNumber request.handler
        attaching := none
        attached := world.attached ++ [request] } where
  idle _ := by
    obtain ⟨hdispatcher, hok, hold⟩ := hinv.busy _ hattaching
    rw [attachAll_concat, attach_eq_steps _ hok, hdispatcher, ← hold]
    rfl
  busy attaching hnone := by cases hnone

theorem Invariant.step (hinv : Invariant initial world) (hstep : step world action = some next) :
    Invariant initial next := by
  cases action with
  | sigaction request =>
      simp only [SignalDispatcher.step] at hstep
      split at hstep
      next => cases hstep
      next =>
        obtain rfl := Option.some.inj hstep
        exact hinv
      next hidle hok =>
        obtain rfl := Option.some.inj hstep
        exact hinv.sigaction hidle hok
  | keepOldAction =>
      simp only [SignalDispatcher.step] at hstep
      split at hstep
      next request oldAction hattaching =>
        obtain rfl := Option.some.inj hstep
        exact hinv.keepOldAction hattaching
      next => cases hstep
  | emplaceHandler =>
      simp only [SignalDispatcher.step] at hstep
      split at hstep
      next request oldAction hattaching =>
        obtain rfl := Option.some.inj hstep
        exact hinv.emplaceHandler hattaching
      next => cases hstep
  | deliver signum =>
      obtain rfl := Option.some.inj hstep
      exact hinv

theorem Invariant.whole_step_iff (hinv : Invariant initial world) :
    Whole ignoredByDefault initial world action next ↔ Timely ignoredByDefault world action := by
  cases action with
  | deliver signum =>
      simp only [Whole, Timely]
      cases hattaching : world.attaching with
      | none =>
          rw [hinv.idle hattaching]
          exact iff_of_true (.inl rfl) (fun _ hnone => absurd hnone (by simp))
      | some attaching =>
          obtain ⟨hdispatcher, hok, hold⟩ := hinv.busy _ hattaching
          rw [hdispatcher]
          simp only [Option.mem_some_iff, exists_eq_left', forall_eq']
          by_cases hsignum : attaching.request.signalNumber = signum
          · subst hsignum
            rw [attachAll_concat, or_iff_left (effect_midway_ne_attach hok hold),
              effect_midway_eq_iff hold fun hforeign => equalRange_attachAll (hold ▸ hforeign)]
            exact ⟨fun hstands _ => hstands, fun hstands => hstands rfl⟩
          · rw [effect_midway_of_ne hsignum]
            exact iff_of_true (.inl rfl) fun heq => absurd heq hsignum
  | _ => exact Iff.rfl

end

/-- **Deliveries during an attach.** Each delivery has the effect it has before or after the attach in
progress, exactly when each that is of the signal being attached comes while the map stands in for the
disposition that was replaced. -/
theorem whole_iff_timely {Fn Handler : Type} [DecidableEq Fn] (ignoredByDefault : Int → Bool)
    (initial : Dispositions Fn) (actions : List (Action Handler)) :
    EachStep step (Whole ignoredByDefault initial) (World.create initial) actions ↔
      Guarded step (Timely ignoredByDefault) (World.create initial) actions := by
  apply eachStep_congr (Invariant initial)
  · exact ⟨fun _ => rfl, fun _ hnone => absurd hnone (by simp [World.create])⟩
  · exact fun _ _ _ hinv hstep => hinv.step hstep
  · exact fun _ _ _ hinv _ => hinv.whole_step_iff

/-- The signal arrives between `sigaction` and the first `emplace`. -/
theorem not_whole_after_sigaction :
    ¬ EachStep step (Whole (fun _ => false) ⟨fun _ => ⟨.function 7, 0⟩, by simp⟩)
      (World.create (⟨fun _ => ⟨.function 7, 0⟩, by simp⟩ : Dispositions Nat))
      [.sigaction ⟨14, "handler", none⟩, .deliver 14] := by
  intro heach
  have hwhole := ((heach _ rfl).2 _ rfl).1
  rcases hwhole with hbefore | ⟨attaching, hattaching, hafter⟩
  · exact absurd hbefore (by decide)
  · obtain rfl := Option.some.inj hattaching
    exact absurd hafter (by decide)

end Cadence.SignalWindow
