import Cadence.Io.SignalDispatcher
import Mathlib.Data.List.Induction

/-!
# The chain of a signal

The range of a signal in the map grows at its end only, and the first attach puts the action it
replaces in front. The null pointer is left out there, the other marker is not.
-/

namespace Cadence.SignalChain

open SignalDispatcher

variable {Fn Handler : Type}

/-- The handlers attached to a signal, in the order of the calls that succeeded. -/
def attachedTo (signum : Int) (requests : List (Attach Handler)) : List Handler :=
  (requests.filter fun request => request.signalNumber = signum ∧ request.failure = none).map
    Attach.handler

def firstCall (action : Sigaction Fn) (signum : Int) : List (SignalCall Fn Handler) :=
  match action.saHandler with
  | .function _ => [action.call signum]
  | _ => []

def chain (initial : Dispositions Fn) (requests : List (Attach Handler)) (signum : Int) :
    List (SignalCall Fn Handler) :=
  firstCall (initial.actionOf signum) signum ++
    (attachedTo signum requests).map fun handler => .handler handler signum

/-- A delivery goes along the chain, and a call that fails would change nothing. -/
structure Dispatched [DecidableEq Fn] (initial : Dispositions Fn) (requests : List (Attach Handler))
    (signum : Int) : Prop where
  calls : (attachAll initial requests).deliver signum = chain initial requests signum
  unchanged : ∀ request : Attach Handler, request.failure ≠ none →
    attachAll initial (requests ++ [request]) = attachAll initial requests

/-! ### One call -/

section Step

variable [DecidableEq Fn] {dispatcher : SignalDispatcher Fn Handler} {request : Attach Handler}
  {signum : Int}

def kept (action : Sigaction Fn) : List (Mapped Fn Handler) :=
  if action.saHandler ≠ .sigDfl ∧ action.saHandler ≠ .signalHandler then [.oldAction action] else []

theorem attach_of_failed (hfailed : request.failure ≠ none) :
    dispatcher.attach request = dispatcher := by
  obtain ⟨errno, herrno⟩ := Option.ne_none_iff_exists'.mp hfailed
  simp [attach, attachHandler, herrno]

theorem installed_attach (hok : request.failure = none) :
    (dispatcher.attach request).installed =
      Function.update dispatcher.installed request.signalNumber ⟨.signalHandler, 0⟩ := by
  simp [attach, attachHandler, hok]

theorem equalRange_attach_self (hok : request.failure = none) :
    (dispatcher.attach request).mapping.equalRange request.signalNumber =
      dispatcher.mapping.equalRange request.signalNumber ++
        kept (dispatcher.installed request.signalNumber) ++ [.handler request.handler] := by
  simp only [attach, attachHandler, hok, Multimap.equalRange_emplace_self, kept]
  split
  · rw [Multimap.equalRange_emplace_self]
  · rw [List.append_nil]

theorem equalRange_attach_of_ne (hne : request.signalNumber ≠ signum) :
    (dispatcher.attach request).mapping.equalRange signum =
      dispatcher.mapping.equalRange signum := by
  by_cases hok : request.failure = none
  · simp only [attach, attachHandler, hok, Multimap.equalRange_emplace_of_ne _ _ hne]
    split
    · exact Multimap.equalRange_emplace_of_ne _ _ hne
    · rfl
  · rw [attach_of_failed hok]

end Step

/-! ### A sequence of calls -/

section Run

variable [DecidableEq Fn] {initial : Dispositions Fn} {dispatcher : SignalDispatcher Fn Handler}
  {request : Attach Handler} {requests : List (Attach Handler)} {attached : List Handler}
  {signum : Int}

/-- The dispatcher has seen exactly these handlers attached to the signal. -/
structure Serves (action : Sigaction Fn) (attached : List Handler)
    (dispatcher : SignalDispatcher Fn Handler) (signum : Int) : Prop where
  before : attached = [] →
    dispatcher.installed signum = action ∧ dispatcher.mapping.equalRange signum = []
  after : attached ≠ [] →
    dispatcher.installed signum = ⟨.signalHandler, 0⟩ ∧
      dispatcher.mapping.equalRange signum = kept action ++ attached.map .handler

theorem attachedTo_concat_self (hok : request.failure = none) :
    attachedTo request.signalNumber (requests ++ [request]) =
      attachedTo request.signalNumber requests ++ [request.handler] := by
  simp [attachedTo, hok]

theorem attachedTo_concat_of_failed (hfailed : request.failure ≠ none) :
    attachedTo signum (requests ++ [request]) = attachedTo signum requests := by
  simp [attachedTo, hfailed]

theorem attachedTo_concat_of_ne (hne : request.signalNumber ≠ signum) :
    attachedTo signum (requests ++ [request]) = attachedTo signum requests := by
  simp [attachedTo, hne]

theorem attachAll_concat :
    attachAll initial (requests ++ [request]) = (attachAll initial requests).attach request := by
  simp [attachAll]

theorem Serves.attach_self {action : Sigaction Fn} (hok : request.failure = none)
    (hserves : Serves action attached dispatcher request.signalNumber) :
    Serves action (attached ++ [request.handler]) (dispatcher.attach request)
      request.signalNumber where
  before hnil := absurd hnil (by simp)
  after _ := by
    rw [installed_attach hok, equalRange_attach_self hok]
    refine ⟨Function.update_self _ _ _, ?_⟩
    by_cases hnil : attached = []
    · obtain ⟨hinstalled, hrange⟩ := hserves.before hnil
      rw [hinstalled, hrange, hnil]
      rfl
    · obtain ⟨hinstalled, hrange⟩ := hserves.after hnil
      have hkept : (kept ⟨.signalHandler, 0⟩ : List (Mapped Fn Handler)) = [] := by
        simp [kept]
      rw [hinstalled, hrange, hkept, List.append_nil, List.append_assoc, List.map_append]
      rfl

theorem Serves.attach_of_ne {action : Sigaction Fn} (hne : request.signalNumber ≠ signum)
    (hserves : Serves action attached dispatcher signum) :
    Serves action attached (dispatcher.attach request) signum := by
  have hinstalled : (dispatcher.attach request).installed signum = dispatcher.installed signum := by
    by_cases hok : request.failure = none
    · rw [installed_attach hok, Function.update_of_ne hne.symm]
    · rw [attach_of_failed hok]
  have hrange : (dispatcher.attach request).mapping.equalRange signum =
      dispatcher.mapping.equalRange signum := equalRange_attach_of_ne hne
  constructor
  · rw [hinstalled, hrange]
    exact hserves.before
  · rw [hinstalled, hrange]
    exact hserves.after

-- by induction from the end of the sequence, where the order of the attached handlers grows
theorem serves_attachAll (initial : Dispositions Fn) (requests : List (Attach Handler))
    (signum : Int) :
    Serves (initial.actionOf signum) (attachedTo signum requests) (attachAll initial requests)
      signum := by
  induction requests using List.reverseRecOn with
  | nil => exact ⟨fun _ => ⟨rfl, rfl⟩, fun hne => absurd rfl hne⟩
  | append_singleton requests request ih =>
      rw [attachAll_concat]
      by_cases hok : request.failure = none
      · by_cases hsignum : request.signalNumber = signum
        · subst hsignum
          rw [attachedTo_concat_self hok]
          exact ih.attach_self hok
        · rw [attachedTo_concat_of_ne hsignum]
          exact ih.attach_of_ne hsignum
      · rw [attachedTo_concat_of_failed hok, attach_of_failed hok]
        exact ih

theorem deliver_attachAll (hattached : attachedTo signum requests ≠ []) :
    (attachAll initial requests).deliver signum =
      (kept (initial.actionOf signum)).map (fun mapped => mapped.call signum) ++
        (attachedTo signum requests).map fun handler => .handler handler signum := by
  obtain ⟨hinstalled, hrange⟩ := (serves_attachAll initial requests signum).after hattached
  simp only [deliver, hinstalled, signalHandler, hrange, List.map_append, List.map_map]
  rfl

/-- The first call is made of a function only, unless the marker that is not null was installed. -/
theorem map_kept_eq_firstCall_iff (signum : Int) {action : Sigaction Fn}
    (hforeign : action.saHandler ≠ .signalHandler) :
    (kept action).map (fun mapped => mapped.call signum) =
        (firstCall action signum : List (SignalCall Fn Handler)) ↔
      action.saHandler ≠ .sigIgn := by
  cases hhandler : action.saHandler with
  | signalHandler => exact absurd hhandler hforeign
  | _ => simp [kept, firstCall, hhandler, Mapped.call]

/-- **Signal chains.** A delivery calls the function that was installed first and the handlers
attached, in order, exactly when the signal was not ignored at first. -/
theorem dispatched_iff (initial : Dispositions Fn) (requests : List (Attach Handler)) (signum : Int)
    (hattached : attachedTo signum requests ≠ []) :
    Dispatched initial requests signum ↔ (initial.actionOf signum).saHandler ≠ .sigIgn := by
  have hkept : (kept (initial.actionOf signum)).map (fun mapped => mapped.call signum) =
      (firstCall (initial.actionOf signum) signum : List (SignalCall Fn Handler)) ↔ _ :=
    map_kept_eq_firstCall_iff signum (initial.foreign signum)
  rw [← hkept]
  constructor
  · intro hdispatched
    have hcalls := hdispatched.calls
    rw [deliver_attachAll hattached, chain] at hcalls
    exact List.append_cancel_right hcalls
  · intro hfirst
    constructor
    · rw [deliver_attachAll hattached, hfirst, chain]
    · intro request hfailed
      rw [attachAll_concat, attach_of_failed hfailed]

/-- A handler with `SA_SIGINFO` is called before the two handlers attached to its signal. -/
theorem dispatched_after_siginfo :
    Dispatched (⟨fun _ => ⟨.function 7, SA_SIGINFO⟩, by simp⟩ : Dispositions Nat)
      [⟨14, "first", none⟩, ⟨2, "other", none⟩, ⟨14, "refused", some EINVAL⟩, ⟨14, "second", none⟩]
      14 :=
  (dispatched_iff _ _ _ (by decide)).mpr (by decide)

/-- The marker of an ignored signal is called as a function. -/
theorem not_dispatched_when_ignored :
    attachedTo 13 [⟨13, "handler", none⟩] = ["handler"] ∧
      ¬ Dispatched (⟨fun _ => ⟨.sigIgn, 0⟩, by simp⟩ : Dispositions Nat)
        [⟨13, "handler", none⟩] 13 := by
  refine ⟨by decide, fun hdispatched => ?_⟩
  exact absurd hdispatched.calls (by decide)

end Run

end Cadence.SignalChain
