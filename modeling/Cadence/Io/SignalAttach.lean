import Cadence.Io.SignalDispatcher

/-!
# Attaching a handler in steps

The kernel's disposition and the map of the dispatcher change one after the other, and a signal may
arrive at any time between. A delivery has an effect also when it calls no function: the kernel takes
the default action for a null handler, which for some signals is to ignore them.
-/

namespace Cadence

inductive SignalEffect (Fn Handler : Type) where
  | defaultAction (signal : Int)
  | calls (calls : List (SignalCall Fn Handler))
  deriving DecidableEq

namespace SignalDispatcher

variable {Fn Handler : Type} [DecidableEq Fn]

def effect (ignoredByDefault : Int → Bool) (dispatcher : SignalDispatcher Fn Handler)
    (signum : Int) : SignalEffect Fn Handler :=
  if (dispatcher.installed signum).saHandler = .sigDfl ∧ ignoredByDefault signum = false then
    .defaultAction signum
  else .calls (dispatcher.deliver signum)

/-! ### The three steps of `attachHandler` -/

def replaceAction (dispatcher : SignalDispatcher Fn Handler) (signalNumber : Int) :
    SignalDispatcher Fn Handler :=
  { dispatcher with
    installed := Function.update dispatcher.installed signalNumber ⟨.signalHandler, 0⟩ }

def keepOldAction (dispatcher : SignalDispatcher Fn Handler) (signalNumber : Int)
    (oldAction : Sigaction Fn) : SignalDispatcher Fn Handler :=
  if oldAction.saHandler ≠ .sigDfl ∧ oldAction.saHandler ≠ .signalHandler then
    { dispatcher with mapping := dispatcher.mapping.emplace signalNumber (.oldAction oldAction) }
  else dispatcher

def emplaceHandler (dispatcher : SignalDispatcher Fn Handler) (signalNumber : Int)
    (handler : Handler) : SignalDispatcher Fn Handler :=
  { dispatcher with mapping := dispatcher.mapping.emplace signalNumber (.handler handler) }

/-- One after the other the steps are `attachHandler`. -/
theorem attach_eq_steps (dispatcher : SignalDispatcher Fn Handler) {request : Attach Handler}
    (hok : request.failure = none) :
    dispatcher.attach request =
      ((dispatcher.replaceAction request.signalNumber).keepOldAction request.signalNumber
        (dispatcher.installed request.signalNumber)).emplaceHandler request.signalNumber
          request.handler := by
  simp only [attach, attachHandler, hok, emplaceHandler, keepOldAction, replaceAction]
  split <;> rfl

/-- An `attachHandler` whose `sigaction` has succeeded. -/
structure Attaching (Fn Handler : Type) where
  request : Attach Handler
  oldAction : Sigaction Fn
  /-- The old action is in the map, if it is to be there. -/
  kept : Bool

structure World (Fn Handler : Type) where
  dispatcher : SignalDispatcher Fn Handler
  attaching : Option (Attaching Fn Handler)
  /-- The calls of `attachHandler` that have returned. -/
  attached : List (Attach Handler)

def World.create (initial : Dispositions Fn) : World Fn Handler :=
  ⟨.create initial, none, []⟩

inductive Action (Handler : Type) where
  | sigaction (request : Attach Handler)
  | keepOldAction
  | emplaceHandler
  | deliver (signum : Int)

def step (world : World Fn Handler) : Action Handler → Option (World Fn Handler)
  | .sigaction request =>
      match world.attaching, request.failure with
      | some _, _ => none
      | none, some _ => some world
      | none, none =>
          some { world with
            dispatcher := world.dispatcher.replaceAction request.signalNumber
            attaching := some
              ⟨request, world.dispatcher.installed request.signalNumber, false⟩ }
  | .keepOldAction =>
      match world.attaching with
      | some ⟨request, oldAction, false⟩ =>
          some { world with
            dispatcher := world.dispatcher.keepOldAction request.signalNumber oldAction
            attaching := some ⟨request, oldAction, true⟩ }
      | _ => none
  | .emplaceHandler =>
      match world.attaching with
      | some ⟨request, _, true⟩ =>
          some { world with
            dispatcher := world.dispatcher.emplaceHandler request.signalNumber request.handler
            attaching := none
            attached := world.attached ++ [request] }
      | _ => none
  | .deliver _ => some world

end SignalDispatcher

end Cadence
