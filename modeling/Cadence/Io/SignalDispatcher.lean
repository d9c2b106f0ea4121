import Cadence.Error
import Cadence.Foundation.Multimap
import Mathlib.Logic.Function.Basic
import Mathlib.Data.Int.Order.Basic

/-!
# The signal dispatcher

`SignalDispatcher` over the dispositions of the process. What is installed for a signal is an address
with flags, and two of the addresses are markers that are not functions.
-/

namespace Cadence

def SA_SIGINFO : BitVec 32 := 4

/-- The field `sa_handler`, which `sa_sigaction` shares. -/
inductive SaHandler (Fn : Type) where
  /-- The null pointer. -/
  | sigDfl
  | sigIgn
  | function (address : Fn)
  /-- `signalHandler` of the dispatcher, which no one else can name. -/
  | signalHandler
  deriving DecidableEq

structure Sigaction (Fn : Type) where
  saHandler : SaHandler Fn
  saFlags : BitVec 32
  deriving DecidableEq

structure Dispositions (Fn : Type) where
  actionOf : Int → Sigaction Fn
  foreign : ∀ signum, (actionOf signum).saHandler ≠ .signalHandler

inductive SignalCall (Fn Handler : Type) where
  | saHandler (address : SaHandler Fn) (signal : Int)
  | saSigaction (address : SaHandler Fn) (signal : Int)
  | handler (handler : Handler) (signal : Int)
  deriving DecidableEq

/-- The functions in the map: the lambda that `attachHandler` makes of an old action, or a handler. -/
inductive Mapped (Fn Handler : Type) where
  | oldAction (action : Sigaction Fn)
  | handler (handler : Handler)

variable {Fn Handler : Type}

def Sigaction.call (action : Sigaction Fn) (signal : Int) : SignalCall Fn Handler :=
  if action.saFlags &&& SA_SIGINFO = SA_SIGINFO then .saSigaction action.saHandler signal
  else .saHandler action.saHandler signal

def Mapped.call : Mapped Fn Handler → Int → SignalCall Fn Handler
  | .oldAction old, signal => old.call signal
  | .handler attached, signal => .handler attached signal

structure SignalDispatcher (Fn Handler : Type) where
  installed : Int → Sigaction Fn
  mapping : Multimap Int (Mapped Fn Handler)

namespace SignalDispatcher

def create (initial : Dispositions Fn) : SignalDispatcher Fn Handler :=
  ⟨initial.actionOf, Multimap.empty⟩

/-- `attachHandler`. `failure` is the error of `sigaction`. -/
def attachHandler [DecidableEq Fn] (dispatcher : SignalDispatcher Fn Handler)
    (signalNumber : Int) (handler : Handler) (failure : Option Errno) :
    Except Exception Unit × SignalDispatcher Fn Handler :=
  match failure with
  | some errno => (.error (.ioException errno), dispatcher)
  | none =>
      let oldAction := dispatcher.installed signalNumber
      -- the null test leaves out `SIG_DFL`; `SIG_IGN` is a marker that is not null
      let mapping :=
        if oldAction.saHandler ≠ .sigDfl ∧ oldAction.saHandler ≠ .signalHandler then
          dispatcher.mapping.emplace signalNumber (.oldAction oldAction)
        else dispatcher.mapping
      (.ok (),
        { installed := Function.update dispatcher.installed signalNumber ⟨.signalHandler, 0⟩
          mapping := mapping.emplace signalNumber (.handler handler) })

def signalHandler (dispatcher : SignalDispatcher Fn Handler) (signum : Int) :
    List (SignalCall Fn Handler) :=
  (dispatcher.mapping.equalRange signum).map fun mapped => mapped.call signum

/-- The calls at the delivery of a signal. For a marker the kernel calls nothing. -/
def deliver (dispatcher : SignalDispatcher Fn Handler) (signum : Int) :
    List (SignalCall Fn Handler) :=
  let action := dispatcher.installed signum
  match action.saHandler with
  | .sigDfl | .sigIgn => []
  | .function _ => [action.call signum]
  | .signalHandler => dispatcher.signalHandler signum

structure Attach (Handler : Type) where
  signalNumber : Int
  handler : Handler
  failure : Option Errno

def attach [DecidableEq Fn] (dispatcher : SignalDispatcher Fn Handler)
    (request : Attach Handler) : SignalDispatcher Fn Handler :=
  (dispatcher.attachHandler request.signalNumber request.handler request.failure).2

/-- The dispatcher after a sequence of calls, each one caught when it raises. -/
def attachAll [DecidableEq Fn] (initial : Dispositions Fn)
    (requests : List (Attach Handler)) : SignalDispatcher Fn Handler :=
  requests.foldl attach (create initial)

end SignalDispatcher

end Cadence
