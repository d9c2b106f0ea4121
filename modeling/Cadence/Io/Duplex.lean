import Cadence.Foundation.Attempt
import Cadence.Io.Lifetime
import Cadence.Io.OpenFile

/-!
# The two ends of a duplex

`close` and `flush` of a `Duplex`, and so of a `Pipe`, call the two ends in turn. A call is taken with
the descriptors that it passes to the native function.
-/

namespace Cadence

abbrev FileCall := Attempt Exception PollId

namespace File

variable {fd : PollId} {ec : Option Errno}

def closeCall (fd : PollId) (ec : Option Errno) : FileCall :=
  ⟨(close fd ec).result, (close fd ec).released⟩

/-- `flush`, where the native `::fsync` fails with `ec`. -/
def flushCall (fd : PollId) (ec : Option Errno) : FileCall :=
  if fd = InvalidFd then ⟨.error .notOpen, []⟩
  else
    match ec with
    | some ec => ⟨.error (.ioException ec), [fd]⟩
    | none => ⟨.ok (), [fd]⟩

theorem flushCall_result {file : Option OpenFile} (hfile : fd = InvalidFd ↔ file = none) :
    (flushCall fd ec).result = flush file ec := by
  unfold flushCall
  cases file with
  | none => rw [if_pos (hfile.mpr rfl), flush]
  | some file =>
      rw [if_neg fun hclosed => Option.some_ne_none file (hfile.mp hclosed)]
      cases ec with
      | some ec => rfl
      | none => rfl

theorem closeCall_effects : (closeCall fd ec).effects = (validFd fd).toList :=
  released_close

theorem flushCall_effects : (flushCall fd ec).effects = (validFd fd).toList := by
  unfold flushCall validFd
  split
  next => rfl
  next => cases ec <;> rfl

theorem closeCall_fails_iff : (closeCall fd ec).Fails ↔ fd ≠ InvalidFd ∧ ec ≠ none := by
  by_cases hsucceeds : fd ≠ InvalidFd → ec = none
  · have hok : (closeCall fd ec).result = .ok () :=
      congrArg Closed.result (close_of_succeeds hsucceeds)
    exact ⟨fun hfails => absurd hok fun h => Attempt.not_fails_iff.mpr h hfails,
      fun ⟨hopen, hec⟩ => absurd (hsucceeds hopen) hec⟩
  · obtain ⟨hopen, e, herror⟩ := close_of_not_succeeds hsucceeds
    refine ⟨fun _ => ⟨hopen, fun hec => hsucceeds fun _ => hec⟩, fun _ => ⟨e, ?_⟩⟩
    exact congrArg Closed.result herror

theorem flushCall_fails_iff : (flushCall fd ec).Fails ↔ fd = InvalidFd ∨ ec ≠ none := by
  unfold flushCall
  split
  next hclosed => exact ⟨fun _ => Or.inl hclosed, fun _ => ⟨.notOpen, rfl⟩⟩
  next hopen =>
    cases ec with
    | some ec => exact ⟨fun _ => Or.inr (by simp), fun _ => ⟨.ioException ec, rfl⟩⟩
    | none => simp [Attempt.Fails, hopen]

end File

namespace Duplex

inductive Operation where
  | close
  | flush
  deriving DecidableEq

def Operation.onFile : Operation → PollId → Option Errno → FileCall
  | .close => File.closeCall
  | .flush => File.flushCall

def close (in' out : PollId) (ec ec' : Option Errno) : FileCall :=
  (File.closeCall in' ec).andThen (File.closeCall out ec')

def flush (in' out : PollId) (ec ec' : Option Errno) : FileCall :=
  (File.flushCall in' ec).andThen (File.flushCall out ec')

/-- The operation as the source has it. The second outcome is that of the native call on `_out`. -/
def Operation.run : Operation → PollId → PollId → Option Errno → Option Errno → FileCall
  | .close => Duplex.close
  | .flush => Duplex.flush

variable {operation : Operation} {in' out fd : PollId} {ec ec' : Option Errno}

theorem run_eq_andThen :
    operation.run in' out ec ec' =
      (operation.onFile in' ec).andThen (operation.onFile out ec') := by
  cases operation with
  | close => rfl
  | flush => rfl

theorem effects_onFile : (operation.onFile fd ec).effects = (validFd fd).toList := by
  cases operation with
  | close => exact File.closeCall_effects
  | flush => exact File.flushCall_effects

/-- The `close` of an object that is a duplex is this one. -/
theorem close_object :
    ((IoObject.duplex in' out).close ec ec').result = (close in' out ec ec').result ∧
      ((IoObject.duplex in' out).close ec ec').released = (close in' out ec ec').effects := by
  rw [IoObject.close, close, Attempt.andThen, File.closeCall]
  cases hclose : (File.close in' ec).result with
  | error e => exact ⟨rfl, rfl⟩
  | ok value => exact ⟨rfl, rfl⟩

end Duplex

end Cadence
