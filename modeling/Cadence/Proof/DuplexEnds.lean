import Cadence.Io.Duplex

/-!
# The ends of a duplex do not block each other

A call on a duplex should reach each end that is open, whatever becomes of the other one. The code
calls the ends one after the other, so a read end that fails keeps the call from the write end.
-/

namespace Cadence.DuplexEnds

open Duplex

/-- The native call is issued on every end that is open, and the duplex fails when an end does. -/
structure ReachesBothEnds (operation : Duplex.Operation) (in' out : PollId) (ec ec' : Option Errno) :
    Prop where
  native : (operation.run in' out ec ec').effects = (validFd in').toList ++ (validFd out).toList
  reported : (operation.run in' out ec ec').Fails ↔
    (operation.onFile in' ec).Fails ∨ (operation.onFile out ec').Fails

/-- The read end does not fail: a closed one is no failure for `close`, and one for `flush`. -/
def ReadEndSucceeds (in' : PollId) (ec : Option Errno) : Duplex.Operation → Prop
  | .close => in' = InvalidFd ∨ ec = none
  | .flush => in' ≠ InvalidFd ∧ ec = none

variable {operation : Duplex.Operation} {in' out fd : PollId} {ec ec' : Option Errno}

theorem not_fails_onFile_iff :
    ¬ (operation.onFile in' ec).Fails ↔ ReadEndSucceeds in' ec operation := by
  cases operation with
  | close =>
      calc
        ¬ (File.closeCall in' ec).Fails ↔ ¬ (in' ≠ InvalidFd ∧ ec ≠ none) :=
          not_congr File.closeCall_fails_iff
        _ ↔ in' = InvalidFd ∨ ec = none := by
          rw [Classical.not_and_iff_not_or_not, Classical.not_not, Classical.not_not]
  | flush =>
      calc
        ¬ (File.flushCall in' ec).Fails ↔ ¬ (in' = InvalidFd ∨ ec ≠ none) :=
          not_congr File.flushCall_fails_iff
        _ ↔ in' ≠ InvalidFd ∧ ec = none := by
          rw [not_or, Classical.not_not]

theorem validFd_toList_eq_nil_iff : (validFd fd).toList = [] ↔ fd = InvalidFd := by
  unfold validFd
  split
  next hclosed => exact ⟨fun _ => hclosed, fun _ => rfl⟩
  next hopen => exact ⟨fun h => (by cases h), fun hclosed => absurd hclosed hopen⟩

/-- **The ends of a duplex.** `close` and `flush` reach every open end, and report the failure of
either, if and only if the read end does not fail or the write end is closed. -/
theorem reachesBothEnds_iff (operation : Duplex.Operation) (in' out : PollId) (ec ec' : Option Errno) :
    ReachesBothEnds operation in' out ec ec' ↔
      ReadEndSucceeds in' ec operation ∨ out = InvalidFd := by
  have hreported : (operation.run in' out ec ec').Fails ↔
      (operation.onFile in' ec).Fails ∨ (operation.onFile out ec').Fails := by
    rw [run_eq_andThen]
    exact Attempt.fails_andThen_iff
  have hnative :
      (operation.run in' out ec ec').effects = (validFd in').toList ++ (validFd out).toList ↔
        ReadEndSucceeds in' ec operation ∨ out = InvalidFd := by
    rw [run_eq_andThen, ← effects_onFile, ← effects_onFile, Attempt.effects_andThen_iff,
      not_fails_onFile_iff, effects_onFile, validFd_toList_eq_nil_iff]
  constructor
  · exact fun hreaches => hnative.mp hreaches.native
  · exact fun hsucceeds => ⟨hnative.mpr hsucceeds, hreported⟩

/-- The two ends of a pipe, which do not support `fsync`: the write end is not flushed. -/
theorem not_reachesBothEnds_of_pipe :
    ¬ ReachesBothEnds .flush 3 4 (some EINVAL) (some EINVAL) := by
  intro hreaches
  exact absurd hreaches.native (by decide)

end Cadence.DuplexEnds
