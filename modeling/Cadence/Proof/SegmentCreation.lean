import Cadence.Io.SharedMemory

/-!
# A segment that is not created

A call of `create` that raises should leave the system as it found it. Before the descriptor is opened
it does; after that the only thing that can fail is `ftruncate`, and then the descriptor stays open and
the name in place.
-/

namespace Cadence.SegmentCreation

open ShmSystem SharedMemory

/-- A call that raises leaves nothing behind. -/
def FailsCleanly (system : ShmSystem) (pathname : Path) (memSize : BitVec 64) (mode : AccessMode)
    (permissionsMode : BitVec 32) (outcomes : system.Outcomes) : Prop :=
  ∀ e next, create system pathname memSize mode permissionsMode outcomes = (.error e, next) →
    LeavesNothing system next

/-- **Creating a segment.** A `create` that raises leaves neither a descriptor nor a new name, if and
only if `ftruncate` does not fail once `shm_open` has succeeded. -/
theorem failsCleanly_iff (system : ShmSystem) (pathname : Path) (memSize : BitVec 64)
    (mode : AccessMode) (permissionsMode : BitVec 32) (outcomes : system.Outcomes) :
    FailsCleanly system pathname memSize mode permissionsMode outcomes ↔
      (Acquires system pathname memSize outcomes →
        Truncates memSize mode outcomes.ftruncateEc) := by
  by_cases hacquires : Acquires system pathname memSize outcomes
  · rw [imp_iff_right hacquires]
    obtain ⟨fd, ⟨htruncates, next, hok⟩ | ⟨hnot, errno, herror⟩⟩ := create_of_acquires hacquires
    · refine ⟨fun _ => htruncates, fun _ e next' hraised => ?_⟩
      rw [hok] at hraised
      cases hraised
    · refine ⟨fun hcleanly => ?_, fun htruncates => absurd htruncates hnot⟩
      exact absurd (hcleanly _ _ herror) (not_leavesNothing_shmOpen fd.2.2)
  · obtain ⟨e, herror⟩ := create_of_not_acquires hacquires
    refine ⟨fun _ h => absurd h hacquires, fun _ e' next hraised => ?_⟩
    rw [herror] at hraised
    cases hraised
    exact .refl system

/-- No segment has a name and no descriptor is open. -/
def emptySystem : ShmSystem := ⟨fun _ => none, fun _ => none⟩

/-- A segment created for reading only: `shm_open` returns descriptor 3, which stays open. -/
theorem not_failsCleanly_of_readOnly :
    ¬ FailsCleanly emptySystem "/segment" 128 .readOnly 0o600
      ⟨.ok ⟨3, by decide, rfl⟩, none⟩ := by
  intro hcleanly
  have hleaves := hcleanly (.system EINVAL "ftruncate") _ (by rfl)
  exact absurd (hleaves.descriptors 3 rfl) (by decide)

end Cadence.SegmentCreation
