import Cadence.Async.AsioHelper

/-!
# Converting the names of local sockets

A name is copied into `sun_path` and read back from there by asio. That is the identity as long as the
terminator has room, and a longer name is not refused: the terminator is stored behind the array.
-/

namespace Cadence.LocalEndpoints

/-- The conversion stays inside `sun_path` and reads only what was written there. What it does not
refuse it turns into an endpoint that asio has room for, that gives back the name and that no other
name is turned into. -/
def ConvertsFaithfully (n : Nat) (name : List Byte) : Prop :=
  ∃ result, toAsioLocalEndpoint n (.unix ⟨name⟩) = some result ∧
    ∀ e, result = .ok e →
      e.path.length < n ∧ fromAsioLocalEndpoint e = .unix ⟨name⟩ ∧
        ∀ other, 0 ∉ other → toAsioLocalEndpoint n (.unix ⟨other⟩) = some (.ok e) → other = name

variable {n : Nat} {name : List Byte}

theorem toAsioLocalEndpoint_of_no_nul (hname : 0 ∉ name) :
    toAsioLocalEndpoint n (.unix ⟨name⟩) =
      if name.length < n then some (.ok ⟨name⟩) else none := by
  rw [toAsioLocalEndpoint_unix, takeWhile_of_no_nul hname]

theorem eq_of_toAsioLocalEndpoint {e : AsioLocalEndpoint} (hname : 0 ∉ name)
    (hconvert : toAsioLocalEndpoint n (.unix ⟨name⟩) = some (.ok e)) : e = ⟨name⟩ := by
  rw [toAsioLocalEndpoint_of_no_nul hname] at hconvert
  split at hconvert
  next => exact (Except.ok.inj (Option.some.inj hconvert)).symm
  next => cases hconvert

/-- **Names of local sockets.** A name without a NUL is converted faithfully if and only if it is
shorter than `sun_path`. -/
theorem convertsFaithfully_iff (hname : 0 ∉ name) :
    ConvertsFaithfully n name ↔ name.length < n := by
  constructor
  · rintro ⟨result, hconvert, _⟩
    rw [toAsioLocalEndpoint_of_no_nul hname] at hconvert
    split at hconvert
    next hfits => exact hfits
    next => cases hconvert
  · intro hfits
    refine ⟨.ok ⟨name⟩, ?_, fun e he => ?_⟩
    · rw [toAsioLocalEndpoint_of_no_nul hname, if_pos hfits]
    · cases he
      refine ⟨hfits, rfl, fun other hother hconvert => ?_⟩
      have heq := eq_of_toAsioLocalEndpoint hother hconvert
      exact (congrArg AsioLocalEndpoint.path heq).symm

/-- The name `/tmp/x`. -/
theorem convertsFaithfully_of_short_name :
    ConvertsFaithfully sunPathSize [0x2f, 0x74, 0x6d, 0x70, 0x2f, 0x78] :=
  (convertsFaithfully_iff (by decide)).mpr (by decide)

/-- A name as long as the array. -/
theorem not_convertsFaithfully_of_long_name :
    ¬ ConvertsFaithfully sunPathSize (List.replicate 108 0x61) := by
  rintro ⟨result, hconvert, _⟩
  rw [toAsioLocalEndpoint_unix, if_neg (by simp [sunPathSize])] at hconvert
  cases hconvert

end Cadence.LocalEndpoints
