import Cadence.Error
import Cadence.NetworkEndpoint
import Mathlib.Data.List.TakeWhile

/-!
# Conversions to and from the endpoints of asio

`sockaddr_un` is modelled as memory: the bytes of `sun_path` that nothing has written yet have no
value, and a conversion that writes behind the array or reads such a byte has no result.
-/

namespace Cadence

inductive AsioAddress where
  | v4 (bytes : Vector Byte 4)
  | v6 (bytes : Vector Byte 16) (scopeId : BitVec 32)
  deriving DecidableEq

structure AsioEndpoint where
  address : AsioAddress
  port : BitVec 16
  deriving DecidableEq

structure AsioLocalEndpoint where
  path : List Byte
  deriving DecidableEq

def fromAsioEndpoint (addr : AsioEndpoint) : IPEndpoint where
  port := addr.port
  address :=
    match addr.address with
    | .v4 bytes => .ofBytesV4 bytes
    | .v6 bytes _ => .ofBytesV6 bytes

/-- `fromAsioEndpoint` of a local endpoint. -/
def fromAsioLocalEndpoint (addr : AsioLocalEndpoint) : NetworkEndpoint :=
  .unix ⟨addr.path⟩

def toAsioIPAddress (addr : IPAddress) : AsioAddress :=
  if addr.isV4 then .v4 addr.getBytesV4 else .v6 addr.getBytesV6 0

/-- `toAsioTCPEndpoint` and `toAsioUDPEndpoint`. -/
def toAsioEndpoint (addr : IPEndpoint) : AsioEndpoint :=
  ⟨toAsioIPAddress addr.address, addr.port⟩

def toAsioIPEndpoint : NetworkEndpoint → Except Errno AsioEndpoint
  | .ip arg => .ok (toAsioEndpoint arg)
  | .unix _ => .error EAFNOSUPPORT

/-! ### Local endpoints -/

abbrev CharArray := List (Option Byte)

def CharArray.store (dest : CharArray) (i : Nat) (byte : Byte) : Option CharArray :=
  if i < dest.length then some (dest.set i (some byte)) else none

/-- `strncpy`: the bytes up to the first NUL, padded with NULs to `n` bytes. -/
def strncpy (dest : CharArray) (src : List Byte) (n : Nat) : Option CharArray :=
  if n ≤ dest.length then
    let text := (src.take n).takeWhile (· ≠ 0)
    some ((text ++ List.replicate (n - text.length) 0).map some ++ dest.drop n)
  else none

def CharArray.cString : CharArray → Option (List Byte)
  | some byte :: rest => if byte = 0 then some [] else (cString rest).map (byte :: ·)
  | none :: _ => none
  | [] => none

/-- `sizeof(sockaddr_un::sun_path)`. -/
def sunPathSize : Nat := 108

def toAsioLocalEndpoint (sunPathSize : Nat) :
    NetworkEndpoint → Option (Except Errno AsioLocalEndpoint)
  | .unix arg => do
      let addrNameView := arg.str
      let totalSize := min addrNameView.length sunPathSize
      let sunPath ← strncpy (List.replicate sunPathSize none) addrNameView totalSize
      let sunPath ← sunPath.store totalSize 0
      let path ← sunPath.cString
      return .ok ⟨path⟩
  | .ip _ => some (.error EAFNOSUPPORT)

theorem exists_ok_of_toAsioLocalEndpoint {n : Nat} {arg : UnixEndpoint}
    {result : Except Errno AsioLocalEndpoint}
    (hconvert : toAsioLocalEndpoint n (.unix arg) = some result) : ∃ e, result = .ok e := by
  obtain ⟨_, _, hconvert⟩ := Option.bind_eq_some_iff.mp hconvert
  obtain ⟨_, _, hconvert⟩ := Option.bind_eq_some_iff.mp hconvert
  obtain ⟨path, _, hconvert⟩ := Option.bind_eq_some_iff.mp hconvert
  exact ⟨⟨path⟩, (Option.some.inj hconvert).symm⟩

/-! ### What a conversion comes to -/

theorem takeWhile_of_no_nul {name : List Byte} (hname : 0 ∉ name) :
    name.takeWhile (· ≠ 0) = name := by
  apply List.takeWhile_eq_self_iff.mpr
  intro byte hbyte
  exact decide_eq_true (ne_of_mem_of_not_mem hbyte hname)

/-- Padding with NULs adds nothing to a C string. -/
theorem takeWhile_padded (text : List Byte) (zeros : Nat) :
    (text.takeWhile (· ≠ 0) ++ List.replicate zeros 0).takeWhile (· ≠ 0) =
      text.takeWhile (· ≠ 0) := by
  have hpadding : (List.replicate zeros (0 : Byte)).takeWhile (· ≠ 0) = [] := by
    cases zeros <;> rfl
  rw [List.takeWhile_append_of_pos, hpadding, List.append_nil]
  intro byte hbyte
  simpa using List.mem_takeWhile_imp hbyte

theorem CharArray.cString_terminated (text : List Byte) (rest : CharArray) :
    cString (text.map some ++ some 0 :: rest) = some (text.takeWhile (· ≠ 0)) := by
  induction text with
  | nil => exact if_pos rfl
  | cons byte text ih =>
      rw [List.map_cons, List.cons_append, cString, ih, List.takeWhile_cons]
      by_cases hbyte : byte = 0
      · have hstop : ¬ decide (byte ≠ 0) = true := by simpa using hbyte
        rw [if_pos hbyte, if_neg hstop]
      · have hgo : decide (byte ≠ 0) = true := decide_eq_true hbyte
        rw [if_neg hbyte, if_pos hgo, Option.map_some]

theorem CharArray.store_at (front : List Byte) (slot : Option Byte) (rest : CharArray) :
    store (front.map some ++ slot :: rest) front.length 0 =
      some (front.map some ++ some 0 :: rest) := by
  have hmap : (front.map some : CharArray).length = front.length := List.length_map some
  have hbound : front.length < (front.map some ++ slot :: rest).length := by
    rw [List.length_append, hmap, List.length_cons]
    omega
  rw [store, if_pos hbound, List.set_append_right _ _ (Nat.le_of_eq hmap), hmap, Nat.sub_self,
    List.set_cons_zero]

/-- The copy fills the array up to where the terminator is stored. -/
theorem CharArray.store_after {filled : List Byte} {dest : CharArray}
    (hlength : filled.length < dest.length) :
    store (filled.map some ++ dest.drop filled.length) filled.length 0 =
      some (filled.map some ++ some 0 :: dest.drop (filled.length + 1)) := by
  rw [List.drop_eq_getElem_cons hlength]
  exact store_at filled _ _

theorem strncpy_of_le {dest : CharArray} {src : List Byte} {n : Nat} (hn : n ≤ dest.length) :
    ∃ filled zeros, filled = (src.take n).takeWhile (· ≠ 0) ++ List.replicate zeros 0 ∧
      filled.length = n ∧ strncpy dest src n = some (filled.map some ++ dest.drop n) := by
  have htext : ((src.take n).takeWhile (· ≠ 0)).length ≤ n :=
    Nat.le_trans (List.takeWhile_sublist _).length_le (List.length_take_le _ _)
  refine ⟨_, n - ((src.take n).takeWhile (· ≠ 0)).length, rfl, ?_, if_pos hn⟩
  rw [List.length_append, List.length_replicate]
  omega

section Conversion

variable {n : Nat} {arg : UnixEndpoint}

theorem toAsioLocalEndpoint_of_fits (hfits : arg.str.length < n) :
    toAsioLocalEndpoint n (.unix arg) = some (.ok ⟨arg.str.takeWhile (· ≠ 0)⟩) := by
  have hdest : (List.replicate n none : CharArray).length = n := List.length_replicate
  have hmin : min arg.str.length n = arg.str.length := by omega
  obtain ⟨filled, zeros, hfilled, hlength, hcopy⟩ :=
    @strncpy_of_le (List.replicate n none) arg.str arg.str.length (by omega)
  rw [List.take_length] at hfilled
  have hstore := @CharArray.store_after filled (List.replicate n none) (by omega)
  rw [hlength] at hstore
  have hpath : CharArray.cString (filled.map some ++ some 0 ::
      (List.replicate n none).drop (arg.str.length + 1)) =
        some (arg.str.takeWhile (· ≠ 0)) := by
    rw [CharArray.cString_terminated, hfilled, takeWhile_padded]
  simp only [toAsioLocalEndpoint, hmin, hcopy, hstore, hpath, Option.bind_eq_bind,
    Option.bind_some, Option.pure_def]

theorem toAsioLocalEndpoint_of_long (hlong : n ≤ arg.str.length) :
    toAsioLocalEndpoint n (.unix arg) = none := by
  have hdest : (List.replicate n none : CharArray).length = n := List.length_replicate
  have hmin : min arg.str.length n = n := by omega
  obtain ⟨filled, _, _, hlength, hcopy⟩ :=
    @strncpy_of_le (List.replicate n none) arg.str n (by omega)
  have hstore :
      CharArray.store (filled.map some ++ (List.replicate n none).drop n) n 0 = none := by
    apply if_neg
    rw [List.length_append, List.length_map, List.length_drop, hlength, hdest]
    omega
  simp only [toAsioLocalEndpoint, hmin, hcopy, hstore, Option.bind_eq_bind, Option.bind_some,
    Option.bind_none]

/-- A name that leaves room for the terminator is converted up to its first NUL, and for a longer one
the terminator is stored behind the array. -/
theorem toAsioLocalEndpoint_unix (n : Nat) (arg : UnixEndpoint) :
    toAsioLocalEndpoint n (.unix arg) =
      if arg.str.length < n then some (.ok ⟨arg.str.takeWhile (· ≠ 0)⟩) else none := by
  split
  next hfits => exact toAsioLocalEndpoint_of_fits hfits
  next hlong => exact toAsioLocalEndpoint_of_long (Nat.le_of_not_lt hlong)

end Conversion

end Cadence
