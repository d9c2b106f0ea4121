import Cadence.Foundation.ByteOrder
import Cadence.NetworkEndpoint

/-!
# Kinds of addresses

An IPv4 address is also read as the word `s_addr`, which depends on the byte order of the host.
-/

namespace Cadence

structure InAddr where
  s_addr : BitVec 32
  deriving DecidableEq

structure In6Addr where
  s6_addr : Vector Byte 16
  deriving DecidableEq

def INADDR_ANY : BitVec 32 := 0x00000000
def INADDR_LOOPBACK : BitVec 32 := 0x7f000001
def INADDR_BROADCAST : BitVec 32 := 0xffffffff

namespace IPAddress

variable (order : ByteOrder)

def ofInAddr (addr : InAddr) : IPAddress :=
  ofBytesV4 (order.store addr.s_addr)

def ofIn6Addr (addr : In6Addr) : IPAddress :=
  ofBytesV6 addr.s6_addr

/-- `IPAddress::any()` on a host of the given order. -/
def anyOn : IPAddress := ofInAddr order ⟨order.htonl INADDR_ANY⟩

/-- `IPAddress::loopback()`. -/
def loopbackOn : IPAddress := ofInAddr order ⟨order.htonl INADDR_LOOPBACK⟩

/-- `IPAddress::broadcast()`. -/
def broadcastOn : IPAddress := ofInAddr order ⟨order.htonl INADDR_BROADCAST⟩

/-- `_addr.ipv4`. -/
def ipv4 (address : IPAddress) : InAddr := ⟨order.load address.getBytesV4⟩

/-- `_addr.ipv6`. -/
def ipv6 (address : IPAddress) : In6Addr := ⟨address.bytes⟩

def isLoopback (address : IPAddress) : Bool :=
  if address.isV4 then (address.ipv4 order).s_addr == order.htonl INADDR_LOOPBACK
  else (address.ipv6.s6_addr.toList.take 15).all (· == 0) && address.ipv6.s6_addr[15] == 1

def isUnspecified (address : IPAddress) : Bool :=
  if address.isV4 then (address.ipv4 order).s_addr == 0
  else address.ipv6.s6_addr.toList.all (· == 0)

-- the word is masked as the host loads it
def isMulticast (address : IPAddress) : Bool :=
  if address.isV4 then (address.ipv4 order).s_addr &&& 0xF0000000 == 0xE0000000
  else address.ipv6.s6_addr[0] == 0xff

/-! ### What the predicates see -/

section Octets

variable {order} {address other : IPAddress} {v4 : Vector Byte 4} {v6 : Vector Byte 16}

theorem isV4_of_octets_inl (hoctets : address.octets = .inl v4) :
    address.isV4 = true ∧ address.getBytesV4 = v4 := by
  rw [octets] at hoctets
  split at hoctets
  next hV4 => exact ⟨hV4, Sum.inl.inj hoctets⟩
  next => cases hoctets

theorem isV4_of_octets_inr (hoctets : address.octets = .inr v6) :
    address.isV4 = false ∧ address.bytes = v6 := by
  rw [octets] at hoctets
  split at hoctets
  next => cases hoctets
  next hV6 => exact ⟨Bool.eq_false_of_not_eq_true hV6, Sum.inr.inj hoctets⟩

theorem isLoopback_v4 (hoctets : address.octets = .inl v4) :
    address.isLoopback order = true ↔ v4 = #v[127, 0, 0, 1] := by
  obtain ⟨hV4, hbytes⟩ := isV4_of_octets_inl hoctets
  rw [isLoopback, if_pos hV4, ipv4, hbytes, beq_iff_eq, ByteOrder.load_eq_htonl_iff]
  exact Iff.rfl

theorem isUnspecified_v4 (hoctets : address.octets = .inl v4) :
    address.isUnspecified order = true ↔ v4 = #v[0, 0, 0, 0] := by
  obtain ⟨hV4, hbytes⟩ := isV4_of_octets_inl hoctets
  have hzero : order.htonl 0 = 0 := by cases order <;> rfl
  rw [isUnspecified, if_pos hV4, ipv4, hbytes, beq_iff_eq, ← hzero, ByteOrder.load_eq_htonl_iff]
  exact Iff.rfl

/-- The top four bits of one octet, `1110` exactly from 224 to 239. -/
theorem octet_and_eq_iff (octet : Byte) :
    octet &&& 0xF0 = 0xE0 ↔ 224 ≤ octet.toNat ∧ octet.toNat ≤ 239 := by
  revert octet
  decide +kernel

theorem isMulticast_v4 (hoctets : address.octets = .inl v4) :
    address.isMulticast order = true ↔
      224 ≤ (order.lead v4).toNat ∧ (order.lead v4).toNat ≤ 239 := by
  obtain ⟨hV4, hbytes⟩ := isV4_of_octets_inl hoctets
  have hmask : (0xF0000000 : BitVec 32) = 0xF0#8 ++ 0#24 := by decide
  have hvalue : (0xE0000000 : BitVec 32) = 0xE0#8 ++ 0#24 := by decide
  rw [isMulticast, if_pos hV4, ipv4, hbytes, beq_iff_eq, hmask, hvalue, ← octet_and_eq_iff]
  exact ByteOrder.load_and_eq_iff

theorem isMulticast_v6 (hoctets : address.octets = .inr v6) :
    address.isMulticast order = true ↔ v6[0] = 0xff := by
  obtain ⟨hV6, hbytes⟩ := isV4_of_octets_inr hoctets
  rw [isMulticast, if_neg (by simp [hV6]), ipv6, hbytes, beq_iff_eq]

theorem isUnspecified_v6 (hoctets : address.octets = .inr v6) :
    address.isUnspecified order = true ↔ v6 = Vector.replicate 16 0 := by
  obtain ⟨hV6, hbytes⟩ := isV4_of_octets_inr hoctets
  rw [isUnspecified, if_neg (by simp [hV6]), ipv6, hbytes, List.all_eq_true]
  constructor
  · intro hzeros
    apply Vector.ext
    intro i hi
    have hzero := hzeros v6[i] (by simp)
    rw [eq_of_beq hzero, Vector.getElem_replicate]
  · intro hzeros
    rw [hzeros]
    decide

theorem isLoopback_v6 (hoctets : address.octets = .inr v6) :
    address.isLoopback order = true ↔ v6 = (Vector.replicate 16 0).set 15 1 := by
  obtain ⟨hV6, hbytes⟩ := isV4_of_octets_inr hoctets
  rw [isLoopback, if_neg (by simp [hV6]), ipv6, hbytes, Bool.and_eq_true, List.all_eq_true]
  constructor
  · rintro ⟨hzeros, hone⟩
    apply Vector.ext
    intro i hi
    rw [Vector.getElem_set]
    split
    next hlast =>
      subst hlast
      exact eq_of_beq hone
    next hother =>
      have hmem : v6[i] ∈ v6.toList.take 15 :=
        List.mem_take_iff_getElem.mpr ⟨i, by rw [Vector.length_toList]; omega, by simp⟩
      rw [eq_of_beq (hzeros _ hmem), Vector.getElem_replicate]
  · intro hloopback
    rw [hloopback]
    decide

end Octets

end IPAddress

end Cadence
