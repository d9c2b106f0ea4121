import Mathlib.Data.List.Basic

/-!
# Endpoints
-/

namespace Cadence

abbrev Byte := BitVec 8

/-- `IPAddress`. An IPv4 address lives in the first four bytes of the union; the constructors leave
the others unwritten, and nothing reads them. -/
structure IPAddress where
  bytes : Vector Byte 16
  isV4 : Bool
  deriving DecidableEq

namespace IPAddress

def ofBytesV4 (addr : Vector Byte 4) : IPAddress :=
  ⟨Vector.ofFn fun i => if h : i.val < 4 then addr[i.val] else 0, true⟩

def ofBytesV6 (addr : Vector Byte 16) : IPAddress :=
  ⟨addr, false⟩

def isV6 (address : IPAddress) : Bool := !address.isV4

def getBytesV4 (address : IPAddress) : Vector Byte 4 :=
  Vector.ofFn fun i => address.bytes[i.val]

def getBytesV6 (address : IPAddress) : Vector Byte 16 :=
  address.bytes

def any : IPAddress := ofBytesV4 (Vector.replicate 4 0)

/-- `operator==`. -/
def equals (lhs rhs : IPAddress) : Bool :=
  if lhs.isV4 && rhs.isV4 then lhs.getBytesV4 == rhs.getBytesV4
  else if lhs.isV6 && rhs.isV6 then lhs.getBytesV6 == rhs.getBytesV6
  else false

/-- The octets that the family makes meaningful. -/
def octets (address : IPAddress) : Vector Byte 4 ⊕ Vector Byte 16 :=
  if address.isV4 then .inl address.getBytesV4 else .inr address.getBytesV6

def ofOctets : Vector Byte 4 ⊕ Vector Byte 16 → IPAddress
  | .inl addr => ofBytesV4 addr
  | .inr addr => ofBytesV6 addr

@[simp]
theorem getBytesV4_ofBytesV4 (addr : Vector Byte 4) : (ofBytesV4 addr).getBytesV4 = addr := by
  apply Vector.ext
  intro i hi
  simp [getBytesV4, ofBytesV4]

@[simp]
theorem octets_ofBytesV4 (addr : Vector Byte 4) : (ofBytesV4 addr).octets = .inl addr := by
  rw [octets, if_pos (show (ofBytesV4 addr).isV4 = true from rfl), getBytesV4_ofBytesV4]

@[simp]
theorem octets_ofBytesV6 (addr : Vector Byte 16) : (ofBytesV6 addr).octets = .inr addr := rfl

theorem equals_iff {lhs rhs : IPAddress} : lhs.equals rhs = true ↔ lhs.octets = rhs.octets := by
  obtain ⟨bytes, isV4⟩ := lhs
  obtain ⟨bytes', isV4'⟩ := rhs
  cases isV4 <;> cases isV4' <;> simp [equals, octets, isV6]

end IPAddress

structure IPEndpoint where
  port : BitVec 16
  address : IPAddress
  deriving DecidableEq

structure UnixEndpoint where
  str : List Byte
  deriving DecidableEq

inductive NetworkEndpoint where
  | ip (endpoint : IPEndpoint)
  | unix (endpoint : UnixEndpoint)
  deriving DecidableEq

end Cadence
