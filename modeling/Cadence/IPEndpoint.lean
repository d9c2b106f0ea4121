import Cadence.Foundation.InetShape
import Cadence.NetworkEndpoint

/-!
# Addresses and endpoints as text

A `StringView` knows its size, but `inet_pton` is given its data alone. What stands behind the view in
the buffer belongs to the model for that reason.
-/

namespace Cadence

open Numeral InetText

structure StringView where
  /-- The bytes from `data()` to the end of the buffer. -/
  buffer : List Byte
  size : Nat
  fits : size ≤ buffer.length

namespace StringView

def text (view : StringView) : List Byte := view.buffer.take view.size

def behind (view : StringView) : List Byte := view.buffer.drop view.size

/-- The view of `text` with `behind` after it in the buffer. -/
def within (text behind : List Byte) : StringView where
  buffer := text ++ behind
  size := text.length
  fits := by rw [List.length_append]; exact Nat.le_add_right _ _

/-- What a C function reads at `data()`. No result where the buffer holds no NUL. -/
def cString (view : StringView) : Option (List Byte) :=
  if 0 ∈ view.buffer then some (view.buffer.takeWhile (· ≠ 0)) else none

@[simp]
theorem text_within (text behind : List Byte) : (within text behind).text = text :=
  List.take_left

@[simp]
theorem behind_within (text behind : List Byte) : (within text behind).behind = behind :=
  List.drop_left

theorem text_append_behind (view : StringView) : view.text ++ view.behind = view.buffer :=
  List.take_append_drop _ _

end StringView

inductive BasicError where
  | InvalidInput
  deriving DecidableEq

structure ParseError where
  error : BasicError
  tag : String
  deriving DecidableEq

def makeError (error : BasicError) (tag : String) : ParseError := ⟨error, tag⟩

/-! ### Printing -/

def INET6_ADDRSTRLEN : Nat := 46

/-- `inet_ntop` with the size of its buffer. -/
def intoBuffer (size : Nat) (text : List Byte) : Option (List Byte) :=
  if text.length < size then some text else none

/-- `snprintf` with the size of its buffer. -/
def snprintf (size : Nat) (text : List Byte) : List Byte :=
  text.take (size - 1)

/-- The separator comes first. -/
def makeStringJoin (separator : List Byte) (parts : List (List Byte)) : List Byte :=
  separator.intercalate parts

def IPAddress.toString (address : IPAddress) : List Byte :=
  let res :=
    if address.isV4 then intoBuffer INET6_ADDRSTRLEN (inetNtop4 address.getBytesV4)
    else intoBuffer INET6_ADDRSTRLEN (inetNtop6 address.getBytesV6)
  match res with
  | some text => text
  | none => []

def IPEndpoint.toString (endpoint : IPEndpoint) : List Byte :=
  let buffer := snprintf 6 (numeral 10 endpoint.port.toNat)
  makeStringJoin endpoint.address.toString [[colon], buffer]

/-! ### Parsing -/

def parseAddressText (text : List Byte) : Except ParseError IPAddress :=
  match inetPton4 text with
  | some octets => .ok (.ofBytesV4 octets)
  | none =>
      match inetPton6 text with
      | some octets => .ok (.ofBytesV6 octets)
      | none => .error (makeError .InvalidInput "parseIPAddress")

/-- No result where `inet_pton` reads behind the buffer. -/
def parseIPAddress (str : StringView) : Option (Except ParseError IPAddress) :=
  str.cString.map parseAddressText

def parseIPEndpoint (_ : StringView) : Except ParseError IPEndpoint :=
  .ok ⟨0, .any⟩

/-! ### The text of an address -/

namespace IPAddress

variable {address other : IPAddress}

theorem toString_eq (address : IPAddress) :
    address.toString = address.octets.elim inetNtop4 inetNtop6 := by
  rw [toString, octets]
  cases address.isV4 with
  | true => simp only [intoBuffer, INET6_ADDRSTRLEN, length_inetNtop4_lt, if_true, Sum.elim_inl]
  | false =>
      simp only [intoBuffer, INET6_ADDRSTRLEN, length_inetNtop6_lt, Bool.false_eq_true, if_false,
        if_true, Sum.elim_inr]

/-- Every address has a text, and one that is accepted. -/
theorem accepted_toString (address : IPAddress) : Accepted address.toString := by
  rw [toString_eq]
  cases address.octets with
  | inl octets => exact accepted_inetNtop4 octets
  | inr octets => exact accepted_inetNtop6 octets

/-- The text tells addresses apart, of one family and of both. -/
theorem toString_eq_iff : address.toString = other.toString ↔ address.octets = other.octets := by
  rw [toString_eq, toString_eq]
  cases address.octets with
  | inl octets =>
      cases other.octets with
      | inl octets' => simp [inetNtop4_injective.eq_iff]
      | inr octets' => simp [inetNtop4_ne_inetNtop6]
  | inr octets =>
      cases other.octets with
      | inl octets' => simp [(inetNtop4_ne_inetNtop6 octets' octets).symm]
      | inr octets' => simp [inetNtop6_injective.eq_iff]

theorem zero_notMem_toString (address : IPAddress) : 0 ∉ address.toString :=
  (accepted_toString address).notMem (by decide)

theorem parseAddressText_toString (address : IPAddress) :
    ∃ parsed, parseAddressText address.toString = .ok parsed ∧ parsed.equals address = true := by
  rw [toString_eq]
  cases hoctets : address.octets with
  | inl octets =>
      refine ⟨.ofBytesV4 octets, ?_, equals_iff.mpr ((octets_ofBytesV4 octets).trans hoctets.symm)⟩
      rw [parseAddressText, Sum.elim_inl, inetPton4_inetNtop4]
  | inr octets =>
      refine ⟨.ofBytesV6 octets, ?_, equals_iff.mpr ((octets_ofBytesV6 octets).trans hoctets.symm)⟩
      rw [parseAddressText, Sum.elim_inr, inetPton4_inetNtop6, inetPton6_inetNtop6]

end IPAddress

theorem snprintf_port (port : BitVec 16) :
    snprintf 6 (numeral 10 port.toNat) = numeral 10 port.toNat := by
  have hport : port.toNat < 10 ^ 5 := Nat.lt_trans port.isLt (by decide)
  exact List.take_of_length_le ((length_numeral_le_iff (by decide) (by decide)).mpr hport)

/-- The address is printed between the colon and the port. -/
theorem IPEndpoint.toString_eq (endpoint : IPEndpoint) :
    endpoint.toString = colon :: (endpoint.address.toString ++ numeral 10 endpoint.port.toNat) := by
  rw [IPEndpoint.toString, snprintf_port, makeStringJoin, List.intercalate_cons_cons,
    List.intercalate_singleton, List.append_assoc, List.singleton_append]

theorem accepted_iff {text : List Byte} :
    Accepted text ↔ ∃ address, parseAddressText text = .ok address := by
  rw [Accepted, parseAddressText]
  cases inetPton4 text with
  | some octets => exact iff_of_true (.inl ⟨octets, rfl⟩) ⟨_, rfl⟩
  | none =>
      cases inetPton6 text with
      | some octets => exact iff_of_true (.inr ⟨octets, rfl⟩) ⟨_, rfl⟩
      | none =>
          apply iff_of_false
          · rintro (⟨_, hnone⟩ | ⟨_, hnone⟩)
            · cases hnone
            · cases hnone
          · rintro ⟨_, herror⟩
            cases herror

end Cadence
