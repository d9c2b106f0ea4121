import Cadence.IPAddress

/-!
# Classifying addresses

The predicates answer for the octets of an address, however it was built. The one that masks `s_addr`
takes its leading octet for the first one, and on a little-endian host it is the last.
-/

namespace Cadence.IPAddress

variable {order : ByteOrder} {octets : Vector Byte 4 ⊕ Vector Byte 16} {address other : IPAddress}

/-- The ways to build an address of the given octets. -/
inductive Builds (order : ByteOrder) : Vector Byte 4 ⊕ Vector Byte 16 → IPAddress → Prop
  | bytesV4 (v4 : Vector Byte 4) : Builds order (.inl v4) (ofBytesV4 v4)
  | bytesV6 (v6 : Vector Byte 16) : Builds order (.inr v6) (ofBytesV6 v6)
  | inAddr (addr : InAddr) : Builds order (.inl (order.store addr.s_addr)) (ofInAddr order addr)
  | in6Addr (addr : In6Addr) : Builds order (.inr addr.s6_addr) (ofIn6Addr addr)
  | any : Builds order (.inl #v[0, 0, 0, 0]) (anyOn order)
  | loopback : Builds order (.inl #v[127, 0, 0, 1]) (loopbackOn order)
  | broadcast : Builds order (.inl #v[255, 255, 255, 255]) (broadcastOn order)

theorem octets_of_htonl (order : ByteOrder) (word : BitVec 32) :
    (ofInAddr order ⟨order.htonl word⟩).octets = .inl (ByteOrder.big.store word) := by
  rw [ofInAddr, ByteOrder.store_htonl, octets_ofBytesV4]

theorem Builds.octets_eq (hbuilds : Builds order octets address) : address.octets = octets := by
  cases hbuilds with
  | bytesV4 v4 => exact octets_ofBytesV4 v4
  | bytesV6 v6 => exact octets_ofBytesV6 v6
  | inAddr addr => exact octets_ofBytesV4 _
  | in6Addr addr => exact octets_ofBytesV6 _
  | any => exact octets_of_htonl order INADDR_ANY
  | loopback => exact octets_of_htonl order INADDR_LOOPBACK
  | broadcast => exact octets_of_htonl order INADDR_BROADCAST

structure Answers where
  multicast : Bool
  loopback : Bool
  unspecified : Bool
  deriving DecidableEq

def answers (order : ByteOrder) (address : IPAddress) : Answers where
  multicast := address.isMulticast order
  loopback := address.isLoopback order
  unspecified := address.isUnspecified order

/-- Equal addresses are answered for alike. -/
theorem answers_eq_of_equals (hequals : address.equals other = true) :
    address.answers order = other.answers order := by
  have hsame := equals_iff.mp hequals
  rw [answers, answers, Answers.mk.injEq]
  cases hoctets : other.octets with
  | inl v4 =>
      have haddress := hsame.trans hoctets
      refine ⟨?_, ?_, ?_⟩
      · exact Bool.eq_iff_iff.mpr ((isMulticast_v4 haddress).trans (isMulticast_v4 hoctets).symm)
      · exact Bool.eq_iff_iff.mpr ((isLoopback_v4 haddress).trans (isLoopback_v4 hoctets).symm)
      · exact Bool.eq_iff_iff.mpr ((isUnspecified_v4 haddress).trans (isUnspecified_v4 hoctets).symm)
  | inr v6 =>
      have haddress := hsame.trans hoctets
      refine ⟨?_, ?_, ?_⟩
      · exact Bool.eq_iff_iff.mpr ((isMulticast_v6 haddress).trans (isMulticast_v6 hoctets).symm)
      · exact Bool.eq_iff_iff.mpr ((isLoopback_v6 haddress).trans (isLoopback_v6 hoctets).symm)
      · exact Bool.eq_iff_iff.mpr ((isUnspecified_v6 haddress).trans (isUnspecified_v6 hoctets).symm)

/-! ### What the answers are to be -/

def MulticastOctet (octet : Byte) : Prop := 224 ≤ octet.toNat ∧ octet.toNat ≤ 239

instance (octet : Byte) : Decidable (MulticastOctet octet) := inferInstanceAs (Decidable (_ ∧ _))

def loopbackV6 : Vector Byte 16 := #v[0, 0, 0, 0, 0, 0, 0, 0, 0, 0, 0, 0, 0, 0, 0, 1]

/-- The answers for an address of the given octets, and those for any address equal to it. -/
structure Classified (order : ByteOrder) (octets : Vector Byte 4 ⊕ Vector Byte 16)
    (address : IPAddress) : Prop where
  multicast : address.isMulticast order = true ↔
    octets.elim (fun v4 => MulticastOctet (v4.get 0)) fun v6 => v6.get 0 = 0xff
  unspecified : address.isUnspecified order = true ↔
    octets = .inl #v[0, 0, 0, 0] ∨ octets = .inr (Vector.replicate 16 0)
  loopback : octets = .inl #v[127, 0, 0, 1] ∨ octets = .inr loopbackV6 →
    address.isLoopback order = true
  exclusive : ¬ (address.isMulticast order = true ∧ address.isLoopback order = true) ∧
    ¬ (address.isMulticast order = true ∧ address.isUnspecified order = true) ∧
      ¬ (address.isLoopback order = true ∧ address.isUnspecified order = true)
  same : ∀ other : IPAddress, other.equals address = true → other.answers order = address.answers order

/-- What the leading octet is taken for is right. -/
def LeadsAlike (order : ByteOrder) : Vector Byte 4 ⊕ Vector Byte 16 → Prop
  | .inl v4 => order = .big ∨ (MulticastOctet (v4.get 0) ↔ MulticastOctet (v4.get 3))
  | .inr _ => True

theorem leadsAlike_inl_iff {v4 : Vector Byte 4} :
    LeadsAlike order (.inl v4) ↔
      (MulticastOctet (order.lead v4) ↔ MulticastOctet (v4.get 0)) := by
  cases order with
  | big => exact iff_of_true (Or.inl rfl) Iff.rfl
  | little =>
      constructor
      · rintro (horder | hoctets)
        · cases horder
        · exact hoctets.symm
      · exact fun hoctets => Or.inr hoctets.symm

/-! ### Two answers at once -/

/-- No octet that a little-endian or a big-endian host may find in front of these two is one of a
multicast address. -/
theorem not_multicastOctet_lead {v4 : Vector Byte 4}
    (hv4 : v4 = #v[127, 0, 0, 1] ∨ v4 = #v[0, 0, 0, 0]) : ¬ MulticastOctet (order.lead v4) := by
  rcases hv4 with hv4 | hv4 <;> subst hv4 <;> cases order <;> decide

theorem exclusive_answers (order : ByteOrder) (address : IPAddress) :
    ¬ (address.isMulticast order = true ∧ address.isLoopback order = true) ∧
      ¬ (address.isMulticast order = true ∧ address.isUnspecified order = true) ∧
        ¬ (address.isLoopback order = true ∧ address.isUnspecified order = true) := by
  cases hoctets : address.octets with
  | inl v4 =>
      rw [isMulticast_v4 hoctets, isLoopback_v4 hoctets, isUnspecified_v4 hoctets]
      refine ⟨?_, ?_, ?_⟩
      · exact fun ⟨hmulticast, hloopback⟩ => not_multicastOctet_lead (.inl hloopback) hmulticast
      · exact fun ⟨hmulticast, hzero⟩ => not_multicastOctet_lead (.inr hzero) hmulticast
      · rintro ⟨hloopback, hzero⟩
        exact absurd (hloopback.symm.trans hzero) (by decide)
  | inr v6 =>
      rw [isMulticast_v6 hoctets, isLoopback_v6 hoctets, isUnspecified_v6 hoctets]
      refine ⟨?_, ?_, ?_⟩
      · rintro ⟨hmulticast, hloopback⟩
        rw [hloopback] at hmulticast
        exact absurd hmulticast (by decide)
      · rintro ⟨hmulticast, hzero⟩
        rw [hzero] at hmulticast
        exact absurd hmulticast (by decide)
      · rintro ⟨hloopback, hzero⟩
        exact absurd (hloopback.symm.trans hzero) (by decide)

/-! ### All of the answers -/

theorem isUnspecified_iff (hoctets : address.octets = octets) :
    address.isUnspecified order = true ↔
      octets = .inl #v[0, 0, 0, 0] ∨ octets = .inr (Vector.replicate 16 0) := by
  cases octets with
  | inl v4 => rw [isUnspecified_v4 hoctets, Sum.inl.injEq, or_iff_left Sum.inl_ne_inr]
  | inr v6 => rw [isUnspecified_v6 hoctets, Sum.inr.injEq, or_iff_right Sum.inr_ne_inl]

theorem isLoopback_of_octets (hoctets : address.octets = octets)
    (hloopback : octets = .inl #v[127, 0, 0, 1] ∨ octets = .inr loopbackV6) :
    address.isLoopback order = true := by
  rcases hloopback with hv4 | hv6
  · exact (isLoopback_v4 (hoctets.trans hv4)).mpr rfl
  · exact (isLoopback_v6 (hoctets.trans hv6)).mpr rfl

theorem classified_iff (hoctets : address.octets = octets) :
    Classified order octets address ↔ LeadsAlike order octets := by
  have hmulticast : (address.isMulticast order = true ↔
      octets.elim (fun v4 => MulticastOctet (v4.get 0)) fun v6 => v6.get 0 = 0xff) ↔
        LeadsAlike order octets := by
    cases octets with
    | inl v4 =>
        rw [isMulticast_v4 hoctets, leadsAlike_inl_iff]
        exact Iff.rfl
    | inr v6 => exact iff_of_true (isMulticast_v6 hoctets) trivial
  constructor
  · exact fun hclassified => hmulticast.mp hclassified.multicast
  · exact fun hleads =>
      { multicast := hmulticast.mpr hleads
        unspecified := isUnspecified_iff hoctets
        loopback := isLoopback_of_octets hoctets
        exclusive := exclusive_answers order address
        same := fun _ hequals => answers_eq_of_equals hequals }

/-- **Kinds of addresses.** The predicates answer for an address of the given octets as they should,
in whatever way it is built, if and only if the octet that the host loads first is a multicast one
exactly when the first octet is: always on a big-endian host and for IPv6, and on a little-endian host
where the first and the last octet of an IPv4 address agree about it. -/
theorem classified_however_built_iff (order : ByteOrder)
    (octets : Vector Byte 4 ⊕ Vector Byte 16) :
    (∀ address, Builds order octets address → Classified order octets address) ↔
      LeadsAlike order octets := by
  constructor
  · intro hclassified
    have hbuilds : Builds order octets (ofOctets octets) := by
      cases octets with
      | inl v4 => exact .bytesV4 v4
      | inr v6 => exact .bytesV6 v6
    exact (classified_iff hbuilds.octets_eq).mp (hclassified _ hbuilds)
  · exact fun hleads address hbuilds => (classified_iff hbuilds.octets_eq).mpr hleads

/-- The group `224.0.0.1` on a little-endian host. -/
theorem multicast_group_not_classified :
    ¬ Classified .little (.inl #v[224, 0, 0, 1]) (ofBytesV4 #v[224, 0, 0, 1]) := by
  intro hclassified
  have hgroup : MulticastOctet 224 := by decide
  exact absurd (hclassified.multicast.mpr hgroup) (by decide)

end Cadence.IPAddress
