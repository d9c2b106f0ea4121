import Cadence.Async.AsioHelper

/-!
# Endpoints of asio and back

An `IPAddress` has no place for the scope id of an IPv6 address, so that is what the trip through
`IPEndpoint` loses. The trip the other way loses nothing that `operator==` compares.
-/

namespace Cadence

def AsioEndpoint.scopeId (p : AsioEndpoint) : BitVec 32 :=
  match p.address with
  | .v4 _ => 0
  | .v6 _ scopeId => scopeId

def AsioEndpoint.withoutScope (p : AsioEndpoint) : AsioEndpoint where
  address :=
    match p.address with
    | .v4 bytes => .v4 bytes
    | .v6 bytes _ => .v6 bytes 0
  port := p.port

namespace EndpointConversions

theorem withoutScope_eq_iff {p : AsioEndpoint} : p.withoutScope = p ↔ p.scopeId = 0 := by
  obtain ⟨address, port⟩ := p
  cases address with
  | v4 bytes => exact iff_of_true rfl rfl
  | v6 bytes scopeId =>
      constructor
      · intro hsame
        cases hsame
        rfl
      · intro hscope
        change scopeId = 0 at hscope
        rw [hscope]
        rfl

/-- asio's view of an address is its octets. -/
theorem toAsioIPAddress_eq (addr : IPAddress) :
    toAsioIPAddress addr = addr.octets.elim .v4 fun bytes => .v6 bytes 0 := by
  rw [toAsioIPAddress, IPAddress.octets]
  cases addr.isV4 <;> rfl

theorem toAsioEndpoint_fromAsioEndpoint (p : AsioEndpoint) :
    toAsioEndpoint (fromAsioEndpoint p) = p.withoutScope := by
  obtain ⟨address, port⟩ := p
  cases address with
  | v4 bytes =>
      rw [toAsioEndpoint, fromAsioEndpoint, toAsioIPAddress_eq, IPAddress.octets_ofBytesV4]
      rfl
  | v6 bytes scopeId =>
      rw [toAsioEndpoint, fromAsioEndpoint, toAsioIPAddress_eq, IPAddress.octets_ofBytesV6]
      rfl

theorem octets_fromAsioEndpoint_toAsioEndpoint (e : IPEndpoint) :
    (fromAsioEndpoint (toAsioEndpoint e)).address.octets = e.address.octets := by
  rw [fromAsioEndpoint, toAsioEndpoint, toAsioIPAddress_eq]
  cases e.address.octets with
  | inl bytes => exact IPAddress.octets_ofBytesV4 bytes
  | inr bytes => exact IPAddress.octets_ofBytesV6 bytes

/-- **Endpoints through asio.** An endpoint of asio comes back without its scope id, so as itself
exactly when it has none, and an `IPEndpoint` comes back with an equal address and its port. -/
theorem endpoints_through_asio :
    (∀ p : AsioEndpoint, toAsioEndpoint (fromAsioEndpoint p) = p.withoutScope ∧
      (toAsioEndpoint (fromAsioEndpoint p) = p ↔ p.scopeId = 0)) ∧
    ∀ e : IPEndpoint, (fromAsioEndpoint (toAsioEndpoint e)).address.equals e.address = true ∧
      (fromAsioEndpoint (toAsioEndpoint e)).port = e.port := by
  refine ⟨fun p => ⟨toAsioEndpoint_fromAsioEndpoint p, ?_⟩, fun e => ⟨?_, rfl⟩⟩
  · rw [toAsioEndpoint_fromAsioEndpoint]
    exact withoutScope_eq_iff
  · apply IPAddress.equals_iff.mpr
    exact octets_fromAsioEndpoint_toAsioEndpoint e

/-- The peer `fe80::1%2`, port 80. -/
theorem scope_is_lost :
    ¬ ∀ p : AsioEndpoint, toAsioEndpoint (fromAsioEndpoint p) = p := by
  intro hevery
  have hpeer := hevery ⟨.v6 #v[0xfe, 0x80, 0, 0, 0, 0, 0, 0, 0, 0, 0, 0, 0, 0, 0, 1] 2, 80⟩
  rw [toAsioEndpoint_fromAsioEndpoint, withoutScope_eq_iff] at hpeer
  exact absurd hpeer (by decide)

end EndpointConversions

end Cadence
