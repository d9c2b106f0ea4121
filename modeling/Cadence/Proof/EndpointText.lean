import Cadence.IPEndpoint
import Mathlib.Data.List.Basic

/-!
# The text of an endpoint

The join takes its first argument for the separator, so an endpoint is printed as a colon, the address
and the port with nothing between them. The parser of endpoints looks at nothing.
-/

namespace Cadence.EndpointText

open Numeral InetText

/-! ### Colons and numerals -/

/-- A list that may be read with its first element at the end consists of it. -/
theorem eq_replicate_of_rotated {α : Type} {x : α} {xs : List α} (hrotated : x :: xs = xs ++ [x]) :
    xs = List.replicate xs.length x := by
  induction xs with
  | nil => rfl
  | cons y ys ih =>
      rw [List.cons_append, List.cons.injEq] at hrotated
      obtain ⟨hsame, hrotated⟩ := hrotated
      subst hsame
      rw [List.length_cons, List.replicate_succ, ← ih hrotated]

/-- The last separator splits a list in one way. -/
theorem eq_of_last_separator {α : Type} {separator : α} {front front' back back' : List α}
    (hback : separator ∉ back) (hback' : separator ∉ back')
    (htext : front ++ separator :: back = front' ++ separator :: back') :
    front = front' ∧ back = back' := by
  rcases List.append_eq_append_iff.mp htext with ⟨middle, hfront, hrest⟩ | ⟨middle, hfront, hrest⟩
  · cases middle with
    | nil =>
        rw [List.nil_append, List.cons.injEq] at hrest
        exact ⟨by rw [hfront, List.append_nil], hrest.2⟩
    | cons byte middle =>
        rw [List.cons_append, List.cons.injEq] at hrest
        exact absurd (hrest.2 ▸ List.mem_append_right _ List.mem_cons_self) hback
  · cases middle with
    | nil =>
        rw [List.nil_append, List.cons.injEq] at hrest
        exact ⟨by rw [hfront, List.append_nil], hrest.2.symm⟩
    | cons byte middle =>
        rw [List.cons_append, List.cons.injEq] at hrest
        exact absurd (hrest.2 ▸ List.mem_append_right _ List.mem_cons_self) hback'

theorem colon_notMem_decimal (n : Nat) : colon ∉ numeral 10 n := by
  intro hcolon
  exact digits_of_decimal n colon hcolon (by decide)

theorem eq_of_decimal_eq {port port' : BitVec 16}
    (hport : numeral 10 port.toNat = numeral 10 port'.toNat) : port = port' :=
  BitVec.eq_of_toNat_eq (numeral_injective (by decide) (by decide) hport)

/-! ### Printing -/

def unspecifiedV6 : Vector Byte 16 := lastWord 0

/-- The address, a colon and the port, and no other endpoint with this text. -/
structure FaithfulText (endpoint : IPEndpoint) : Prop where
  form : endpoint.toString =
    endpoint.address.toString ++ colon :: numeral 10 endpoint.port.toNat
  distinct : ∀ other : IPEndpoint, other.toString = endpoint.toString →
    other.address.equals endpoint.address = true ∧ other.port = endpoint.port

variable {endpoint other : IPEndpoint}

theorem octets_of_colons {address : IPAddress} {count : Nat}
    (htext : address.toString = List.replicate count colon) :
    address.octets = .inr unspecifiedV6 := by
  rw [IPAddress.toString_eq] at htext
  cases hoctets : address.octets with
  | inl octets =>
      rw [hoctets, Sum.elim_inl] at htext
      have haccepted := inetPton4_inetNtop4 octets
      rw [htext] at haccepted
      cases count with
      | zero => cases haccepted
      | succ count => cases haccepted
  | inr octets =>
      rw [hoctets, Sum.elim_inr] at htext
      have haccepted := inetPton6_inetNtop6 octets
      rw [htext] at haccepted
      rw [inetPton6_colons haccepted]
      rfl

/-- The colon is where it belongs only if the address is made of colons. -/
theorem form_iff : endpoint.toString =
      endpoint.address.toString ++ colon :: numeral 10 endpoint.port.toNat ↔
    endpoint.address.octets = .inr unspecifiedV6 := by
  have hsplit : endpoint.address.toString ++ colon :: numeral 10 endpoint.port.toNat =
      (endpoint.address.toString ++ [colon]) ++ numeral 10 endpoint.port.toNat := by simp
  rw [endpoint.toString_eq, hsplit, ← List.cons_append, List.append_left_inj]
  constructor
  · exact fun hrotated => octets_of_colons (eq_replicate_of_rotated hrotated)
  · intro hoctets
    rw [IPAddress.toString_eq, hoctets]
    decide

theorem toString_unspecified {address : IPAddress}
    (hoctets : address.octets = .inr unspecifiedV6) : address.toString = [colon, colon] := by
  rw [IPAddress.toString_eq, hoctets]
  exact inetNtop6_zero

/-- The digits of a port in front of its last one may be those of the address `::`. -/
theorem exists_other_of_long_port (hoctets : endpoint.address.octets = .inr unspecifiedV6)
    (hport : 10 ≤ endpoint.port.toNat) :
    ∃ other : IPEndpoint, other.toString = endpoint.toString ∧ other.port ≠ endpoint.port := by
  have hlt := endpoint.port.isLt
  have hpos : 0 < endpoint.port.toNat / 10 := by omega
  obtain ⟨word, hnumeral, hword⟩ := exists_hexadecimal (endpoint.port.toNat / 10)
  have hsmall : word < 65536 := by
    apply (@length_numeral_le_iff 16 word 4 (by decide) (by decide)).mp
    rw [hnumeral]
    exact (length_numeral_le_iff (by decide) (by decide)).mpr (by omega)
  have hlast : (BitVec.ofNat 16 (endpoint.port.toNat % 10)).toNat = endpoint.port.toNat % 10 := by
    rw [BitVec.toNat_ofNat]
    omega
  have hdigits : numeral 10 endpoint.port.toNat =
      numeral 10 (endpoint.port.toNat / 10) ++ numeral 10 (endpoint.port.toNat % 10) := by
    have hmod : endpoint.port.toNat % 10 < 10 := Nat.mod_lt _ (by decide)
    rw [numeral_of_lt hmod, ← numeral_concat (by decide) hpos hmod, Nat.div_add_mod]
  refine ⟨⟨BitVec.ofNat 16 (endpoint.port.toNat % 10), .ofBytesV6 (lastWord word)⟩, ?_, ?_⟩
  · rw [IPEndpoint.toString_eq, IPEndpoint.toString_eq, toString_unspecified hoctets,
      IPAddress.toString_eq, IPAddress.octets_ofBytesV6, Sum.elim_inr,
      inetNtop6_lastWord (hword hpos) hsmall, hlast, hdigits, hnumeral]
    simp
  · intro hsame
    have hvalue := congrArg BitVec.toNat hsame
    rw [hlast] at hvalue
    omega

/-- A single digit leaves no room. -/
theorem distinct_of_short_port (hoctets : endpoint.address.octets = .inr unspecifiedV6)
    (hport : endpoint.port.toNat < 10) (htext : other.toString = endpoint.toString) :
    other.address.octets = endpoint.address.octets ∧ other.port = endpoint.port := by
  rw [IPEndpoint.toString_eq, IPEndpoint.toString_eq, toString_unspecified hoctets,
    List.cons.injEq] at htext
  have hlength := congrArg List.length htext.2
  rw [numeral_of_lt hport, List.length_append, List.length_append] at hlength
  have hdigits := List.length_pos_of_ne_nil (numeral_ne_nil 10 other.port.toNat)
  have hprefix : other.address.toString <+: List.replicate 2 colon := by
    apply List.prefix_of_prefix_length_le (List.prefix_append _ _)
    · rw [htext.2]
      exact List.prefix_append _ _
    · simp at hlength ⊢
      omega
  have hother := octets_of_colons (List.prefix_replicate_iff.mp hprefix).2
  rw [toString_unspecified hother, List.append_cancel_left_eq] at htext
  exact ⟨hother.trans hoctets.symm, eq_of_decimal_eq htext.2⟩

/-- **The text of an endpoint.** It is the address, a colon and the port, and no other endpoint has it, if
and only if the address is `::` and the port has one digit. -/
theorem faithfulText_iff (endpoint : IPEndpoint) :
    FaithfulText endpoint ↔
      endpoint.address.octets = .inr unspecifiedV6 ∧ endpoint.port.toNat < 10 := by
  constructor
  · intro hfaithful
    have hoctets := form_iff.mp hfaithful.form
    refine ⟨hoctets, ?_⟩
    by_contra hport
    obtain ⟨other, htext, hne⟩ := exists_other_of_long_port hoctets (by omega)
    exact hne (hfaithful.distinct other htext).2
  · rintro ⟨hoctets, hport⟩
    refine ⟨form_iff.mpr hoctets, fun other htext => ?_⟩
    obtain ⟨hsame, hports⟩ := distinct_of_short_port hoctets hport htext
    exact ⟨IPAddress.equals_iff.mpr hsame, hports⟩

/-- The endpoints 1.1.1.1 with port 10 and 1.1.1.11 with port 0 are both printed as `:1.1.1.110`. -/
theorem two_endpoints_of_one_text :
    ¬ FaithfulText ⟨10, .ofBytesV4 #v[1, 1, 1, 1]⟩ ∧
      IPEndpoint.toString ⟨10, .ofBytesV4 #v[1, 1, 1, 1]⟩ =
        IPEndpoint.toString ⟨0, .ofBytesV4 #v[1, 1, 1, 11]⟩ := by
  refine ⟨fun hfaithful => ?_, by decide⟩
  have hoctets := form_iff.mp hfaithful.form
  cases hoctets

/-! ### Parsing -/

/-- A text that the parser of addresses accepts with a NUL behind it, a colon, and a decimal number that
a port can hold. -/
def InGrammar (text : List Byte) : Prop :=
  ∃ address digits, text = address ++ colon :: digits ∧
    (∃ parsed, parseIPAddress (.within address [0]) = some (.ok parsed)) ∧
      digits ≠ [] ∧ (∀ byte ∈ digits, digitIn 10 byte ≠ none) ∧ valueOf 10 digits ≤ 65535

def endpointText (endpoint : IPEndpoint) : List Byte :=
  endpoint.address.toString ++ colon :: numeral 10 endpoint.port.toNat

/-- Parsing undoes printing and rejects what is not in the grammar. -/
structure ParsesEndpoint (text : List Byte) : Prop where
  undoes : ∀ (endpoint : IPEndpoint) (behind : List Byte), text = endpointText endpoint →
    ∃ parsed, parseIPEndpoint (.within text behind) = .ok parsed ∧
      parsed.address.equals endpoint.address = true ∧ parsed.port = endpoint.port
  rejects : ∀ behind, ¬ InGrammar text →
    ∃ error, parseIPEndpoint (.within text behind) = .error error

/-- The endpoint that is always returned. -/
def anyEndpoint : IPEndpoint := ⟨0, .any⟩

theorem endpointText_eq_iff : endpointText endpoint = endpointText other ↔
    endpoint.address.octets = other.address.octets ∧ endpoint.port = other.port := by
  constructor
  · intro htext
    obtain ⟨haddress, hport⟩ :=
      eq_of_last_separator (colon_notMem_decimal _) (colon_notMem_decimal _) htext
    exact ⟨IPAddress.toString_eq_iff.mp haddress, eq_of_decimal_eq hport⟩
  · rintro ⟨hoctets, hport⟩
    rw [endpointText, endpointText, IPAddress.toString_eq_iff.mpr hoctets, hport]

/-- **Parsing endpoints.** A text is parsed as it should be if and only if it is in the grammar and, where
it is what some endpoint is printed as, that is `0.0.0.0:0`. -/
theorem parsesEndpoint_iff (text : List Byte) :
    ParsesEndpoint text ↔ InGrammar text ∧
      ∀ endpoint, text = endpointText endpoint → text = endpointText anyEndpoint := by
  constructor
  · intro hparses
    constructor
    · by_contra houtside
      obtain ⟨error, herror⟩ := hparses.rejects [] houtside
      cases herror
    · intro endpoint htext
      obtain ⟨parsed, hparsed, hequals, hport⟩ := hparses.undoes endpoint [] htext
      cases hparsed
      rw [htext]
      exact endpointText_eq_iff.mpr ⟨(IPAddress.equals_iff.mp hequals).symm, hport.symm⟩
  · rintro ⟨hinside, hany⟩
    constructor
    · intro endpoint behind htext
      obtain ⟨hoctets, hport⟩ := endpointText_eq_iff.mp ((hany endpoint htext).symm.trans htext)
      exact ⟨anyEndpoint, rfl, IPAddress.equals_iff.mpr hoctets, hport⟩
    · exact fun _ houtside => absurd hinside houtside

/-- The text `127.0.0.1:80`, and the empty one. -/
theorem endpoint_text_is_ignored :
    ¬ ParsesEndpoint (endpointText ⟨80, .ofBytesV4 #v[127, 0, 0, 1]⟩) ∧ ¬ ParsesEndpoint [] := by
  constructor
  · intro hparses
    obtain ⟨parsed, hparsed, _, hport⟩ := hparses.undoes _ [] rfl
    cases hparsed
    exact absurd hport (by decide)
  · intro hparses
    have houtside : ¬ InGrammar [] := by
      rintro ⟨address, digits, htext, _⟩
      cases address <;> cases htext
    obtain ⟨error, herror⟩ := hparses.rejects [] houtside
    cases herror

end Cadence.EndpointText
