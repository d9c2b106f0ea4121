import Cadence.IPEndpoint
import Mathlib.Data.List.TakeWhile

/-!
# Parsing an address out of a longer buffer

`inet_pton` reads up to the first NUL and knows nothing of the size of the view. A NUL right behind the
view makes that right, and without one the bytes behind the view are parsed with it.
-/

namespace Cadence.AddressText

open InetText

/-- Parsing a view of `text` undoes printing and depends on the view only, whatever `Behind` allows to
follow it in the buffer. -/
structure ParsesView (Behind : List Byte → Prop) (text : List Byte) : Prop where
  undoes : ∀ (address : IPAddress) (view : StringView), text = address.toString →
    view.text = text → Behind view.behind →
      ∃ parsed, parseIPAddress view = some (.ok parsed) ∧ parsed.equals address = true
  depends : ∀ view view' : StringView, view.text = text → view'.text = text →
    Behind view.behind → Behind view'.behind → parseIPAddress view = parseIPAddress view'

def Anything (_ : List Byte) : Prop := True

/-- The buffer holds a NUL somewhere behind the view. -/
def Terminated (behind : List Byte) : Prop := 0 ∈ behind

instance (behind : List Byte) : Decidable (Terminated behind) :=
  inferInstanceAs (Decidable (_ ∈ _))

variable {text more : List Byte} {view : StringView}

/-! ### What is read -/

theorem parseIPAddress_of_zero_mem (htext : 0 ∈ view.text) :
    parseIPAddress view = some (parseAddressText (view.text.takeWhile (· ≠ 0))) := by
  have hread : view.buffer.takeWhile (· ≠ 0) = view.text.takeWhile (· ≠ 0) := by
    rw [← view.text_append_behind, List.takeWhile_append, if_neg]
    intro hlength
    have hall := List.takeWhile_eq_self_iff.mp
      ((List.takeWhile_prefix _).eq_of_length hlength) 0 htext
    exact absurd hall (by decide)
  have hbuffer : 0 ∈ view.buffer := by
    rw [← view.text_append_behind]
    exact List.mem_append_left _ htext
  rw [parseIPAddress, StringView.cString, if_pos hbuffer, Option.map_some, hread]

/-- Without a NUL in the view the parser goes on behind it. -/
theorem parseIPAddress_of_terminated (htext : 0 ∉ view.text) (hbehind : Terminated view.behind) :
    parseIPAddress view =
      some (parseAddressText (view.text ++ view.behind.takeWhile (· ≠ 0))) := by
  have hread : view.buffer.takeWhile (· ≠ 0) =
      view.text ++ view.behind.takeWhile (· ≠ 0) := by
    rw [← view.text_append_behind]
    apply List.takeWhile_append_of_pos
    intro byte hbyte
    exact decide_eq_true (ne_of_mem_of_not_mem hbyte htext)
  have hbuffer : 0 ∈ view.buffer := by
    rw [← view.text_append_behind]
    exact List.mem_append_right _ hbehind
  rw [parseIPAddress, StringView.cString, if_pos hbuffer, Option.map_some, hread]

theorem parseIPAddress_of_unterminated (htext : 0 ∉ view.text)
    (hbehind : ¬ Terminated view.behind) : parseIPAddress view = none := by
  have hbuffer : 0 ∉ view.buffer := by
    rw [← view.text_append_behind, List.mem_append]
    exact not_or.mpr ⟨htext, hbehind⟩
  rw [parseIPAddress, StringView.cString, if_neg hbuffer, Option.map_none]

theorem parseAddressText_of_rejected (hrejected : ¬ Accepted text) :
    parseAddressText text = .error (makeError .InvalidInput "parseIPAddress") := by
  rw [accepted_iff] at hrejected
  cases hparse : parseAddressText text with
  | ok address => exact absurd ⟨address, hparse⟩ hrejected
  | error error =>
      rw [parseAddressText] at hparse
      split at hparse
      next => cases hparse
      next =>
        split at hparse
        next => cases hparse
        next => exact hparse.symm

/-- With a NUL right behind it the text of an address is parsed as that address. -/
theorem parseIPAddress_toString {address : IPAddress} {more : List Byte}
    (htext : view.text = address.toString) (hbehind : view.behind = 0 :: more) :
    ∃ parsed, parseIPAddress view = some (.ok parsed) ∧ parsed.equals address = true := by
  obtain ⟨parsed, hparse, hequals⟩ := address.parseAddressText_toString
  have hread : (0 :: more : List Byte).takeWhile (· ≠ 0) = [] := rfl
  have hterminated : Terminated view.behind := by
    rw [hbehind]
    exact List.mem_cons_self
  refine ⟨parsed, ?_, hequals⟩
  rw [parseIPAddress_of_terminated (htext ▸ address.zero_notMem_toString) hterminated, hbehind,
    hread, List.append_nil, htext, hparse]

/-! ### When the view alone matters -/

/-- No address has a NUL in its text. -/
theorem parsesView_of_zero_mem {Behind : List Byte → Prop} (htext : 0 ∈ text) :
    ParsesView Behind text where
  undoes address _ haddress _ _ := absurd (haddress ▸ htext) address.zero_notMem_toString
  depends view view' hview hview' _ _ := by
    rw [parseIPAddress_of_zero_mem (hview ▸ htext), parseIPAddress_of_zero_mem (hview' ▸ htext),
      hview, hview']

theorem parsesView_anything_iff : ParsesView Anything text ↔ 0 ∈ text := by
  constructor
  · intro hparses
    by_contra htext
    have hdepends := hparses.depends (.within text []) (.within text [0])
      (StringView.text_within text []) (StringView.text_within text [0]) trivial trivial
    rw [parseIPAddress_of_unterminated (by simpa using htext) (by simp [Terminated]),
      parseIPAddress_of_terminated (by simpa using htext) (by simp [Terminated])] at hdepends
    cases hdepends
  · exact parsesView_of_zero_mem

/-- A byte that no address contains. -/
theorem not_accepted_of_foreign : ¬ Accepted (text ++ [1]) := fun haccepted =>
  haccepted.notMem (show ¬ InAlphabet 1 by decide) (List.mem_append_right _ List.mem_cons_self)

/-- What is parsed where the text goes on up to a NUL. -/
theorem parseIPAddress_within (htext : 0 ∉ text) (hmore : 0 ∉ more) :
    parseIPAddress (.within text (more ++ [0])) = some (parseAddressText (text ++ more)) := by
  have hread : (more ++ [0]).takeWhile (· ≠ 0) = more := by
    rw [List.takeWhile_append_of_pos fun byte hbyte =>
      decide_eq_true (ne_of_mem_of_not_mem hbyte hmore)]
    exact List.append_nil more
  rw [parseIPAddress_of_terminated (by simpa using htext) (by simp [Terminated]),
    StringView.text_within, StringView.behind_within, hread]

/-- An accepted text that begins with the view is one way to go on, and a foreign byte is another. -/
theorem not_parsesView_of_accepted (haccepted : Accepted (text ++ more)) :
    ¬ ParsesView Terminated text := by
  intro hparses
  have hzero : 0 ∉ text ++ more := haccepted.notMem (by decide)
  rw [List.mem_append, not_or] at hzero
  have hdepends := hparses.depends (.within text (more ++ [0])) (.within text ([1] ++ [0]))
    (StringView.text_within _ _) (StringView.text_within _ _) (by simp [Terminated])
    (by simp [Terminated])
  rw [parseIPAddress_within hzero.1 hzero.2, parseIPAddress_within hzero.1 (by decide),
    parseAddressText_of_rejected not_accepted_of_foreign] at hdepends
  obtain ⟨address, hparse⟩ := accepted_iff.mp haccepted
  rw [hparse] at hdepends
  cases hdepends

theorem parsesView_of_rejected (htext : 0 ∉ text) (hrejected : ∀ more, ¬ Accepted (text ++ more)) :
    ParsesView Terminated text where
  undoes address _ haddress _ _ := by
    have haccepted := address.accepted_toString
    rw [← haddress, ← List.append_nil text] at haccepted
    exact absurd haccepted (hrejected [])
  depends view view' hview hview' hbehind hbehind' := by
    rw [parseIPAddress_of_terminated (hview ▸ htext) hbehind,
      parseIPAddress_of_terminated (hview' ▸ htext) hbehind', hview, hview',
      parseAddressText_of_rejected (hrejected _), parseAddressText_of_rejected (hrejected _)]

theorem parsesView_terminated_iff :
    ParsesView Terminated text ↔ 0 ∈ text ∨ ∀ more, ¬ Accepted (text ++ more) := by
  constructor
  · intro hparses
    right
    intro more haccepted
    exact not_parsesView_of_accepted haccepted hparses
  · intro hcondition
    by_cases htext : 0 ∈ text
    · exact parsesView_of_zero_mem htext
    · exact parsesView_of_rejected htext (hcondition.resolve_left htext)

/-- **Views of addresses.** Whatever follows the view in the buffer, parsing depends on the view alone and
undoes printing if and only if the view has a NUL in it; and if there is a NUL somewhere behind the view,
also if it begins no text that `inet_pton` accepts. The text of an address meets neither condition. -/
theorem parsesView_iff (text : List Byte) :
    (ParsesView Anything text ↔ 0 ∈ text) ∧
      (ParsesView Terminated text ↔ 0 ∈ text ∨ ∀ more, ¬ Accepted (text ++ more)) ∧
        ∀ address : IPAddress, ¬ ParsesView Terminated address.toString := by
  refine ⟨parsesView_anything_iff, parsesView_terminated_iff, fun address => ?_⟩
  have haccepted := address.accepted_toString
  rw [← List.append_nil address.toString] at haccepted
  exact not_parsesView_of_accepted haccepted

/-- The view `1.2.3.4` of the buffer `1.2.3.45`. -/
theorem digit_behind_view_is_parsed :
    ¬ ParsesView Terminated (inetNtop4 #v[1, 2, 3, 4]) ∧
      parseIPAddress (.within (inetNtop4 #v[1, 2, 3, 4]) [0x35, 0]) =
        some (.ok (.ofBytesV4 #v[1, 2, 3, 45])) := by
  constructor
  · have haccepted := accepted_inetNtop4 #v[1, 2, 3, 4]
    rw [← List.append_nil (inetNtop4 _)] at haccepted
    exact not_parsesView_of_accepted haccepted
  · decide

end Cadence.AddressText
