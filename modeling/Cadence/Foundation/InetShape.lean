import Cadence.Foundation.InetRoundTrip

/-!
# What printed addresses look like

How long they are, which bytes they are made of, and what tells the families apart.
-/

namespace InetText

open Numeral

/-! ### Length -/

theorem length_intercalate_le {groups : List (List (BitVec 8))} {k : Nat} (separator : BitVec 8)
    (hgroups : ∀ group ∈ groups, group.length ≤ k) :
    ([separator].intercalate groups).length ≤ (k + 1) * groups.length := by
  induction groups with
  | nil => exact Nat.zero_le _
  | cons group groups ih =>
      obtain ⟨hgroup, hgroups⟩ := List.forall_mem_cons.mp hgroups
      have htail := ih hgroups
      cases groups with
      | nil =>
          rw [List.intercalate_singleton, List.length_singleton]
          omega
      | cons next groups =>
          rw [List.intercalate_cons_cons, List.length_append, List.length_append,
            List.length_singleton, List.length_cons, Nat.mul_succ]
          omega

theorem length_dotted_le {octets : List Nat} (hoctets : ∀ octet ∈ octets, octet ≤ 255) :
    (dotted octets).length ≤ 4 * octets.length := by
  have hnumerals : ∀ group ∈ octets.map (numeral 10), group.length ≤ 3 := by
    intro group hgroup
    obtain ⟨octet, hoctet, rfl⟩ := List.mem_map.mp hgroup
    exact length_decimal_le (hoctets octet hoctet)
  have hlength := length_intercalate_le dot hnumerals
  rwa [List.length_map] at hlength

theorem length_groups_le {words : List Nat} (hwords : ∀ word ∈ words, word < 65536) :
    (joinGroups (words.map (numeral 16))).length ≤ 5 * words.length := by
  have hnumerals : ∀ group ∈ words.map (numeral 16), group.length ≤ 4 := by
    intro group hgroup
    obtain ⟨word, hword, rfl⟩ := List.mem_map.mp hgroup
    exact length_hexadecimal_le (hwords word hword)
  have hlength := length_intercalate_le colon hnumerals
  rwa [List.length_map] at hlength

theorem length_groupsBehind_le {words : List Nat} {run : Nat × Nat}
    (hwords : ∀ word ∈ words, word < 65536) (hlength : words.length = 8) :
    (joinGroups (groupsBehind words run)).length ≤ 5 * (8 - (run.1 + run.2)) ∨
      run.1 = 0 ∧ (joinGroups (groupsBehind words run)).length ≤ 34 := by
  rw [groupsBehind]
  split
  next hmapped =>
    right
    obtain ⟨hstart, hlong⟩ := hmapped
    have hpieces : ∀ group ∈ ((words.take 6).drop (run.1 + run.2)).map (numeral 16) ++
        [dotted (bytesOf (words.drop 6))], group.length ≤ 16 := by
      intro group hgroup
      rw [List.mem_append, List.mem_singleton] at hgroup
      rcases hgroup with hgroup | rfl
      · obtain ⟨word, hmem, rfl⟩ := List.mem_map.mp hgroup
        have hword := hwords word (List.mem_of_mem_take (List.mem_of_mem_drop hmem))
        exact Nat.le_trans (length_hexadecimal_le hword) (by decide)
      · have hoctets := @length_dotted_le (bytesOf (words.drop 6)) fun octet =>
          le_of_mem_bytesOf fun word hmem => hwords word (List.mem_of_mem_drop hmem)
        rw [length_bytesOf, List.length_drop, hlength] at hoctets
        exact hoctets
    have hjoined := length_intercalate_le colon hpieces
    rw [List.length_append, List.length_map, List.length_drop, List.length_take, hlength,
      List.length_singleton] at hjoined
    exact ⟨hstart, Nat.le_trans hjoined (by omega)⟩
  next =>
    left
    have hjoined := @length_groups_le (words.drop (run.1 + run.2)) fun word hmem =>
      hwords word (List.mem_of_mem_drop hmem)
    rwa [List.length_drop, hlength] at hjoined

theorem length_ntopWords_lt {words : List Nat} (hwords : ∀ word ∈ words, word < 65536)
    (hlength : words.length = 8) : (ntopWords words).length < 46 := by
  rw [ntopWords]
  cases hzero : zeroRun words with
  | none =>
      have hjoined := length_groups_le hwords
      simp only
      omega
  | some run =>
      obtain ⟨⟨front, back, hsplit, hfront⟩, htwo⟩ := isRun_of_zeroRun hzero
      have hcount : run.1 + run.2 ≤ 8 := by
        rw [hsplit, List.length_append, List.length_append, List.length_replicate] at hlength
        omega
      have hjoined := @length_groups_le (words.take run.1) fun word hmem =>
        hwords word (List.mem_of_mem_take hmem)
      rw [List.length_take] at hjoined
      simp only [List.length_append, List.length_cons]
      rcases @length_groupsBehind_le words run hwords hlength with hbehind | ⟨hstart, hbehind⟩
      · omega
      · omega

theorem length_inetNtop4_lt (octets : Vector (BitVec 8) 4) : (inetNtop4 octets).length < 46 := by
  have hoctets := @length_dotted_le (valuesOf octets) fun _ => le_of_mem_valuesOf
  rw [valuesOf, List.length_map, Vector.length_toList] at hoctets
  exact Nat.lt_of_le_of_lt hoctets (by decide)

theorem length_inetNtop6_lt (octets : Vector (BitVec 8) 16) : (inetNtop6 octets).length < 46 := by
  obtain ⟨_, hwords, hlength⟩ := words_of_octets octets
  exact length_ntopWords_lt hwords hlength

/-! ### Families -/

/-- The texts that `inet_pton` accepts for one family or the other. -/
def Accepted (text : List (BitVec 8)) : Prop :=
  (∃ octets, inetPton4 text = some octets) ∨ ∃ octets, inetPton6 text = some octets

theorem Accepted.alphabet {text : List (BitVec 8)} (haccepted : Accepted text) :
    ∀ byte ∈ text, InAlphabet byte := by
  rcases haccepted with ⟨octets, hoctets⟩ | ⟨octets, hoctets⟩
  · intro byte hbyte
    rcases alphabet_of_inetPton4 hoctets byte hbyte with hdigit | hdot
    · exact .inl fun hnone => hdigit (digitIn_mono (by decide) hnone)
    · exact .inr (.inr hdot)
  · exact alphabet_of_inetPton6 hoctets

theorem Accepted.notMem {text : List (BitVec 8)} {byte : BitVec 8} (haccepted : Accepted text)
    (hforeign : ¬ InAlphabet byte) : byte ∉ text :=
  fun hmem => hforeign (haccepted.alphabet byte hmem)

theorem accepted_inetNtop4 (octets : Vector (BitVec 8) 4) : Accepted (inetNtop4 octets) :=
  .inl ⟨octets, inetPton4_inetNtop4 octets⟩

theorem accepted_inetNtop6 (octets : Vector (BitVec 8) 16) : Accepted (inetNtop6 octets) :=
  .inr ⟨octets, inetPton6_inetNtop6 octets⟩

theorem colon_mem_inetNtop6 (octets : Vector (BitVec 8) 16) : colon ∈ inetNtop6 octets := by
  obtain ⟨_, _, hlength⟩ := words_of_octets octets
  rw [inetNtop6, ntopWords]
  cases zeroRun (wordsOf (valuesOf octets)) with
  | none =>
      obtain ⟨first, next, words, hsplit⟩ := exists_cons_cons
        (show 2 ≤ (wordsOf (valuesOf octets)).length by rw [hlength]; decide)
      rw [hsplit, List.map_cons, List.map_cons]
      simp only
      rw [joinGroups_cons _ (List.cons_ne_nil _ _)]
      exact List.mem_append_right _ List.mem_cons_self
  | some run => exact List.mem_append_right _ List.mem_cons_self

/-- The text of an IPv6 address is none of an IPv4 address. -/
theorem inetPton4_inetNtop6 (octets : Vector (BitVec 8) 16) :
    inetPton4 (inetNtop6 octets) = none := by
  cases hpton : inetPton4 (inetNtop6 octets) with
  | none => rfl
  | some octets' =>
      rcases alphabet_of_inetPton4 hpton colon (colon_mem_inetNtop6 octets) with hdigit | hdot
      · exact absurd (by decide) hdigit
      · exact absurd hdot (by decide)

theorem inetNtop4_ne_inetNtop6 (octets : Vector (BitVec 8) 4) (octets' : Vector (BitVec 8) 16) :
    inetNtop4 octets ≠ inetNtop6 octets' := by
  intro htext
  have hpton := inetPton4_inetNtop4 octets
  rw [htext, inetPton4_inetNtop6] at hpton
  cases hpton

theorem inetNtop4_injective : Function.Injective inetNtop4 := by
  intro octets octets' htext
  have hpton := congrArg inetPton4 htext
  rw [inetPton4_inetNtop4, inetPton4_inetNtop4] at hpton
  exact Option.some.inj hpton

theorem inetNtop6_injective : Function.Injective inetNtop6 := by
  intro octets octets' htext
  have hpton := congrArg inetPton6 htext
  rw [inetPton6_inetNtop6, inetPton6_inetNtop6] at hpton
  exact Option.some.inj hpton

/-! ### Small addresses -/

/-- The address whose last word is the only one that may differ from zero. -/
def lastWord (word : Nat) : Vector (BitVec 8) 16 :=
  #v[0, 0, 0, 0, 0, 0, 0, 0, 0, 0, 0, 0, 0, 0, BitVec.ofNat 8 (word / 256), BitVec.ofNat 8 word]

theorem wordsOf_lastWord {word : Nat} (hword : word < 65536) :
    wordsOf (valuesOf (lastWord word)) = [0, 0, 0, 0, 0, 0, 0, word] := by
  have hsum : 256 * (word / 256 % 256) + word % 256 = word := by omega
  simp [valuesOf, lastWord, wordsOf, hsum]

theorem zeroRun_last {word : Nat} (hword : word ≠ 0) :
    zeroRun [0, 0, 0, 0, 0, 0, 0, word] = some (0, 7) := by
  simp [zeroRun, longestRun, keepLonger, hword]

theorem inetNtop6_lastWord {word : Nat} (hpos : 0 < word) (hword : word < 65536) :
    inetNtop6 (lastWord word) = colon :: colon :: numeral 16 word := by
  have hplain : ¬ EndsInIPv4 [0, 0, 0, 0, 0, 0, 0, word] (0, 7) := by simp [EndsInIPv4]
  have hbehind : groupsBehind [0, 0, 0, 0, 0, 0, 0, word] (0, 7) = [numeral 16 word] :=
    if_neg hplain
  rw [inetNtop6, wordsOf_lastWord hword, ntopWords, zeroRun_last (by omega)]
  simp only
  rw [hbehind, joinGroups_singleton]
  rfl

theorem inetNtop6_zero : inetNtop6 (lastWord 0) = [colon, colon] := by decide

/-- Only two colons are read as an address, and that is zero. -/
theorem inetPton6_colons {count : Nat} {octets : Vector (BitVec 8) 16}
    (haccepted : inetPton6 (List.replicate count colon) = some octets) : octets = lastWord 0 := by
  match count with
  | 0 => cases haccepted
  | 1 => cases haccepted
  | 2 =>
      have hzero : inetPton6 (List.replicate 2 colon) = some (lastWord 0) := by decide
      exact Option.some.inj (haccepted.symm.trans hzero)
  | count + 3 => cases haccepted

end InetText
