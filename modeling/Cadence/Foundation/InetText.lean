import Cadence.Foundation.Numeral

/-!
# Internet addresses in text

`inet_ntop` and `inet_pton` of the C library, over bytes. An IPv4 address is printed as four decimal
octets, an IPv6 address as groups in hexadecimal with its longest run of zeros left out, and with the last
32 bits as octets where they hold an IPv4 address. The readers go over the text once, as their loops do.
-/

namespace InetText

open Numeral

def colon : BitVec 8 := 0x3a

def dot : BitVec 8 := 0x2e

def vectorOf (n : Nat) (values : List Nat) : Option (Vector (BitVec 8) n) :=
  if h : values.length = n then
    some ⟨(values.map (BitVec.ofNat 8)).toArray, by rw [List.size_toArray, List.length_map, h]⟩
  else none

def valuesOf {n : Nat} (octets : Vector (BitVec 8) n) : List Nat :=
  octets.toList.map BitVec.toNat

/-! ### IPv4 -/

def dotted (octets : List Nat) : List (BitVec 8) :=
  [dot].intercalate (octets.map (numeral 10))

def inetNtop4 (octets : Vector (BitVec 8) 4) : List (BitVec 8) :=
  dotted (valuesOf octets)

/-- The octets in front of the last dot, and what has been read of the one behind it. -/
def scanOctets (done : List Nat) (octet : Option Nat) : List (BitVec 8) → Option (List Nat)
  | [] =>
      match octet with
      | some value => if done.length = 3 then some (done ++ [value]) else none
      | none => none
  | byte :: rest =>
      match digitIn 10 byte, octet with
      | some d, none => scanOctets done (some d) rest
      | some d, some value =>
          -- no digit follows a leading zero
          if value = 0 ∨ 255 < 10 * value + d then none
          else scanOctets done (some (10 * value + d)) rest
      | none, some value =>
          if byte = dot ∧ done.length < 3 then scanOctets (done ++ [value]) none rest else none
      | none, none => none

def inetPton4 (text : List (BitVec 8)) : Option (Vector (BitVec 8) 4) :=
  (scanOctets [] none text).bind (vectorOf 4)

/-! ### IPv6 -/

def wordsOf : List Nat → List Nat
  | high :: low :: rest => (256 * high + low) :: wordsOf rest
  | _ => []

def bytesOf (words : List Nat) : List Nat :=
  words.flatMap fun word => [word / 256, word % 256]

def keepLonger : Option (Nat × Nat) → Option (Nat × Nat) → Option (Nat × Nat)
  | none, best => best
  | some current, none => some current
  | some current, some best => if best.2 < current.2 then some current else some best

/-- The longest run of zeros, as its start and its length, and the first of several. `start` is where
the words begin. -/
def longestRun (current best : Option (Nat × Nat)) (start : Nat) : List Nat → Option (Nat × Nat)
  | [] => keepLonger current best
  | word :: words =>
      if word = 0 then
        let current := current.elim (start, 1) fun run => (run.1, run.2 + 1)
        longestRun (some current) best (start + 1) words
      else longestRun none (keepLonger current best) (start + 1) words

/-- A single zero is not left out. -/
def zeroRun (words : List Nat) : Option (Nat × Nat) :=
  (longestRun none none 0 words).filter fun run => 2 ≤ run.2

def joinGroups (groups : List (List (BitVec 8))) : List (BitVec 8) :=
  [colon].intercalate groups

/-- An IPv4 address behind six words, compatible or mapped. -/
def EndsInIPv4 (words : List Nat) (run : Nat × Nat) : Prop :=
  run.1 = 0 ∧ (run.2 = 6 ∨ run.2 = 5 ∧ words[5]? = some 0xffff)

instance (words : List Nat) (run : Nat × Nat) : Decidable (EndsInIPv4 words run) :=
  inferInstanceAs (Decidable (_ ∧ _))

/-- The groups behind the run. -/
def groupsBehind (words : List Nat) (run : Nat × Nat) : List (List (BitVec 8)) :=
  if EndsInIPv4 words run then
    ((words.take 6).drop (run.1 + run.2)).map (numeral 16) ++ [dotted (bytesOf (words.drop 6))]
  else (words.drop (run.1 + run.2)).map (numeral 16)

def ntopWords (words : List Nat) : List (BitVec 8) :=
  match zeroRun words with
  | none => joinGroups (words.map (numeral 16))
  | some run =>
      joinGroups ((words.take run.1).map (numeral 16)) ++
        colon :: colon :: joinGroups (groupsBehind words run)

def inetNtop6 (octets : Vector (BitVec 8) 16) : List (BitVec 8) :=
  ntopWords (wordsOf (valuesOf octets))

/-- The words in front of the last colon, where among them `::` stands, and the text behind the last
colon as far as it has been read. -/
def scanGroups (done : List Nat) (gap : Option Nat) (token : List (BitVec 8)) :
    List (BitVec 8) → Option (List Nat × Option Nat)
  | [] =>
      if token = [] then some (done, gap)
      else if done.length < 8 then some (done ++ [valueOf 16 token], gap)
      else none
  | byte :: rest =>
      match digitIn 16 byte with
      | some _ =>
          if token.length = 4 then none else scanGroups done gap (token ++ [byte]) rest
      | none =>
          if byte = colon then
            if token = [] then
              match gap with
              | some _ => none
              | none => scanGroups done (some done.length) [] rest
            else if rest = [] ∨ 8 ≤ done.length then none
            else scanGroups (done ++ [valueOf 16 token]) gap [] rest
          else if byte = dot ∧ done.length ≤ 6 then
            -- what looked like a group was the first octet
            (scanOctets [] none (token ++ byte :: rest)).map fun octets =>
              (done ++ wordsOf octets, gap)
          else none

def fillGap (done : List Nat) : Option Nat → Option (List Nat)
  | none => if done.length = 8 then some done else none
  | some gap =>
      if done.length = 8 then none
      else some (done.take gap ++ List.replicate (8 - done.length) 0 ++ done.drop gap)

/-- A text that begins with a colon has to begin with two. -/
def skipColon : List (BitVec 8) → Option (List (BitVec 8))
  | [] => none
  | byte :: rest =>
      if byte = colon then (if rest.head? = some colon then some rest else none)
      else some (byte :: rest)

def inetPton6 (text : List (BitVec 8)) : Option (Vector (BitVec 8) 16) := do
  let text ← skipColon text
  let (done, gap) ← scanGroups [] none [] text
  let words ← fillGap done gap
  vectorOf 16 (bytesOf words)

/-! ### What is accepted -/

theorem digitIn_mono {small large : Nat} {byte : BitVec 8} (hle : small ≤ large)
    (hdigit : digitIn large byte = none) : digitIn small byte = none := by
  rw [digitIn, Option.filter_eq_none_iff] at hdigit ⊢
  intro value hvalue hsmall
  apply hdigit value hvalue
  simp only [decide_eq_true_eq] at hsmall ⊢
  omega

/-- The bytes that `inet_pton` reads in some place of some text. -/
def InAlphabet (byte : BitVec 8) : Prop :=
  digitIn 16 byte ≠ none ∨ byte = colon ∨ byte = dot

instance (byte : BitVec 8) : Decidable (InAlphabet byte) :=
  inferInstanceAs (Decidable (_ ∨ _))

theorem alphabet_of_scanOctets {text : List (BitVec 8)} {done octets : List Nat}
    {octet : Option Nat} (hscan : scanOctets done octet text = some octets) :
    ∀ byte ∈ text, digitIn 10 byte ≠ none ∨ byte = dot := by
  induction text generalizing done octet with
  | nil => exact fun _ hbyte => absurd hbyte List.not_mem_nil
  | cons byte rest ih =>
      rw [scanOctets.eq_def] at hscan
      rw [List.forall_mem_cons]
      cases hdigit : digitIn 10 byte with
      | some d =>
          refine ⟨.inl (Option.some_ne_none d), ?_⟩
          simp only [hdigit] at hscan
          cases octet with
          | none => exact ih hscan
          | some value =>
              simp only at hscan
              split at hscan
              · cases hscan
              · exact ih hscan
      | none =>
          simp only [hdigit] at hscan
          cases octet with
          | none => cases hscan
          | some value =>
              simp only at hscan
              split at hscan
              next hdot => exact ⟨.inr hdot.1, ih hscan⟩
              next => cases hscan

theorem alphabet_of_scanGroups {text token : List (BitVec 8)} {done : List Nat} {gap : Option Nat}
    {scanned : List Nat × Option Nat} (hscan : scanGroups done gap token text = some scanned) :
    ∀ byte ∈ text, InAlphabet byte := by
  induction text generalizing done gap token with
  | nil => exact fun _ hbyte => absurd hbyte List.not_mem_nil
  | cons byte rest ih =>
      rw [scanGroups.eq_def] at hscan
      simp only at hscan
      cases hdigit : digitIn 16 byte with
      | some d =>
          simp only [hdigit] at hscan
          split at hscan
          · cases hscan
          · exact List.forall_mem_cons.mpr ⟨.inl (by rw [hdigit]; exact Option.some_ne_none d), ih hscan⟩
      | none =>
          simp only [hdigit] at hscan
          split at hscan
          next hcolon =>
            rw [List.forall_mem_cons]
            refine ⟨.inr (.inl hcolon), ?_⟩
            split at hscan
            · cases gap with
              | some _ => cases hscan
              | none => exact ih hscan
            · split at hscan
              · cases hscan
              · exact ih hscan
          next =>
            split at hscan
            next hdot =>
              obtain ⟨octets, hoctets, _⟩ := Option.map_eq_some_iff.mp hscan
              intro other hother
              have hmem : other ∈ token ++ byte :: rest := List.mem_append_right _ hother
              rcases alphabet_of_scanOctets hoctets other hmem with hdecimal | hdot
              · exact .inl fun hnone => hdecimal (digitIn_mono (by decide) hnone)
              · exact .inr (.inr hdot)
            next => cases hscan

theorem alphabet_of_inetPton4 {text : List (BitVec 8)} {octets : Vector (BitVec 8) 4}
    (haccepted : inetPton4 text = some octets) :
    ∀ byte ∈ text, digitIn 10 byte ≠ none ∨ byte = dot := by
  obtain ⟨values, hscan, _⟩ := Option.bind_eq_some_iff.mp haccepted
  exact alphabet_of_scanOctets hscan

theorem skipColon_eq_some {text rest : List (BitVec 8)} (hskip : skipColon text = some rest) :
    text = rest ∨ text = colon :: rest := by
  cases text with
  | nil => cases hskip
  | cons byte bytes =>
      rw [skipColon] at hskip
      split at hskip
      next hcolon =>
        split at hskip
        · cases hskip
          exact .inr (by rw [hcolon])
        · cases hskip
      next =>
        cases hskip
        exact .inl rfl

theorem alphabet_of_inetPton6 {text : List (BitVec 8)} {octets : Vector (BitVec 8) 16}
    (haccepted : inetPton6 text = some octets) : ∀ byte ∈ text, InAlphabet byte := by
  obtain ⟨rest, hskip, haccepted⟩ := Option.bind_eq_some_iff.mp haccepted
  obtain ⟨scanned, hscan, _⟩ := Option.bind_eq_some_iff.mp haccepted
  rcases skipColon_eq_some hskip with htext | htext
  · rw [htext]
    exact alphabet_of_scanGroups hscan
  · rw [htext]
    exact List.forall_mem_cons.mpr ⟨.inr (.inl rfl), alphabet_of_scanGroups hscan⟩

end InetText
