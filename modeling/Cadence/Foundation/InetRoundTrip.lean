import Cadence.Foundation.InetText

/-!
# Reading what was printed

A reader takes a printed address one piece at a time: a numeral, then the separator behind it. Every
lemma about a loop says what it has in hand after such a piece, for any text that follows.
-/

namespace InetText

open Numeral

/-! ### Octets -/

theorem scanOctets_first {byte : BitVec 8} {d : Nat} (hdigit : digitIn 10 byte = some d)
    (done : List Nat) (rest : List (BitVec 8)) :
    scanOctets done none (byte :: rest) = scanOctets done (some d) rest := by
  rw [scanOctets.eq_def]
  simp only [hdigit]

theorem scanOctets_next {byte : BitVec 8} {value d : Nat} (hdigit : digitIn 10 byte = some d)
    (hvalue : ¬ (value = 0 ∨ 255 < 10 * value + d)) (done : List Nat) (rest : List (BitVec 8)) :
    scanOctets done (some value) (byte :: rest) = scanOctets done (some (10 * value + d)) rest := by
  rw [scanOctets.eq_def]
  simp only [hdigit]
  exact if_neg hvalue

theorem scanOctets_numeral {n : Nat} (hn : n ≤ 255) (done : List Nat) (rest : List (BitVec 8)) :
    scanOctets done none (numeral 10 n ++ rest) = scanOctets done (some n) rest := by
  induction n using Nat.base_induction 10 (by decide) generalizing rest with
  | single n hdigit =>
      rw [numeral_of_lt hdigit, List.singleton_append,
        scanOctets_first (digitIn_digit (by decide) hdigit)]
  | digit m k hk hm ih =>
      have hvalue : ¬ (m = 0 ∨ 255 < 10 * m + k) := by omega
      rw [numeral_concat (by decide) hm hk, List.append_assoc, ih (by omega), List.singleton_append,
        scanOctets_next (digitIn_digit (by decide) hk) hvalue]

theorem scanOctets_dot {done : List Nat} {value : Nat} (hdone : done.length < 3)
    (rest : List (BitVec 8)) :
    scanOctets done (some value) (dot :: rest) = scanOctets (done ++ [value]) none rest := by
  have hdot : digitIn 10 dot = none := by decide
  rw [scanOctets.eq_def]
  simp only [hdot]
  exact if_pos ⟨trivial, hdone⟩

theorem dotted_cons_cons (octet next : Nat) (octets : List Nat) :
    dotted (octet :: next :: octets) = numeral 10 octet ++ dot :: dotted (next :: octets) := by
  rw [dotted, List.map_cons, List.map_cons, List.intercalate_cons_cons]
  simp [dotted]

theorem scanOctets_dotted {octets done : List Nat} (hoctets : ∀ octet ∈ octets, octet ≤ 255)
    (hne : octets ≠ []) (hlength : done.length + octets.length = 4) :
    scanOctets done none (dotted octets) = some (done ++ octets) := by
  induction octets generalizing done with
  | nil => exact absurd rfl hne
  | cons octet octets ih =>
      obtain ⟨hoctet, hoctets⟩ := List.forall_mem_cons.mp hoctets
      cases octets with
      | nil =>
          have hlast : done.length = 3 := by simpa using hlength
          have htext : dotted [octet] = numeral 10 octet ++ [] := by simp [dotted]
          rw [htext, scanOctets_numeral hoctet, scanOctets]
          exact if_pos hlast
      | cons next octets =>
          rw [List.length_cons, List.length_cons] at hlength
          rw [dotted_cons_cons, scanOctets_numeral hoctet, scanOctets_dot (by omega),
            ih hoctets (List.cons_ne_nil _ _) (by simp; omega), List.append_assoc,
            List.singleton_append]

/-! ### Octets as values -/

theorem vectorOf_valuesOf {n : Nat} (octets : Vector (BitVec 8) n) :
    vectorOf n (valuesOf octets) = some octets := by
  have hlength : (valuesOf octets).length = n := by
    rw [valuesOf, List.length_map, Vector.length_toList]
  have hvalues : (valuesOf octets).map (BitVec.ofNat 8) = octets.toList := by
    rw [valuesOf, List.map_map]
    conv => rhs; rw [← List.map_id octets.toList]
    apply List.map_congr_left
    intro octet _
    simp only [Function.comp_apply, BitVec.ofNat_toNat, BitVec.setWidth_eq, id]
  rw [vectorOf, dif_pos hlength]
  apply congrArg some
  apply Vector.toList_inj.mp
  exact hvalues

theorem le_of_mem_valuesOf {n : Nat} {octets : Vector (BitVec 8) n} {value : Nat}
    (hvalue : value ∈ valuesOf octets) : value ≤ 255 := by
  obtain ⟨octet, _, rfl⟩ := List.mem_map.mp hvalue
  have hlt := octet.isLt
  omega

theorem inetPton4_inetNtop4 (octets : Vector (BitVec 8) 4) :
    inetPton4 (inetNtop4 octets) = some octets := by
  have hlength : (valuesOf octets).length = 4 := by
    rw [valuesOf, List.length_map, Vector.length_toList]
  rw [inetPton4, inetNtop4, scanOctets_dotted (fun _ => le_of_mem_valuesOf)
    (List.ne_nil_of_length_pos (by omega)) (by simpa using hlength)]
  exact vectorOf_valuesOf octets

/-! ### Groups -/

theorem scanGroups_digits {digits token : List (BitVec 8)} (done : List Nat) (gap : Option Nat)
    (hdigits : ∀ byte ∈ digits, digitIn 16 byte ≠ none)
    (hlength : token.length + digits.length ≤ 4) (rest : List (BitVec 8)) :
    scanGroups done gap token (digits ++ rest) = scanGroups done gap (token ++ digits) rest := by
  induction digits generalizing token with
  | nil => rw [List.nil_append, List.append_nil]
  | cons byte digits ih =>
      obtain ⟨hbyte, hdigits⟩ := List.forall_mem_cons.mp hdigits
      obtain ⟨value, hvalue⟩ := Option.ne_none_iff_exists'.mp hbyte
      rw [List.length_cons] at hlength
      rw [List.cons_append, scanGroups.eq_def]
      simp only [hvalue]
      rw [if_neg (by omega), ih hdigits (by simp; omega), List.append_assoc, List.singleton_append]

theorem digits_of_hexadecimal (word : Nat) : ∀ byte ∈ numeral 16 word, digitIn 16 byte ≠ none := by
  intro byte hmem
  obtain ⟨value, hvalue⟩ := digitIn_of_mem (by decide) (by decide) hmem
  rw [hvalue]
  exact Option.some_ne_none value

theorem digits_of_decimal (octet : Nat) : ∀ byte ∈ numeral 10 octet, digitIn 16 byte ≠ none := by
  intro byte hmem
  obtain ⟨value, hvalue, hbyte⟩ := exists_digit_of_mem (by decide) hmem
  rw [hbyte, digitIn_digit (by decide) (by omega)]
  exact Option.some_ne_none value

theorem length_hexadecimal_le {word : Nat} (hword : word < 65536) : (numeral 16 word).length ≤ 4 :=
  (length_numeral_le_iff (by decide) (by decide)).mpr hword

theorem length_decimal_le {octet : Nat} (hoctet : octet ≤ 255) : (numeral 10 octet).length ≤ 3 :=
  (length_numeral_le_iff (by decide) (by decide)).mpr (by omega)

theorem scanGroups_colon {done : List Nat} {token rest : List (BitVec 8)} (gap : Option Nat)
    (htoken : token ≠ []) (hrest : rest ≠ []) (hdone : done.length < 8) :
    scanGroups done gap token (colon :: rest) =
      scanGroups (done ++ [valueOf 16 token]) gap [] rest := by
  have hcolon : digitIn 16 colon = none := by decide
  rw [scanGroups.eq_def]
  simp only [hcolon]
  rw [if_pos trivial, if_neg htoken, if_neg (by simp [hrest]; omega)]

theorem scanGroups_gap (done : List Nat) (rest : List (BitVec 8)) :
    scanGroups done none [] (colon :: rest) = scanGroups done (some done.length) [] rest := by
  have hcolon : digitIn 16 colon = none := by decide
  rw [scanGroups.eq_def]
  simp only [hcolon]
  rfl

theorem joinGroups_singleton (group : List (BitVec 8)) : joinGroups [group] = group :=
  List.intercalate_singleton

theorem joinGroups_cons {groups : List (List (BitVec 8))} (group : List (BitVec 8))
    (hgroups : groups ≠ []) : joinGroups (group :: groups) = group ++ colon :: joinGroups groups := by
  rw [joinGroups, List.intercalate_cons_of_ne_nil hgroups, List.append_assoc, List.singleton_append,
    joinGroups]

/-- What stands behind a colon is joined like a group. -/
theorem joinGroups_concat {groups : List (List (BitVec 8))} (hgroups : groups ≠ [])
    (behind : List (BitVec 8)) :
    joinGroups (groups ++ [behind]) = joinGroups groups ++ colon :: behind := by
  induction groups with
  | nil => exact absurd rfl hgroups
  | cons group groups ih =>
      by_cases hlast : groups = []
      · rw [hlast, List.singleton_append, joinGroups_cons group (List.cons_ne_nil _ _),
          joinGroups_singleton, joinGroups_singleton]
      · rw [List.cons_append, joinGroups_cons group (List.append_ne_nil_of_left_ne_nil hlast _),
          ih hlast, joinGroups_cons group hlast, List.append_assoc, List.cons_append]

theorem joinGroups_concat_ne_nil (groups : List (List (BitVec 8))) {behind : List (BitVec 8)}
    (hbehind : behind ≠ []) : joinGroups (groups ++ [behind]) ≠ [] := by
  by_cases hgroups : groups = []
  · rwa [hgroups, List.nil_append, joinGroups_singleton]
  · rw [joinGroups_concat hgroups]
    exact List.append_ne_nil_of_right_ne_nil _ (List.cons_ne_nil _ _)

/-- One group and the colon behind it. -/
theorem scanGroups_group {word : Nat} {done : List Nat} (gap : Option Nat) {rest : List (BitVec 8)}
    (hword : word < 65536) (hrest : rest ≠ []) (hdone : done.length < 8) :
    scanGroups done gap [] (numeral 16 word ++ colon :: rest) =
      scanGroups (done ++ [word]) gap [] rest := by
  have hlength := length_hexadecimal_le hword
  rw [scanGroups_digits done gap (digits_of_hexadecimal word) (by simpa using hlength),
    List.nil_append, scanGroups_colon gap (numeral_ne_nil 16 word) hrest hdone,
    valueOf_numeral (by decide) (by decide)]

/-- Groups, and then whatever stands behind the last colon. -/
theorem scanGroups_behind {words done : List Nat} (gap : Option Nat) {behind : List (BitVec 8)}
    (hwords : ∀ word ∈ words, word < 65536) (hbehind : behind ≠ [])
    (hlength : done.length + words.length ≤ 8) :
    scanGroups done gap [] (joinGroups (words.map (numeral 16) ++ [behind])) =
      scanGroups (done ++ words) gap [] behind := by
  induction words generalizing done with
  | nil => rw [List.map_nil, List.nil_append, joinGroups_singleton, List.append_nil]
  | cons word words ih =>
      obtain ⟨hword, hwords⟩ := List.forall_mem_cons.mp hwords
      rw [List.length_cons] at hlength
      have hnext : words.map (numeral 16) ++ [behind] ≠ [] :=
        List.append_ne_nil_of_right_ne_nil _ (List.cons_ne_nil _ _)
      have hdone : (done ++ [word]).length + words.length ≤ 8 := by
        rw [List.length_append, List.length_singleton]
        omega
      rw [List.map_cons, List.cons_append, joinGroups_cons _ hnext,
        scanGroups_group gap hword (joinGroups_concat_ne_nil _ hbehind) (by omega),
        ih hwords hdone, List.append_assoc, List.singleton_append]

theorem scanGroups_front {words done : List Nat} (gap : Option Nat) {rest : List (BitVec 8)}
    (hwords : ∀ word ∈ words, word < 65536) (hne : words ≠ []) (hrest : rest ≠ [])
    (hlength : done.length + words.length ≤ 8) :
    scanGroups done gap [] (joinGroups (words.map (numeral 16)) ++ colon :: rest) =
      scanGroups (done ++ words) gap [] rest := by
  have hgroups : words.map (numeral 16) ≠ [] := fun hnil => hne (List.map_eq_nil_iff.mp hnil)
  rw [← joinGroups_concat hgroups]
  exact scanGroups_behind gap hwords hrest hlength

theorem scanGroups_last {word : Nat} {done : List Nat} (gap : Option Nat) (hword : word < 65536)
    (hdone : done.length < 8) :
    scanGroups done gap [] (numeral 16 word) = some (done ++ [word], gap) := by
  have hdigits := length_hexadecimal_le hword
  rw [← List.append_nil (numeral 16 word),
    scanGroups_digits done gap (digits_of_hexadecimal word) (by simpa using hdigits),
    List.nil_append, scanGroups, if_neg (numeral_ne_nil 16 word), if_pos hdone,
    valueOf_numeral (by decide) (by decide)]

/-- Groups at the end of the text, or no groups. -/
theorem scanGroups_words {words done : List Nat} (gap : Option Nat)
    (hwords : ∀ word ∈ words, word < 65536) (hlength : done.length + words.length ≤ 8) :
    scanGroups done gap [] (joinGroups (words.map (numeral 16))) = some (done ++ words, gap) := by
  rcases List.eq_nil_or_concat words with hempty | ⟨front, last, hconcat⟩
  · rw [hempty, List.append_nil]
    rfl
  · rw [List.concat_eq_append] at hconcat
    subst hconcat
    rw [List.length_append, List.length_singleton] at hlength
    obtain ⟨hfront, hlast⟩ := List.forall_mem_append.mp hwords
    rw [List.map_append, List.map_singleton,
      scanGroups_behind gap hfront (numeral_ne_nil 16 last) (by omega),
      scanGroups_last gap (hlast last List.mem_cons_self) (by rw [List.length_append]; omega),
      List.append_assoc]

/-! ### An IPv4 address among the groups -/

theorem exists_cons_cons {α : Type*} {values : List α} (hlength : 2 ≤ values.length) :
    ∃ first next behind, values = first :: next :: behind := by
  cases values with
  | nil => cases hlength
  | cons first values =>
      cases values with
      | nil => exact absurd hlength (by simp)
      | cons next behind => exact ⟨first, next, behind, rfl⟩

theorem wordsOf_bytesOf (words : List Nat) : wordsOf (bytesOf words) = words := by
  induction words with
  | nil => rfl
  | cons word words ih =>
      have hword : 256 * (word / 256) + word % 256 = word := Nat.div_add_mod word 256
      rw [bytesOf, List.flatMap_cons, List.cons_append, List.singleton_append, wordsOf, hword]
      exact congrArg (word :: ·) ih

theorem le_of_mem_bytesOf {words : List Nat} (hwords : ∀ word ∈ words, word < 65536) {octet : Nat}
    (hoctet : octet ∈ bytesOf words) : octet ≤ 255 := by
  obtain ⟨word, hmem, hoctet⟩ := List.mem_flatMap.mp hoctet
  have hword := hwords word hmem
  rw [List.mem_cons, List.mem_singleton] at hoctet
  omega

@[simp]
theorem length_bytesOf (words : List Nat) : (bytesOf words).length = 2 * words.length := by
  induction words with
  | nil => rfl
  | cons word words ih =>
      rw [bytesOf, List.flatMap_cons, List.length_append, List.length_cons, ← bytesOf, ih]
      simp
      omega

/-- The first octet is read as a group until its dot is seen. -/
theorem scanGroups_dotted {octets done : List Nat} (gap : Option Nat)
    (hoctets : ∀ octet ∈ octets, octet ≤ 255) (hlength : octets.length = 4)
    (hdone : done.length ≤ 6) :
    scanGroups done gap [] (dotted octets) = some (done ++ wordsOf octets, gap) := by
  have hscan := scanOctets_dotted (@hoctets) (List.ne_nil_of_length_pos (by omega))
    (show ([] : List Nat).length + octets.length = 4 by simpa using hlength)
  obtain ⟨first, next, behind, hsplit⟩ := exists_cons_cons (show 2 ≤ octets.length by omega)
  subst hsplit
  have hfirst := length_decimal_le (hoctets first List.mem_cons_self)
  have hnondigit : digitIn 16 dot = none := by decide
  have hcolon : dot ≠ colon := by decide
  rw [dotted_cons_cons, scanGroups_digits done gap (digits_of_decimal first) (by simp; omega),
    List.nil_append, scanGroups.eq_def]
  simp only [hnondigit]
  rw [if_neg hcolon, if_pos ⟨trivial, hdone⟩, ← dotted_cons_cons, hscan, Option.map_some,
    List.nil_append]

theorem dotted_ne_nil {octets : List Nat} (hne : octets ≠ []) : dotted octets ≠ [] := by
  obtain ⟨octet, octets, rfl⟩ := List.exists_cons_of_ne_nil hne
  by_cases hlast : octets = []
  · rw [hlast, dotted, List.map_singleton, List.intercalate_singleton]
    exact numeral_ne_nil 10 octet
  · obtain ⟨next, octets, rfl⟩ := List.exists_cons_of_ne_nil hlast
    rw [dotted_cons_cons]
    exact List.append_ne_nil_of_left_ne_nil (numeral_ne_nil 10 octet) _

/-- The words behind the run, of which the last two are printed as octets. -/
theorem scanGroups_mapped {words done : List Nat} {start : Nat} (gap : Option Nat)
    (hwords : ∀ word ∈ words, word < 65536) (hlength : words.length = 8)
    (hdone : done.length ≤ start) (hstart : start ≤ 6) :
    scanGroups done gap [] (joinGroups (((words.take 6).drop start).map (numeral 16) ++
      [dotted (bytesOf (words.drop 6))])) = some (done ++ words.drop start, gap) := by
  have htake : (words.take 6).length = 6 := by rw [List.length_take, hlength]; rfl
  have hfront : ∀ word ∈ (words.take 6).drop start, word < 65536 := fun word hmem =>
    hwords word (List.mem_of_mem_take (List.mem_of_mem_drop hmem))
  have hback : ∀ octet ∈ bytesOf (words.drop 6), octet ≤ 255 := fun octet =>
    le_of_mem_bytesOf fun word hmem => hwords word (List.mem_of_mem_drop hmem)
  have hfour : (bytesOf (words.drop 6)).length = 4 := by
    rw [length_bytesOf, List.length_drop, hlength]
  have hcount : ((words.take 6).drop start).length = 6 - start := by
    rw [List.length_drop, htake]
  have hdrop : (words.take 6).drop start ++ words.drop 6 = words.drop start := by
    rw [← List.drop_append_of_le_length (by omega), List.take_append_drop]
  have hdotted : dotted (bytesOf (words.drop 6)) ≠ [] :=
    dotted_ne_nil (List.ne_nil_of_length_pos (by omega))
  rw [scanGroups_behind gap hfront hdotted (by omega),
    scanGroups_dotted gap hback hfour (by rw [List.length_append]; omega), wordsOf_bytesOf,
    List.append_assoc, hdrop]

theorem scanGroups_groupsBehind {words done : List Nat} {run : Nat × Nat} (gap : Option Nat)
    (hwords : ∀ word ∈ words, word < 65536) (hlength : words.length = 8)
    (hdone : done.length ≤ run.1 + run.2) (hrun : run.1 + run.2 ≤ 8) :
    scanGroups done gap [] (joinGroups (groupsBehind words run)) =
      some (done ++ words.drop (run.1 + run.2), gap) := by
  rw [groupsBehind]
  split
  next hmapped =>
    have hstart : run.1 + run.2 ≤ 6 := by
      obtain ⟨hstart, hlong | ⟨hlong, _⟩⟩ := hmapped
      · omega
      · omega
    exact scanGroups_mapped gap hwords hlength hdone hstart
  next =>
    apply scanGroups_words gap
    · exact fun word hmem => hwords word (List.mem_of_mem_drop hmem)
    · rw [List.length_drop]
      omega

/-! ### The run that is left out -/

def IsRun (words : List Nat) (run : Nat × Nat) : Prop :=
  ∃ front back, words = front ++ List.replicate run.2 0 ++ back ∧ front.length = run.1

/-- The run that the words end in. -/
def IsLastRun (words : List Nat) (run : Nat × Nat) : Prop :=
  ∃ front, words = front ++ List.replicate run.2 0 ∧ front.length = run.1

theorem IsLastRun.isRun {words : List Nat} {run : Nat × Nat} (hrun : IsLastRun words run) :
    IsRun words run := by
  obtain ⟨front, hwords, hfront⟩ := hrun
  exact ⟨front, [], by rw [List.append_nil, hwords], hfront⟩

theorem IsRun.append {words : List Nat} {run : Nat × Nat} (hrun : IsRun words run)
    (more : List Nat) : IsRun (words ++ more) run := by
  obtain ⟨front, back, hwords, hfront⟩ := hrun
  exact ⟨front, back ++ more, by rw [hwords, List.append_assoc], hfront⟩

theorem mem_of_mem_keepLonger {current best : Option (Nat × Nat)} {run : Nat × Nat}
    (hrun : run ∈ keepLonger current best) : run ∈ current ∨ run ∈ best := by
  cases current with
  | none => exact .inr hrun
  | some current =>
      cases best with
      | none => exact .inl hrun
      | some best =>
          rw [keepLonger] at hrun
          split at hrun
          · exact .inl hrun
          · exact .inr hrun

theorem isRun_of_mem_keepLonger {seen : List Nat} {current best : Option (Nat × Nat)}
    (hcurrent : ∀ run ∈ current, IsLastRun seen run) (hbest : ∀ run ∈ best, IsRun seen run) :
    ∀ run ∈ keepLonger current best, IsRun seen run := by
  intro run hrun
  rcases mem_of_mem_keepLonger hrun with hrun | hrun
  · exact (hcurrent run hrun).isRun
  · exact hbest run hrun

/-- Another zero starts a run or makes the last one longer. -/
theorem isLastRun_zero {seen : List Nat} {current : Option (Nat × Nat)}
    (hcurrent : ∀ run ∈ current, IsLastRun seen run) :
    IsLastRun (seen ++ [0]) (current.elim (seen.length, 1) fun run => (run.1, run.2 + 1)) := by
  cases current with
  | none => exact ⟨seen, rfl, rfl⟩
  | some last =>
      obtain ⟨front, hseen, hfront⟩ := hcurrent last rfl
      refine ⟨front, ?_, hfront⟩
      change _ = front ++ List.replicate (last.2 + 1) 0
      rw [List.replicate_succ', ← List.append_assoc, ← hseen]

/-- The runs in hand are runs of what has been seen. -/
theorem isRun_of_longestRun {words seen : List Nat} {current best : Option (Nat × Nat)}
    (hcurrent : ∀ run ∈ current, IsLastRun seen run) (hbest : ∀ run ∈ best, IsRun seen run) :
    ∀ run ∈ longestRun current best seen.length words, IsRun (seen ++ words) run := by
  induction words generalizing seen current best with
  | nil =>
      rw [List.append_nil]
      exact isRun_of_mem_keepLonger hcurrent hbest
  | cons word words ih =>
      have hseen : seen ++ word :: words = (seen ++ [word]) ++ words := by simp
      have hcount : seen.length + 1 = (seen ++ [word]).length := by simp
      rw [longestRun, hseen, hcount]
      split
      next hzero =>
        subst hzero
        apply ih
        · intro run hrun
          cases hrun
          exact isLastRun_zero hcurrent
        · exact fun run hrun => (hbest run hrun).append [0]
      next =>
        apply ih
        · exact fun _ hnone => absurd hnone (Option.not_mem_none _)
        · exact fun run hrun => (isRun_of_mem_keepLonger hcurrent hbest run hrun).append [word]

theorem isRun_of_zeroRun {words : List Nat} {run : Nat × Nat} (hrun : zeroRun words = some run) :
    IsRun words run ∧ 2 ≤ run.2 := by
  obtain ⟨hlongest, htwo⟩ := Option.filter_eq_some_iff.mp hrun
  refine ⟨?_, by simpa using htwo⟩
  have hruns := @isRun_of_longestRun words [] none none (fun _ hnone => absurd hnone (Option.not_mem_none _))
    (fun _ hnone => absurd hnone (Option.not_mem_none _))
  exact hruns run hlongest

/-! ### Both families -/

theorem skipColon_numeral (base : Nat) (hbase : 1 < base) (hle : base ≤ 16) (n : Nat)
    (rest : List (BitVec 8)) :
    skipColon (numeral base n ++ rest) = some (numeral base n ++ rest) := by
  obtain ⟨byte, digits, hnumeral⟩ := List.exists_cons_of_ne_nil (numeral_ne_nil base n)
  have hmem : byte ∈ numeral base n := by rw [hnumeral]; exact List.mem_cons_self
  obtain ⟨value, hvalue⟩ := digitIn_of_mem hbase hle hmem
  have hcolon : byte ≠ colon := by
    rintro rfl
    rw [digitIn_mono hle (by decide)] at hvalue
    cases hvalue
  rw [hnumeral, List.cons_append, skipColon, if_neg hcolon]

theorem exists_joinGroups_cons (group : List (BitVec 8)) (groups : List (List (BitVec 8))) :
    ∃ rest, joinGroups (group :: groups) = group ++ rest := by
  by_cases hlast : groups = []
  · exact ⟨[], by rw [hlast, joinGroups_singleton, List.append_nil]⟩
  · exact ⟨_, joinGroups_cons group hlast⟩

theorem skipColon_groups {words : List Nat} (hne : words ≠ []) (rest : List (BitVec 8)) :
    skipColon (joinGroups (words.map (numeral 16)) ++ rest) =
      some (joinGroups (words.map (numeral 16)) ++ rest) := by
  obtain ⟨word, words, rfl⟩ := List.exists_cons_of_ne_nil hne
  obtain ⟨more, hmore⟩ := exists_joinGroups_cons (numeral 16 word) (words.map (numeral 16))
  rw [List.map_cons, hmore, List.append_assoc]
  exact skipColon_numeral 16 (by decide) (by decide) word _

/-- What a reader has in hand at the end of a printed address. -/
def Reads (text : List (BitVec 8)) (words : List Nat) : Prop :=
  ∃ rest done gap, skipColon text = some rest ∧ scanGroups [] none [] rest = some (done, gap) ∧
    fillGap done gap = some words

theorem reads_without_run {words : List Nat} (hwords : ∀ word ∈ words, word < 65536)
    (hlength : words.length = 8) : Reads (joinGroups (words.map (numeral 16))) words := by
  have hne : words ≠ [] := List.ne_nil_of_length_pos (by omega)
  have hskip := skipColon_groups hne []
  rw [List.append_nil] at hskip
  refine ⟨_, words, none, hskip, ?_, if_pos hlength⟩
  exact scanGroups_words none hwords (by simpa using hlength.le)

/-- The gap is filled with the zeros that were left out. -/
theorem fillGap_run {front back : List Nat} {zeros : Nat} (htwo : 2 ≤ zeros)
    (hlength : (front ++ List.replicate zeros 0 ++ back).length = 8) :
    fillGap (front ++ back) (some front.length) =
      some (front ++ List.replicate zeros 0 ++ back) := by
  rw [List.length_append, List.length_append, List.length_replicate] at hlength
  have hzeros : 8 - (front ++ back).length = zeros := by
    rw [List.length_append]
    omega
  rw [fillGap, if_neg (by rw [List.length_append]; omega), List.take_left, List.drop_left, hzeros]

theorem reads_with_run {words : List Nat} {run : Nat × Nat}
    (hwords : ∀ word ∈ words, word < 65536) (hlength : words.length = 8)
    (hrun : IsRun words run) (htwo : 2 ≤ run.2) :
    Reads (joinGroups ((words.take run.1).map (numeral 16)) ++
      colon :: colon :: joinGroups (groupsBehind words run)) words := by
  obtain ⟨front, back, hsplit, hfront⟩ := hrun
  have htake : words.take run.1 = front := by
    rw [hsplit, List.append_assoc, ← hfront, List.take_left]
  have hdrop : words.drop (run.1 + run.2) = back := by
    have hcount : (front ++ List.replicate run.2 0).length = run.1 + run.2 := by
      rw [List.length_append, List.length_replicate, hfront]
    rw [hsplit, ← hcount, List.drop_left]
  have hcount : run.1 + run.2 ≤ 8 := by
    rw [hsplit, List.length_append, List.length_append, List.length_replicate] at hlength
    omega
  have hbehind : scanGroups front (some front.length) [] (joinGroups (groupsBehind words run)) =
      some (front ++ back, some front.length) := by
    rw [scanGroups_groupsBehind _ hwords hlength (by omega) hcount, hdrop]
  have hfill := @fillGap_run front back run.2 htwo (by rw [← hsplit, hlength])
  rw [← hsplit] at hfill
  rw [htake]
  by_cases hempty : front = []
  · refine ⟨colon :: joinGroups (groupsBehind words run), front ++ back, some front.length, ?_, ?_,
      hfill⟩
    · rw [hempty]
      rfl
    · rw [scanGroups_gap]
      rw [hempty] at hbehind ⊢
      exact hbehind
  · refine ⟨_, front ++ back, some front.length, skipColon_groups hempty _, ?_, hfill⟩
    rw [scanGroups_front none (fun word hmem => hwords word (List.mem_of_mem_take (htake ▸ hmem)))
      hempty (List.cons_ne_nil _ _) (by simp; omega), List.nil_append, scanGroups_gap]
    exact hbehind

theorem reads_ntopWords {words : List Nat} (hwords : ∀ word ∈ words, word < 65536)
    (hlength : words.length = 8) : Reads (ntopWords words) words := by
  rw [ntopWords]
  cases hzero : zeroRun words with
  | none => exact reads_without_run hwords hlength
  | some run =>
      obtain ⟨hrun, htwo⟩ := isRun_of_zeroRun hzero
      exact reads_with_run hwords hlength hrun htwo

theorem bytesOf_wordsOf {values : List Nat} (hvalues : ∀ value ∈ values, value ≤ 255)
    (heven : values.length % 2 = 0) : bytesOf (wordsOf values) = values := by
  match values with
  | [] => rfl
  | [value] => cases heven
  | high :: low :: rest =>
      obtain ⟨_, hlow, hrest⟩ : high ≤ 255 ∧ low ≤ 255 ∧ ∀ value ∈ rest, value ≤ 255 := by
        simpa only [List.forall_mem_cons] using hvalues
      have htail := @bytesOf_wordsOf rest hrest (by simp only [List.length_cons] at heven; omega)
      have hhigh : (256 * high + low) / 256 = high := by omega
      have hlowest : (256 * high + low) % 256 = low := by omega
      rw [wordsOf, bytesOf, List.flatMap_cons, ← bytesOf, htail, hhigh, hlowest]
      rfl

theorem lt_of_mem_wordsOf {values : List Nat} (hvalues : ∀ value ∈ values, value ≤ 255) :
    ∀ word ∈ wordsOf values, word < 65536 := by
  match values with
  | [] => exact fun _ hword => absurd hword List.not_mem_nil
  | [value] => exact fun _ hword => absurd hword List.not_mem_nil
  | high :: low :: rest =>
      obtain ⟨hhigh, hlow, hrest⟩ : high ≤ 255 ∧ low ≤ 255 ∧ ∀ value ∈ rest, value ≤ 255 := by
        simpa only [List.forall_mem_cons] using hvalues
      rw [wordsOf]
      exact List.forall_mem_cons.mpr ⟨by omega, lt_of_mem_wordsOf hrest⟩

/-- The words that an IPv6 address is printed from. -/
theorem words_of_octets (octets : Vector (BitVec 8) 16) :
    bytesOf (wordsOf (valuesOf octets)) = valuesOf octets ∧
      (∀ word ∈ wordsOf (valuesOf octets), word < 65536) ∧
        (wordsOf (valuesOf octets)).length = 8 := by
  have hvalues : ∀ value ∈ valuesOf octets, value ≤ 255 := fun _ => le_of_mem_valuesOf
  have hlength : (valuesOf octets).length = 16 := by
    rw [valuesOf, List.length_map, Vector.length_toList]
  have hbytes := bytesOf_wordsOf hvalues (by rw [hlength])
  refine ⟨hbytes, lt_of_mem_wordsOf hvalues, ?_⟩
  have hdouble := congrArg List.length hbytes
  rw [length_bytesOf, hlength] at hdouble
  omega

/-- **Reading back an IPv6 address.** -/
theorem inetPton6_inetNtop6 (octets : Vector (BitVec 8) 16) :
    inetPton6 (inetNtop6 octets) = some octets := by
  obtain ⟨hbytes, hwords, hlength⟩ := words_of_octets octets
  obtain ⟨rest, done, gap, hskip, hscan, hfill⟩ := reads_ntopWords hwords hlength
  rw [inetPton6, inetNtop6, hskip]
  simp only [Option.bind_eq_bind, Option.bind_some, hscan, hfill, hbytes]
  exact vectorOf_valuesOf octets

end InetText
