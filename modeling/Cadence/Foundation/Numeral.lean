import Mathlib.Data.BitVec

/-!
# Numerals in text

A number is printed in a base up to sixteen without leading zeros, a byte a digit. What a reader makes
of a numeral follows its last digit: the number in front of it, times the base, plus the digit.
-/

namespace Numeral

def digit (value : Nat) : BitVec 8 := BitVec.ofNat 8 value.digitChar.toNat

def numeral (base n : Nat) : List (BitVec 8) :=
  (Nat.toDigits base n).map fun char => BitVec.ofNat 8 char.toNat

/-- The value of a digit in either case. -/
def digitValue (byte : BitVec 8) : Option Nat :=
  if 0x30 ≤ byte ∧ byte ≤ 0x39 then some (byte.toNat - 0x30)
  else if 0x61 ≤ byte ∧ byte ≤ 0x66 then some (byte.toNat - 0x57)
  else if 0x41 ≤ byte ∧ byte ≤ 0x46 then some (byte.toNat - 0x37)
  else none

def digitIn (base : Nat) (byte : BitVec 8) : Option Nat :=
  (digitValue byte).filter (· < base)

def valueOf (base : Nat) (text : List (BitVec 8)) : Nat :=
  text.foldl (fun value byte => base * value + (digitValue byte).getD 0) 0

theorem digitValue_digit {value : Nat} (hvalue : value < 16) : digitValue (digit value) = some value := by
  revert value
  decide

theorem digitIn_digit {base value : Nat} (hbase : base ≤ 16) (hvalue : value < base) :
    digitIn base (digit value) = some value := by
  rw [digitIn, digitValue_digit (by omega), Option.filter_some_pos (by simpa using hvalue)]

@[simp]
theorem valueOf_nil (base : Nat) : valueOf base [] = 0 := rfl

theorem valueOf_concat (base : Nat) (text : List (BitVec 8)) (byte : BitVec 8) :
    valueOf base (text ++ [byte]) = base * valueOf base text + (digitValue byte).getD 0 := by
  rw [valueOf, List.foldl_append, valueOf]
  rfl

section Base

variable {base : Nat}

theorem numeral_of_lt {n : Nat} (hn : n < base) : numeral base n = [digit n] := by
  rw [numeral, Nat.toDigits_of_lt_base hn]
  rfl

theorem numeral_concat {m k : Nat} (hbase : 1 < base) (hm : 0 < m) (hk : k < base) :
    numeral base (base * m + k) = numeral base m ++ [digit k] := by
  rw [numeral, ← Nat.toDigits_append_toDigits hbase hm hk, List.map_append,
    Nat.toDigits_of_lt_base hk]
  rfl

theorem numeral_ne_nil (base n : Nat) : numeral base n ≠ [] := by
  rw [numeral, Ne, List.map_eq_nil_iff]
  exact Nat.toDigits_ne_nil

theorem length_numeral_le_iff {n k : Nat} (hbase : 1 < base) (hk : 0 < k) :
    (numeral base n).length ≤ k ↔ n < base ^ k := by
  rw [numeral, List.length_map]
  exact Nat.length_toDigits_le_iff hbase hk

/-- Every byte of a numeral is a digit of its base. -/
theorem exists_digit_of_mem {n : Nat} {byte : BitVec 8} (hbase : 1 < base)
    (hmem : byte ∈ numeral base n) : ∃ value < base, byte = digit value := by
  induction n using Nat.base_induction base hbase with
  | single n hn =>
      rw [numeral_of_lt hn, List.mem_singleton] at hmem
      exact ⟨n, hn, hmem⟩
  | digit m k hk hm ih =>
      rw [numeral_concat hbase hm hk, List.mem_append, List.mem_singleton] at hmem
      rcases hmem with hfront | hlast
      · exact ih hfront
      · exact ⟨k, hk, hlast⟩

theorem digitIn_of_mem {n : Nat} {byte : BitVec 8} (hbase : 1 < base) (hle : base ≤ 16)
    (hmem : byte ∈ numeral base n) : ∃ value, digitIn base byte = some value := by
  obtain ⟨value, hvalue, hbyte⟩ := exists_digit_of_mem hbase hmem
  exact ⟨value, by rw [hbyte, digitIn_digit hle hvalue]⟩

theorem valueOf_numeral (hbase : 1 < base) (hle : base ≤ 16) (n : Nat) :
    valueOf base (numeral base n) = n := by
  induction n using Nat.base_induction base hbase with
  | single n hn =>
      rw [numeral_of_lt hn, ← List.nil_append [digit n], valueOf_concat, digitValue_digit (by omega)]
      simp
  | digit m k hk hm ih =>
      rw [numeral_concat hbase hm hk, valueOf_concat, ih, digitValue_digit (by omega)]
      rfl

theorem numeral_injective (hbase : 1 < base) (hle : base ≤ 16) {m n : Nat}
    (hnumeral : numeral base m = numeral base n) : m = n := by
  have hvalue := congrArg (valueOf base) hnumeral
  rwa [valueOf_numeral hbase hle, valueOf_numeral hbase hle] at hvalue

end Base

/-- The digits of a decimal number are those of a hexadecimal one, and none is zero but zero. -/
theorem exists_hexadecimal (n : Nat) :
    ∃ hex, numeral 16 hex = numeral 10 n ∧ (0 < n → 0 < hex) := by
  induction n using Nat.base_induction 10 (by decide) with
  | single n hn => exact ⟨n, by rw [numeral_of_lt hn, numeral_of_lt (by omega)], id⟩
  | digit m k hk hm ih =>
      obtain ⟨hex, hnumeral, hpos⟩ := ih
      refine ⟨16 * hex + k, ?_, fun _ => by have := hpos hm; omega⟩
      rw [numeral_concat (by decide) (hpos hm) (by omega), hnumeral,
        numeral_concat (by decide) hm hk]

end Numeral
