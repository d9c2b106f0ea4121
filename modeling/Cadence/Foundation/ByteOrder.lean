import Mathlib.Data.BitVec

/-!
# The octets of a word

A word of 32 bits lies in memory from its most or from its least significant octet on. Network order
is the first of the two whatever the host does, so a word in network order is compared to what memory
holds octet by octet.
-/

inductive ByteOrder where
  | little
  | big
  deriving DecidableEq

namespace ByteOrder

variable {order : ByteOrder} {octets octets' : Vector (BitVec 8) 4}

def load : ByteOrder → Vector (BitVec 8) 4 → BitVec 32
  | big, octets => octets[0] ++ (octets[1] ++ (octets[2] ++ octets[3]))
  | little, octets => octets[3] ++ (octets[2] ++ (octets[1] ++ octets[0]))

def store : ByteOrder → BitVec 32 → Vector (BitVec 8) 4
  | big, word => #v[word.extractLsb' 24 8, word.extractLsb' 16 8, word.extractLsb' 8 8,
      word.extractLsb' 0 8]
  | little, word => #v[word.extractLsb' 0 8, word.extractLsb' 8 8, word.extractLsb' 16 8,
      word.extractLsb' 24 8]

/-- `htonl`: the word that the host loads where memory holds `word` in network order. -/
def htonl (order : ByteOrder) (word : BitVec 32) : BitVec 32 :=
  order.load (big.store word)

/-- The octet that a loaded word begins with. -/
def lead : ByteOrder → Vector (BitVec 8) 4 → BitVec 8
  | big, octets => octets[0]
  | little, octets => octets[3]

theorem eq_of_append_eq {v w : Nat} {x x' : BitVec v} {y y' : BitVec w}
    (happend : x ++ y = x' ++ y') : x = x' ∧ y = y' := by
  constructor
  · apply BitVec.eq_of_getLsbD_eq
    intro bit _
    have hbit := congrArg (fun word => word.getLsbD (w + bit)) happend
    have hhigh : ¬ w + bit < w := by omega
    simpa [BitVec.getLsbD_append, hhigh] using hbit
  · apply BitVec.eq_of_getLsbD_eq
    intro bit hlow
    have hbit := congrArg (fun word => word.getLsbD bit) happend
    simpa [BitVec.getLsbD_append, hlow] using hbit

theorem load_injective (hload : order.load octets = order.load octets') : octets = octets' := by
  apply Vector.ext
  intro i hi
  cases order with
  | big =>
      obtain ⟨h0, hload⟩ := eq_of_append_eq hload
      obtain ⟨h1, hload⟩ := eq_of_append_eq hload
      obtain ⟨h2, h3⟩ := eq_of_append_eq hload
      match i with
      | 0 => exact h0
      | 1 => exact h1
      | 2 => exact h2
      | 3 => exact h3
  | little =>
      obtain ⟨h3, hload⟩ := eq_of_append_eq hload
      obtain ⟨h2, hload⟩ := eq_of_append_eq hload
      obtain ⟨h1, h0⟩ := eq_of_append_eq hload
      match i with
      | 0 => exact h0
      | 1 => exact h1
      | 2 => exact h2
      | 3 => exact h3

theorem load_store (order : ByteOrder) (word : BitVec 32) : order.load (order.store word) = word := by
  have hword : word.extractLsb' 24 8 ++
      (word.extractLsb' 16 8 ++ (word.extractLsb' 8 8 ++ word.extractLsb' 0 8)) = word := by
    rw [BitVec.extractLsb'_append_extractLsb'_eq_extractLsb' (Nat.zero_add 8).symm,
      BitVec.extractLsb'_append_extractLsb'_eq_extractLsb' (Nat.zero_add 16).symm,
      BitVec.extractLsb'_append_extractLsb'_eq_extractLsb' (Nat.zero_add 24).symm,
      BitVec.extractLsb'_eq_self]
  cases order with
  | little => exact hword
  | big => exact hword

theorem store_load (order : ByteOrder) (octets : Vector (BitVec 8) 4) :
    order.store (order.load octets) = octets :=
  load_injective (load_store order (order.load octets))

theorem store_htonl (order : ByteOrder) (word : BitVec 32) :
    order.store (order.htonl word) = big.store word :=
  store_load order (big.store word)

/-- Comparing with a constant in network order compares the octets. -/
theorem load_eq_htonl_iff {word : BitVec 32} :
    order.load octets = order.htonl word ↔ octets = big.store word :=
  ⟨load_injective, congrArg order.load⟩

/-- A mask on the leading octet sees nothing of the others. -/
theorem load_and_eq_iff {mask value : BitVec 8} :
    order.load octets &&& (mask ++ 0#24) = value ++ 0#24 ↔ order.lead octets &&& mask = value := by
  obtain ⟨rest, hrest⟩ : ∃ rest : BitVec 24, order.load octets = order.lead octets ++ rest := by
    cases order with
    | big => exact ⟨octets[1] ++ (octets[2] ++ octets[3]), rfl⟩
    | little => exact ⟨octets[2] ++ (octets[1] ++ octets[0]), rfl⟩
  rw [hrest, BitVec.and_append, BitVec.and_zero]
  constructor
  · exact fun hmask => (eq_of_append_eq hmask).1
  · intro hmask
    rw [hmask]

end ByteOrder
