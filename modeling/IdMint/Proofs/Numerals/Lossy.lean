import IdMint.Proofs.Numerals.Reading
import Mathlib.Data.Nat.ModEq

/-! What a reader that does not judge makes of a text. Every byte moves the word up by one symbol
and adds its digit, and what is pushed past the top is a multiple of the word limit. -/
namespace IdMint.Numerals

open Text

variable {n : Numerals}

/-- The digit that a reader which does not judge takes a byte for. -/
theorem toNat_index_or_zero (n : Numerals) (b : UInt8) :
    (if n.tables.index b = Tables.foreign then 0 else n.tables.index b).toNat = n.digit b := by
  by_cases h : b ∈ n.alphabet.symbols
  · have hindex : n.tables.index b ≠ Tables.foreign := Tables.index_ne_foreign h
    rw [if_neg hindex, toNat_index h]
  · have hindex : n.tables.index b = Tables.foreign := Tables.index_foreign h
    rw [if_pos hindex, digit_foreign h]
    rfl

theorem toNat_readLossy_step (n : Numerals) (word : UInt64) (b : UInt8) :
    (n.tables.readLossy word b).toNat = (word.toNat * n.radix + n.digit b) % UInt64.size := by
  have hdigit := toNat_index_or_zero n b
  rw [Tables.readLossy, toNat_shiftLeft_or, hdigit]
  rw [hdigit]
  exact digit_lt n b

/-- The word of the bytes so far is what is left of their number below the word limit. -/
theorem toNat_foldl_readLossy (n : Numerals) (bs : List UInt8) :
    (bs.foldl n.tables.readLossy 0).toNat = n.number bs % UInt64.size := by
  induction bs using List.reverseRecOn with
  | nil => rfl
  | append_singleton bs b ih =>
    rw [List.foldl_append, List.foldl_cons, List.foldl_nil, toNat_readLossy_step, ih, number_concat]
    exact ((Nat.mod_modEq (n.number bs) UInt64.size).mul_right n.radix).add_right (n.digit b)

/-- Reading without judging gives the number of the text up to a multiple of the word limit, where
foreign bytes stand for zero. What a reader accepts is read as the same word. -/
theorem readLossy_exact (n : Numerals) :
    (∀ s, (n.readLossy s).toNat = n.number (bytes s) % UInt64.size) ∧
    ∀ s v, n.read s = .ok v → n.readLossy s = v := by
  have hnumber (s : String) : (n.readLossy s).toNat = n.number (bytes s) % UInt64.size :=
    toNat_foldl_readLossy n (bytes s)
  refine ⟨hnumber, fun s v h => ?_⟩
  obtain ⟨_, _, hv⟩ := read_eq_ok_iff.mp h
  apply UInt64.toNat_inj.mp
  rw [hnumber, hv]
  exact Nat.mod_eq_of_lt v.toNat_lt

/-- The first of thirteen symbols is pushed past the top, and the second is no symbol. -/
theorem pushedOut_readLossy :
    base32.number (bytes "G@0000000000A") = UInt64.size + 10 ∧
    (base32.readLossy "G@0000000000A").toNat = (UInt64.size + 10) % UInt64.size ∧
    base32.read "0000A" = .ok 10 ∧ base32.readLossy "0000A" = 10 := by
  have hnumber : base32.number (bytes "G@0000000000A") = UInt64.size + 10 := by decide +kernel
  have hread : base32.read "0000A" = .ok 10 := by decide +kernel
  obtain ⟨hlossy, hsame⟩ := readLossy_exact base32
  exact ⟨hnumber, hnumber ▸ hlossy "G@0000000000A", hread, hsame _ _ hread⟩

end IdMint.Numerals
