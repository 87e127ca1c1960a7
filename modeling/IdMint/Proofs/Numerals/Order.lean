import IdMint.Proofs.Numerals.Writing

/-! Written words are in the order of the words. A shorter text is of a smaller word, and texts of
one length compare symbol by symbol, each symbol by its index. So where the symbols of an alphabet
ascend as bytes, texts of one length are in the order of their bytes. -/
namespace IdMint

namespace Text

/-- A text comes before another where the bytes at which they first differ are so related, or where
the other goes on behind it. -/
def Before (r : UInt8 → UInt8 → Prop) (s t : String) : Prop := List.Lex r (bytes s) (bytes t)

instance (r : UInt8 → UInt8 → Prop) [DecidableRel r] (s t : String) : Decidable (Before r s t) :=
  inferInstanceAs (Decidable (List.Lex r (bytes s) (bytes t)))

end Text

namespace Numerals

open Text

variable {n : Numerals} {x y : UInt64} {ds es : List Nat} {r : UInt8 → UInt8 → Prop}

theorem length_write (n : Numerals) (x : UInt64) :
    (n.write x).length = Digits.width n.radix x.toNat := by
  rw [write, written_writeInto, ofAscii, String.length_ofList, List.length_map, numeral,
    List.length_map, List.length_reverse, Digits.width]

/-- Symbols compare as their digits if every two of them do. -/
theorem lex_map_symbol_iff
    (hr : ∀ i < n.radix, ∀ j < n.radix, r (n.alphabet.symbol i) (n.alphabet.symbol j) ↔ i < j)
    (hds : ∀ d ∈ ds, d < n.radix) (hes : ∀ e ∈ es, e < n.radix) :
    List.Lex r (ds.map n.alphabet.symbol) (es.map n.alphabet.symbol) ↔ List.Lex (· < ·) ds es := by
  induction ds generalizing es with
  | nil =>
    cases es with
    | nil => exact iff_of_false List.not_lex_nil List.not_lex_nil
    | cons e es => exact iff_of_true .nil .nil
  | cons d ds ih =>
    cases es with
    | nil => exact iff_of_false List.not_lex_nil List.not_lex_nil
    | cons e es =>
      obtain ⟨hd, hds⟩ := List.forall_mem_cons.mp hds
      obtain ⟨he, hes⟩ := List.forall_mem_cons.mp hes
      have hsame : n.alphabet.symbol d = n.alphabet.symbol e ↔ d = e :=
        ⟨Alphabet.symbol_inj hd he, congrArg _⟩
      rw [List.map_cons, List.map_cons, List.cons_lex_cons_iff, List.cons_lex_cons_iff,
        ih hds hes, hr d hd e he, hsame]

/-- Words are in the order of their texts, by any relation that has the symbols in their order. -/
theorem lt_iff_before
    (hr : ∀ i < n.radix, ∀ j < n.radix, r (n.alphabet.symbol i) (n.alphabet.symbol j) ↔ i < j) :
    x < y ↔ (n.write x).length < (n.write y).length ∨
      (n.write x).length = (n.write y).length ∧ Before r (n.write x) (n.write y) := by
  have hdigits (z : UInt64) : ∀ d ∈ (Digits.ofNat n.radix z.toNat).reverse, d < n.radix :=
    fun d hd => Digits.lt_of_mem_ofNat (two_le_radix n) (List.mem_reverse.mp hd)
  rw [UInt64.lt_iff_toNat_lt, Digits.lt_iff_lex (two_le_radix n), length_write, length_write,
    Before, bytes_write, bytes_write, numeral, numeral, lex_map_symbol_iff hr (hdigits x) (hdigits y)]

theorem digit_symbol_lt_iff (n : Numerals) : ∀ i < n.radix, ∀ j < n.radix,
    n.digit (n.alphabet.symbol i) < n.digit (n.alphabet.symbol j) ↔ i < j := by
  intro i hi j hj
  rw [digit_symbol hi, digit_symbol hj]

/-- Where symbols ascend, a later symbol is a larger byte. -/
theorem symbol_lt_iff (h : n.alphabet.symbols.Pairwise (· < ·)) : ∀ i < n.radix, ∀ j < n.radix,
    n.alphabet.symbol i < n.alphabet.symbol j ↔ i < j := by
  have hless {i j : Nat} (hi : i < n.radix) (hj : j < n.radix) (hij : i < j) :
      n.alphabet.symbol i < n.alphabet.symbol j := by
    rw [Alphabet.symbol_of_lt hi, Alphabet.symbol_of_lt hj]
    exact List.pairwise_iff_getElem.mp h i j hi hj hij
  intro i hi j hj
  rcases Nat.lt_trichotomy i j with hij | rfl | hij
  · exact iff_of_true (hless hi hj hij) hij
  · exact iff_of_false (UInt8.lt_irrefl _) (Nat.lt_irrefl i)
  · exact iff_of_false (UInt8.lt_asymm (hless hj hi hij)) (Nat.lt_asymm hij)

/-- Words are in the order of their texts: shorter texts first, and texts of one length by the
indices of their symbols. Over an alphabet whose symbols ascend, texts of one length may be compared
by their bytes instead, so words are sorted when their texts are. -/
theorem write_in_order (n : Numerals) :
    (∀ x y, x < y ↔ (n.write x).length < (n.write y).length ∨
      (n.write x).length = (n.write y).length ∧
        Before (fun b c => n.digit b < n.digit c) (n.write x) (n.write y)) ∧
    (n.alphabet.symbols.Pairwise (· < ·) →
      (∀ x y, (n.write x).length = (n.write y).length →
        (x < y ↔ Before (· < ·) (n.write x) (n.write y))) ∧
      ∀ (k : Nat) (words : List UInt64), (∀ x ∈ words, (n.write x).length = k) →
        (words.Pairwise (· ≤ ·) ↔
          (words.map n.write).Pairwise fun s t => ¬ Before (· < ·) t s)) := by
  refine ⟨fun x y => lt_iff_before (digit_symbol_lt_iff n), fun hascending => ?_⟩
  have hbytes {x y : UInt64} (hlen : (n.write x).length = (n.write y).length) :
      x < y ↔ Before (· < ·) (n.write x) (n.write y) := by
    rw [lt_iff_before (symbol_lt_iff hascending)]
    simp only [hlen, Nat.lt_irrefl, false_or, true_and]
  refine ⟨fun x y => hbytes, fun k words hwords => ?_⟩
  have hpair {x y : UInt64} (hx : x ∈ words) (hy : y ∈ words) :
      x ≤ y ↔ ¬ Before (· < ·) (n.write y) (n.write x) := by
    rw [← hbytes ((hwords y hy).trans (hwords x hx).symm), UInt64.not_lt]
  rw [List.pairwise_map]
  constructor
  · intro h
    exact h.imp_of_mem fun hx hy => (hpair hx hy).mp
  · intro h
    exact h.imp_of_mem fun hx hy => (hpair hx hy).mpr

/-- Words from the smallest to the largest that take two symbols. -/
theorem twoSymbols_in_order :
    (32 < (1023 : UInt64) ↔ (base32.write 32).length < (base32.write 1023).length ∨
      (base32.write 32).length = (base32.write 1023).length ∧
        Before (fun b c => base32.digit b < base32.digit c) (base32.write 32) (base32.write 1023)) ∧
    base32.alphabet.symbols.Pairwise (· < ·) ∧
    (base32.write 32).length = (base32.write 1023).length ∧
    Before (· < ·) (base32.write 32) (base32.write 1023) ∧
    (∀ x ∈ [(32 : UInt64), 41, 42, 1023], (base32.write x).length = 2) ∧
    (([32, 41, 42, 1023] : List UInt64).map base32.write).Pairwise
      fun s t => ¬ Before (· < ·) t s := by
  obtain ⟨hindices, hbytes⟩ := write_in_order base32
  have hascending : base32.alphabet.symbols.Pairwise (· < ·) := by decide +kernel
  have hlen : ∀ x ∈ [(32 : UInt64), 41, 42, 1023], (base32.write x).length = 2 := by
    simp only [List.forall_mem_cons]
    exact ⟨by decide +kernel, by decide +kernel, by decide +kernel, by decide +kernel,
      List.forall_mem_nil _⟩
  obtain ⟨hless, hsorted⟩ := hbytes hascending
  have hsame : (base32.write 32).length = (base32.write 1023).length :=
    (hlen 32 (by decide)).trans (hlen 1023 (by decide)).symm
  exact ⟨hindices 32 1023, hascending, hsame, (hless _ _ hsame).mp (by decide), hlen,
    (hsorted 2 _ hlen).mp (by decide)⟩

/-- The standard alphabet has lower case before upper case, and bytes have it behind. -/
example : standard.write 10 = "a" ∧ standard.write 36 = "A" ∧
    Before (· < ·) (standard.write 36) (standard.write 10) := by decide +kernel

end Numerals

end IdMint
