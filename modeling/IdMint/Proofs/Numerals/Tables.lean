import IdMint.Proofs.Digits
import IdMint.Proofs.Tray

/-! What the tables of an alphabet answer. A looked-up symbol and a looked-up index are the
alphabet's own, and a shift by one symbol multiplies or divides by the radix. -/
namespace IdMint

variable {a : Alphabet} {b : UInt8} {i : Nat}

namespace Alphabet

theorem size_eq_two_pow (a : Alphabet) : a.size = 2 ^ a.bits := by
  rcases a.size_eq with h | h <;> simp [bits, h]

theorem symbol_of_lt (h : i < a.symbols.length) : a.symbol i = a.symbols[i] := by
  simp only [symbol, Nat.mod_eq_of_lt h]

theorem exists_symbol (h : b ∈ a.symbols) : ∃ i, i < a.size ∧ a.symbol i = b := by
  obtain ⟨i, hi, rfl⟩ := List.mem_iff_getElem.mp h
  exact ⟨i, hi, symbol_of_lt hi⟩

theorem symbol_inj {j : Nat} (hi : i < a.size) (hj : j < a.size) (h : a.symbol i = a.symbol j) :
    i = j := by
  have hindex := congrArg a.index? h
  rw [index?_symbol, index?_symbol, Option.some.injEq] at hindex
  rwa [Nat.mod_eq_of_lt hi, Nat.mod_eq_of_lt hj] at hindex

end Alphabet

/-- The low bits of an index count round the tray. -/
theorem Tray.symbol_tray (a : Alphabet) (i : Nat) : a.tray.symbol i = a.symbol i := by
  have hi : i % a.size < a.symbols.length := Nat.mod_lt i a.size_pos
  have hlow : i &&& (a.tray.size - 1) = i % a.size := by
    have hsize : a.tray.size = 2 ^ a.bits := a.size_eq_two_pow
    rw [hsize, Nat.and_two_pow_sub_one_eq_mod, ← a.size_eq_two_pow]
  rw [Tray.symbol, hlow, ← Vector.getElem?_toList, Alphabet.tray,
    toList_ofSymbols (length_symbols_le a), List.getElem?_append_left hi,
    List.getElem?_eq_getElem hi]
  rfl

namespace Numerals.Tables

theorem note_succ (t : Tray) (n : Nat) : note t (n + 1) =
    (note t n).setIfInBounds (t.symbol n).toNat (UInt8.ofNat n) := by
  rw [note, List.range_succ, List.foldl_append]
  rfl

theorem note_symbol {n : Nat} (hn : n ≤ a.size) (hi : i < n) :
    (note a.tray n)[(a.symbol i).toNat]? = some (UInt8.ofNat i) := by
  have hbyte : (a.symbol i).toNat < 256 := (a.symbol i).toNat_lt
  induction n with
  | zero => omega
  | succ n ih =>
    rw [note_succ, Tray.symbol_tray, Vector.getElem?_setIfInBounds]
    by_cases he : i = n
    · subst he
      rw [if_pos rfl, if_pos hbyte]
    · have hne : (a.symbol n).toNat ≠ (a.symbol i).toNat := by
        intro h
        have hsame := Alphabet.symbol_inj hn (by omega) (UInt8.toNat_inj.mp h)
        omega
      rw [if_neg hne]
      exact ih (by omega) (by omega)

theorem note_foreign (h : b ∉ a.symbols) (n : Nat) :
    (note a.tray n)[b.toNat]? = some foreign := by
  have hbyte : b.toNat < 256 := b.toNat_lt
  induction n with
  | zero => simp [note, hbyte]
  | succ n ih =>
    have hne : (a.symbol n).toNat ≠ b.toNat := by
      intro he
      exact h (UInt8.toNat_inj.mp he ▸ a.symbol_mem n)
    rw [note_succ, Tray.symbol_tray, Vector.getElem?_setIfInBounds, if_neg hne]
    exact ih

theorem getElem?_index (t : Tables) (b : UInt8) : t.indices[b.toNat]? = some (t.index b) := by
  have hbyte : b.toNat < 256 := b.toNat_lt
  rw [index, Vector.getElem?_eq_getElem hbyte]

theorem index_symbol (hi : i < a.size) : (ofTray a.tray).index (a.symbol i) = UInt8.ofNat i := by
  have hnote := note_symbol (Nat.le_refl a.size) hi
  exact Option.some.inj ((getElem?_index (ofTray a.tray) (a.symbol i)).symm.trans hnote)

theorem index_foreign (h : b ∉ a.symbols) : (ofTray a.tray).index b = foreign := by
  have hnote := note_foreign h a.size
  exact Option.some.inj ((getElem?_index (ofTray a.tray) b).symm.trans hnote)

/-- No symbol is looked up as a foreign byte. -/
theorem index_ne_foreign (h : b ∈ a.symbols) : (ofTray a.tray).index b ≠ foreign := by
  obtain ⟨i, hi, rfl⟩ := Alphabet.exists_symbol h
  rw [index_symbol hi]
  intro he
  have hval := congrArg UInt8.toNat he
  rw [UInt8.toNat_ofNat', foreign] at hval
  have hsize := a.size_eq
  change i % 256 = 255 at hval
  omega

end Numerals.Tables

namespace Numerals

variable (n : Numerals)

theorem radix_eq : n.radix = 2 ^ n.alphabet.bits := n.alphabet.size_eq_two_pow

theorem bits_pos : 0 < n.alphabet.bits := by
  rw [Alphabet.bits]
  split <;> omega

theorem bits_le : n.alphabet.bits ≤ 6 := by
  rw [Alphabet.bits]
  split <;> omega

theorem toNat_step : n.tables.step.toNat = n.alphabet.bits := by
  have hle := n.bits_le
  have hbits : n.tables.tray.bits = n.alphabet.bits := rfl
  rw [Tables.step, hbits, UInt64.toNat_ofNat', Nat.mod_eq_of_lt (by omega)]

theorem toNat_shiftLeft (w : UInt64) :
    (w <<< n.tables.step).toNat = w.toNat * n.radix % UInt64.size := by
  have hle := n.bits_le
  have hmod : n.alphabet.bits % 64 = n.alphabet.bits := Nat.mod_eq_of_lt (by omega)
  rw [UInt64.toNat_shiftLeft, toNat_step, hmod, Nat.shiftLeft_eq, ← radix_eq]

theorem toNat_shiftRight (w : UInt64) : (w >>> n.tables.step).toNat = w.toNat / n.radix := by
  have hle := n.bits_le
  rw [UInt64.toNat_shiftRight, toNat_step, Nat.mod_eq_of_lt (by omega), Nat.shiftRight_eq_div_pow,
    ← radix_eq]

theorem toNat_and_mask (w : UInt64) : (w &&& n.tables.mask).toNat = w.toNat % n.radix := by
  have hmask : n.tables.mask.toNat = n.radix - 1 := by
    have hle := n.bits_le
    have hradix : n.radix ≤ 2 ^ 6 := by
      rw [radix_eq]
      exact Nat.pow_le_pow_right (by decide) hle
    have hpos : 0 < n.radix := n.alphabet.size_pos
    have hshift : ((1 : UInt64) <<< n.tables.step).toNat = n.radix := by
      rw [toNat_shiftLeft, UInt64.toNat_one, Nat.one_mul]
      exact Nat.mod_eq_of_lt (Nat.lt_of_le_of_lt hradix (by decide))
    rw [Tables.mask, UInt64.toNat_sub_of_le, hshift, UInt64.toNat_one]
    rw [UInt64.le_iff_toNat_le, hshift]
    exact hpos
  rw [UInt64.toNat_and, hmask, radix_eq, Nat.and_two_pow_sub_one_eq_mod]

theorem size_eq_mul : UInt64.size = 2 ^ (64 - n.alphabet.bits) * n.radix := by
  have hle := n.bits_le
  rw [radix_eq, ← Nat.pow_add, Nat.sub_add_cancel (by omega)]

/-- The top bits are clear exactly when the word can take another symbol. -/
theorem shiftRight_eq_zero_iff (w : UInt64) :
    w >>> (64 - n.tables.step) = 0 ↔ w.toNat * n.radix < UInt64.size := by
  have hpos := n.bits_pos
  have hle := n.bits_le
  have hstep : ((64 : UInt64) - n.tables.step).toNat = 64 - n.alphabet.bits := by
    rw [UInt64.toNat_sub_of_le, toNat_step]
    · rfl
    · rw [UInt64.le_iff_toNat_le, toNat_step]
      exact Nat.le_trans hle (by decide)
  rw [← UInt64.toNat_inj, UInt64.toNat_shiftRight, hstep, Nat.mod_eq_of_lt (by omega),
    Nat.shiftRight_eq_div_pow, UInt64.toNat_zero, Nat.div_eq_zero_iff_lt (Nat.two_pow_pos _),
    size_eq_mul]
  exact (Nat.mul_lt_mul_right n.alphabet.size_pos).symm

/-- A word shifted by one symbol takes that symbol's index into its low bits. -/
theorem toNat_shiftLeft_or (w : UInt64) (d : UInt8) (hd : d.toNat < n.radix) :
    (w <<< n.tables.step ||| d.toUInt64).toNat = (w.toNat * n.radix + d.toNat) % UInt64.size := by
  have hpos : 0 < n.radix := n.alphabet.size_pos
  have hdiv : (w.toNat * n.radix + d.toNat) / n.radix = w.toNat := by
    rw [Nat.mul_comm, Nat.mul_add_div hpos, Nat.div_eq_of_lt hd, Nat.add_zero]
  have hmod : (w.toNat * n.radix + d.toNat) % n.radix = d.toNat := by
    rw [Nat.mul_comm, Nat.mul_add_mod, Nat.mod_eq_of_lt hd]
  have hsize : UInt64.size = n.radix * 2 ^ (64 - n.alphabet.bits) := by
    rw [size_eq_mul n, Nat.mul_comm]
  calc (w <<< n.tables.step ||| d.toUInt64).toNat
      = w.toNat * n.radix % UInt64.size ||| d.toNat := by
        rw [UInt64.toNat_or, toNat_shiftLeft, UInt8.toNat_toUInt64]
    _ = n.radix * (w.toNat % 2 ^ (64 - n.alphabet.bits)) ||| d.toNat := by
        rw [hsize, Nat.mul_comm w.toNat, Nat.mul_mod_mul_left]
    _ = n.radix * (w.toNat % 2 ^ (64 - n.alphabet.bits)) + d.toNat := by
        rw [radix_eq] at hd ⊢
        exact (Nat.two_pow_add_eq_or_of_lt hd _).symm
    _ = (w.toNat * n.radix + d.toNat) % UInt64.size := by
        rw [hsize, Nat.mod_mul, hdiv, hmod, Nat.add_comm]

end Numerals

end IdMint
