import IdMint.Proofs.Luhn.Texts

/-! Words with a check digit at the end. Appended digits make valid words and valid text, taking the
last digit off again leaves the word, and no other words are valid. -/
namespace IdMint.Luhn

variable {x m n : UInt64}

theorem checkDigit_lt (x : UInt64) : checkDigit x < 10 := checkDigits_lt _

theorem word?_eq_some_iff {k : Nat} : word? k = some m ↔ m.toNat = k := by
  rw [word?]
  constructor
  · intro h
    split at h
    · rename_i hlt
      cases h
      exact UInt64.toNat_ofNat_of_lt' hlt
    · cases h
  · rintro rfl
    rw [if_pos m.toNat_lt_size, UInt64.ofNat_toNat]

/-- A word with its check digit is a word if there is room for the digit. -/
theorem append_eq_some_iff : append x = some m ↔ m.toNat = x.toNat * 10 + checkDigit x := by
  simp only [append, Option.bind_eq_some_iff, word?_eq_some_iff]
  constructor
  · rintro ⟨tens, htens, hm⟩
    rw [hm, htens]
  · intro hm
    have hword := m.toNat_lt_size
    have hlt : x.toNat * 10 < UInt64.size := by omega
    have htens := UInt64.toNat_ofNat_of_lt' hlt
    exact ⟨UInt64.ofNat (x.toNat * 10), htens, by rw [htens, hm]⟩

theorem append_eq_none_iff : append x = none ↔ UInt64.size ≤ x.toNat * 10 + checkDigit x := by
  rw [Option.eq_none_iff_forall_ne_some]
  simp only [ne_eq, append_eq_some_iff]
  constructor
  · intro h
    by_contra hlt
    exact h (UInt64.ofNat (x.toNat * 10 + checkDigit x))
      (UInt64.toNat_ofNat_of_lt' (Nat.lt_of_not_le hlt))
  · intro h m hm
    exact Nat.not_le_of_lt m.toNat_lt (hm ▸ h)

theorem toNat_div_ten (n : UInt64) : (n / 10).toNat = n.toNat / 10 := UInt64.toNat_div n 10

theorem toNat_div_append (h : append x = some m) : m.toNat / 10 = x.toNat := by
  have hm := append_eq_some_iff.mp h
  have hc := checkDigit_lt x
  omega

theorem toNat_mod_append (h : append x = some m) : m.toNat % 10 = checkDigit x := by
  have hm := append_eq_some_iff.mp h
  have hc := checkDigit_lt x
  omega

theorem div_append (h : append x = some m) : m / 10 = x := by
  apply UInt64.toNat_inj.mp
  rw [toNat_div_ten]
  exact toNat_div_append h

theorem isValidText_append (h : append x = some m) : isValidText (Decimal.text m.toNat) = true := by
  rw [isValidText_text, toNat_div_append h, toNat_mod_append h, checkDigit]
  exact beq_self_eq_true _

theorem toList_append (h : append x = some m) (hx : x ≠ 0) :
    (Decimal.text m.toNat).toList.dropLast = (Decimal.text x.toNat).toList := by
  have hpos : x.toNat ≠ 0 := fun he => hx (UInt64.toNat_inj.mp he)
  rw [Decimal.toList_text, Decimal.toList_text, ofNat_eq_cons m.toNat, toNat_div_append h,
    ofNat_eq_cons x.toNat, ← digitsOf_of_ne_zero hpos, List.reverse_cons, List.map_append,
    List.map_singleton, List.dropLast_concat]

theorem isValid_iff_append : isValid n = true ↔ append (n / 10) = some n := by
  rw [isValid, beq_iff_eq, append_eq_some_iff, toNat_div_ten]
  omega

theorem isValid_append (h : append x = some m) : isValid m = true := by
  rw [isValid_iff_append, div_append h]
  exact h

/-- The digits of a word are too few for their sum to be cut. -/
theorem length_digits_le (n : UInt64) : (Digits.ofNat 10 n.toNat).length ≤ capacity := by
  have hlt : n.toNat < 10 ^ 20 := Nat.lt_trans n.toNat_lt (by decide)
  have hwidth := (Digits.width_le_iff (by decide) (by decide)).mpr hlt
  exact Nat.le_trans hwidth (by decide)

/-- A word is valid when its digits, the check digit among them, add up to a multiple of ten. -/
theorem isValid_iff_total : isValid n = true ↔ total false (Digits.ofNat 10 n.toNat) % 10 = 0 := by
  have hlength := length_digits_le n
  rw [ofNat_eq_cons, List.length_cons] at hlength
  rw [isValid, beq_iff_eq, checkDigit, toNat_div_ten,
    checkDigits_eq_iff digitsOf_lt (Nat.le_of_succ_le hlength) (Nat.mod_lt _ (by decide)),
    ← ofNat_eq_cons]

/-- A check digit can be appended to the words that leave room for it, and what is appended to a
word leaves that word when it is taken off again. The words made so are the valid ones, and those
are the words whose weighted sum is a multiple of ten. -/
theorem append_enumerates_valid :
    (∀ x, (∃ m, append x = some m) ↔ 10 * x.toNat + checkDigit x < UInt64.size) ∧
    (∀ x m, append x = some m →
      m.toNat = 10 * x.toNat + checkDigit x ∧ m / 10 = x ∧ isValid m = true) ∧
    (∀ n, isValid n = true ↔ append (n / 10) = some n) ∧
    ∀ n, isValid n = true ↔ total false (Digits.ofNat 10 n.toNat) % 10 = 0 := by
  refine ⟨fun x => ?_, fun x m h => ⟨?_, div_append h, isValid_append h⟩,
    fun n => isValid_iff_append, fun n => isValid_iff_total⟩
  · rw [← Option.ne_none_iff_exists', ne_eq, append_eq_none_iff, Nat.not_le, Nat.mul_comm]
  · rw [Nat.mul_comm]
    exact append_eq_some_iff.mp h

/-- The last word that leaves room for its check digit, and the first that leaves none. -/
theorem lastPayload_appended :
    append 1844674407370955161 = some 18446744073709551611 ∧
    (18446744073709551611 : UInt64) / 10 = 1844674407370955161 ∧
    isValid 18446744073709551611 = true ∧
    ¬ ∃ m, append 1844674407370955162 = some m := by
  have hlast : append 1844674407370955161 = some 18446744073709551611 := by decide +kernel
  obtain ⟨hroom, hmade, _, _⟩ := append_enumerates_valid
  obtain ⟨_, hdiv, hvalid⟩ := hmade _ _ hlast
  refine ⟨hlast, hdiv, hvalid, ?_⟩
  rw [hroom]
  decide +kernel

end IdMint.Luhn
