import IdMint.Proofs.Decimal.Reading
import IdMint.Proofs.Numerals.RoundTrip
import IdMint.TimeId

/-! Reading the texts of an identifier. What has been written, in decimal or over an alphabet, is
read back. A decimal text is accepted if it is a number that is a word, and a refusal tells what is
wrong with it. The byte that a refusal blames is searched for from the very front, so a plus sign
that was accepted is blamed in place of what follows it. -/
namespace IdMint.TimeId

open Text
open Decimal (Spells Overflows FirstNonDigit FirstRejected SignAhead)

variable {s : String} {id : TimeId} {b : UInt8} {i : Nat}

@[simp] theorem ofDecimal_decimal (id : TimeId) : ofDecimal id.decimal = .ok id := by
  rw [ofDecimal, decimal, Decimal.read_text id.raw.toNat_lt, UInt64.ofNat_toNat]

@[simp] theorem ofNumeral_numeral (n : Numerals) (id : TimeId) :
    ofNumeral n (id.numeral n) = .ok id := by
  rw [ofNumeral, numeral, Numerals.read_write]
  rfl

theorem toList_numeral (n : Numerals) (id : TimeId) :
    (id.numeral n).toList = (n.numeral id.raw).map Char.ofUInt8 := by
  rw [numeral, Numerals.write, Numerals.written_writeInto, Text.ofAscii, String.toList_ofList]

/-- A refusal passes on why no word was read. Where that is a byte, there is one to be found. -/
theorem ofDecimal_cases (s : String) :
    (∃ word, Decimal.readBytes (bytes s) = .ok word ∧ ofDecimal s = .ok ⟨word⟩) ∨
    (Decimal.readBytes (bytes s) = .error .empty ∧ ofDecimal s = .error .emptyInput) ∨
    (Decimal.readBytes (bytes s) = .error .overflow ∧ ofDecimal s = .error .valueTooLarge) ∨
    (Decimal.readBytes (bytes s) = .error .notDigit ∧ ∃ b i,
      Decimal.firstNonDigit 0 (bytes s) = some (b, i) ∧
      ofDecimal s = .error (.invalidDigit b i)) := by
  cases hread : Decimal.readBytes (bytes s) with
  | ok word => exact Or.inl ⟨word, rfl, by simp [ofDecimal, Decimal.read, hread]⟩
  | error fault =>
    cases fault with
    | empty => simp [ofDecimal, Decimal.read, hread]
    | overflow => simp [ofDecimal, Decimal.read, hread]
    | notDigit =>
      obtain ⟨_, _, hdigits⟩ := Decimal.readBytes_eq_notDigit_iff.mp hread
      have hsome : ¬ ∀ d ∈ bytes s, isDigit d = true := by
        intro hall
        obtain ⟨sign, hsign⟩ := Decimal.exists_sign (bytes s)
        exact hdigits fun d hd => hall d (hsign ▸ List.mem_append_right sign hd)
      obtain ⟨b, i, hfirst⟩ := Decimal.exists_firstNonDigit_iff.mpr hsome
      have hfound := Decimal.firstNonDigit_eq_some_iff.mpr hfirst
      right; right; right
      exact ⟨rfl, b, i, hfound, by simp [ofDecimal, Decimal.read, hread, hfound]⟩

theorem ofDecimal_eq_ok_iff : ofDecimal s = .ok id ↔ Spells (bytes s) id.raw.toNat := by
  rw [← Decimal.readBytes_eq_ok_iff]
  rcases ofDecimal_cases s with
    ⟨word, hread, hof⟩ | ⟨hread, hof⟩ | ⟨hread, hof⟩ | ⟨hread, _, _, _, hof⟩
  · rw [hread, hof]
    constructor <;> rintro ⟨⟩ <;> rfl
  all_goals simp [hread, hof]

theorem ofDecimal_eq_emptyInput_iff : ofDecimal s = .error .emptyInput ↔ s = "" := by
  rw [← Numerals.bytes_eq_nil_iff, ← Decimal.readBytes_eq_empty_iff]
  rcases ofDecimal_cases s with
    ⟨_, hread, hof⟩ | ⟨hread, hof⟩ | ⟨hread, hof⟩ | ⟨hread, _, _, _, hof⟩ <;> simp [hread, hof]

theorem ofDecimal_eq_valueTooLarge_iff :
    ofDecimal s = .error .valueTooLarge ↔ Overflows (bytes s) := by
  rw [← Decimal.readBytes_eq_overflow_iff]
  rcases ofDecimal_cases s with
    ⟨_, hread, hof⟩ | ⟨hread, hof⟩ | ⟨hread, hof⟩ | ⟨hread, _, _, _, hof⟩ <;> simp [hread, hof]

/-- A byte is blamed if one has no place in a number and is met before the number is too large. The
one that is blamed is the first that is no digit. -/
theorem ofDecimal_eq_invalidDigit_iff : ofDecimal s = .error (.invalidDigit b i) ↔
    ¬ Overflows (bytes s) ∧ (∃ c j, FirstRejected (bytes s) c j) ∧ FirstNonDigit (bytes s) b i := by
  have hnotDigit : Decimal.readBytes (bytes s) = .error .notDigit ↔
      ¬ Overflows (bytes s) ∧ ∃ c j, FirstRejected (bytes s) c j := by
    rw [Decimal.readBytes_eq_notDigit_iff, Decimal.exists_firstRejected_iff]
    refine and_iff_right_of_imp ?_
    rintro ⟨_, hdigits⟩ hnil
    rw [hnil] at hdigits
    exact hdigits (List.forall_mem_nil _)
  rw [← and_assoc, ← hnotDigit, ← Decimal.firstNonDigit_eq_some_iff]
  rcases ofDecimal_cases s with
    ⟨_, hread, hof⟩ | ⟨hread, hof⟩ | ⟨hread, hof⟩ | ⟨hread, c, j, hfound, hof⟩
  · simp [hread, hof]
  · simp [hread, hof]
  · simp [hread, hof]
  · simp [hread, hof, hfound]

/-- The decimal form is read exactly as a number, and what is refused is nothing at all, too large a
number, or else has a byte that is no digit. The form of an identifier gives that identifier. -/
theorem ofDecimal_exact :
    (∀ s, (∀ id, ofDecimal s = .ok id ↔ Spells (bytes s) id.raw.toNat) ∧
      ((∃ id, ofDecimal s = .ok id) ↔ ∃ n < UInt64.size, Spells (bytes s) n) ∧
      (ofDecimal s = .error .emptyInput ↔ s = "") ∧
      (ofDecimal s = .error .valueTooLarge ↔ Overflows (bytes s)) ∧
      ∀ e, ofDecimal s = .error e → s ≠ "" → ¬ Overflows (bytes s) →
        ∃ b i, e = .invalidDigit b i) ∧
    ∀ id : TimeId, ofDecimal id.decimal = .ok id := by
  refine ⟨?_, ofDecimal_decimal⟩
  intro s
  refine ⟨fun id => ofDecimal_eq_ok_iff, ?_, ofDecimal_eq_emptyInput_iff,
    ofDecimal_eq_valueTooLarge_iff, ?_⟩
  · constructor
    · rintro ⟨id, h⟩
      exact ⟨id.raw.toNat, id.raw.toNat_lt, ofDecimal_eq_ok_iff.mp h⟩
    · rintro ⟨n, hlt, h⟩
      refine ⟨⟨UInt64.ofNat n⟩, ofDecimal_eq_ok_iff.mpr ?_⟩
      rwa [UInt64.toNat_ofNat_of_lt' hlt]
  · intro e h hs hlarge
    rcases ofDecimal_cases s with
      ⟨_, _, hof⟩ | ⟨_, hof⟩ | ⟨_, hof⟩ | ⟨_, b, i, _, hof⟩
    · cases hof.symm.trans h
    · exact absurd (ofDecimal_eq_emptyInput_iff.mp hof) hs
    · exact absurd (ofDecimal_eq_valueTooLarge_iff.mp hof) hlarge
    · cases hof.symm.trans h
      exact ⟨b, i, rfl⟩

/-- The byte that is blamed lies at the offset that is told. It is the one that has no place in a
number, unless a plus sign comes first and something follows: then the sign is blamed. -/
theorem blame_exact (s : String) (b : UInt8) (i : Nat) :
    (ofDecimal s = .error (.invalidDigit b i) ↔ ¬ Overflows (bytes s) ∧
      (∃ c j, FirstRejected (bytes s) c j) ∧ FirstNonDigit (bytes s) b i) ∧
    (FirstNonDigit (bytes s) b i → (FirstRejected (bytes s) b i ↔ ¬ SignAhead (bytes s))) ∧
    (SignAhead (bytes s) → (FirstNonDigit (bytes s) b i ↔ b = 0x2b ∧ i = 0)) := by
  have hsign : SignAhead (bytes s) → (FirstNonDigit (bytes s) b i ↔ b = 0x2b ∧ i = 0) := by
    rintro ⟨c, cs, hbytes⟩
    rw [hbytes]
    exact Decimal.firstNonDigit_cons_of_not_digit rfl
  refine ⟨ofDecimal_eq_invalidDigit_iff, ?_, hsign⟩
  intro hfirst
  constructor
  · intro hrejected hahead
    have hpos := Decimal.pos_of_firstRejected hahead hrejected
    have hzero := ((hsign hahead).mp hfirst).2
    omega
  · intro hahead
    exact (Decimal.firstRejected_of_not_signAhead hahead).mpr hfirst

/-- The letter is at fault and the sign in front is not, but it is the sign that is blamed. -/
theorem accepted_sign_blamed :
    ofDecimal "+1x" = .error (.invalidDigit 0x2b 0) ∧
    FirstRejected (bytes "+1x") 0x78 2 ∧ ¬ FirstRejected (bytes "+1x") 0x2b 0 := by
  refine ⟨by decide +kernel, ⟨[0x2b], 1, by decide +kernel, rfl, by decide +kernel⟩, ?_⟩
  intro h
  exact Nat.lt_irrefl 0 (Decimal.pos_of_firstRejected ⟨0x31, [0x78], by decide +kernel⟩ h)

end IdMint.TimeId
