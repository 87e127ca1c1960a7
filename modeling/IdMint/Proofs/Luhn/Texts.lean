import IdMint.Proofs.Decimal.Reading
import IdMint.Proofs.Luhn.Sum

/-! Check digits of decimal text. Text of digits alone is judged by the digits that spell it, so a
number and its text are judged alike and zeros in front do not count. Any other text is refused at
the first byte that is no digit. -/
namespace IdMint.Luhn

open Text

variable {d n : Nat} {ds : List Nat} {s : String}

def spelled (ds : List Nat) : String := String.ofList (ds.map Decimal.digitChar)

/-- Text of decimal digits, of which there is one at least. -/
def IsNumeral (s : String) : Prop := s ≠ "" ∧ ∀ b ∈ bytes s, isDigit b = true

def zeros (k : Nat) : String := String.ofList (List.replicate k '0')

theorem toList_spelled (ds : List Nat) : (spelled ds).toList = ds.map Decimal.digitChar := by
  rw [spelled, String.toList_ofList]

theorem bytes_spelled (h : ∀ d ∈ ds, d < 10) : bytes (spelled ds) = ds.map Decimal.digitByte :=
  Decimal.bytes_ofList_digits h

theorem length_spelled (ds : List Nat) : (spelled ds).length = ds.length := by
  rw [spelled, String.length_ofList, List.length_map]

theorem spelled_eq_empty_iff : spelled ds = "" ↔ ds = [] := by
  rw [← String.toList_eq_nil_iff, toList_spelled, List.map_eq_nil_iff]

theorem spelled_push (ds : List Nat) (d : Nat) :
    (spelled ds).push (Decimal.digitChar d) = spelled (ds ++ [d]) := by
  rw [spelled, spelled, List.map_append, String.ofList_append]
  rfl

theorem zeros_append_spelled (k : Nat) (ds : List Nat) :
    zeros k ++ spelled ds = spelled (List.replicate k 0 ++ ds) := by
  rw [spelled, spelled, List.map_append, List.map_replicate, String.ofList_append]
  rfl

/-- Text of digits is spelled by them. -/
theorem exists_spelled (h : ∀ b ∈ bytes s, isDigit b = true) :
    ∃ ds, (∀ d ∈ ds, d < 10) ∧ s = spelled ds := by
  refine ⟨(bytes s).map Decimal.digit, ?_, ?_⟩
  · intro d hd
    obtain ⟨b, hb, rfl⟩ := List.mem_map.mp hd
    exact (Decimal.digitByte_digit (h b hb)).1
  · have hgraphic : ∀ b ∈ bytes s, isGraphic b = true := by
      intro b hb
      obtain ⟨hlt, hbyte⟩ := Decimal.digitByte_digit (h b hb)
      exact hbyte ▸ (Decimal.digitByte_props _ hlt).2.2.1
    rw [spelled, List.map_map]
    conv_lhs => rw [← ofAscii_bytes hgraphic, ofAscii]
    congr 1
    apply List.map_congr_left
    intro b hb
    obtain ⟨hlt, hbyte⟩ := Decimal.digitByte_digit (h b hb)
    rw [Function.comp_apply, (Decimal.digitByte_props _ hlt).2.2.2, hbyte]

theorem isNumeral_iff : IsNumeral s ↔ ∃ ds, ds ≠ [] ∧ (∀ d ∈ ds, d < 10) ∧ s = spelled ds := by
  constructor
  · rintro ⟨hne, hdigits⟩
    obtain ⟨ds, hlt, rfl⟩ := exists_spelled hdigits
    exact ⟨ds, fun h => hne (spelled_eq_empty_iff.mpr h), hlt, rfl⟩
  · rintro ⟨ds, hne, hlt, rfl⟩
    refine ⟨fun h => hne (spelled_eq_empty_iff.mp h), ?_⟩
    rw [bytes_spelled hlt]
    exact Decimal.isDigit_digits hlt

section Spelled

variable (hne : ds ≠ []) (h : ∀ d ∈ ds, d < 10)

section Digits

include h

theorem forall_mem_reverse_lt : ∀ d ∈ ds.reverse, d < 10 :=
  fun d hd => h d (List.mem_reverse.mp hd)

theorem forall_mem_zeros_append_lt (k : Nat) : ∀ d ∈ List.replicate k 0 ++ ds, d < 10 :=
  List.forall_mem_append.mpr ⟨List.forall_mem_replicate.mpr (Or.inr (by decide)), h⟩

/-- The digits of a text as they are summed up. -/
theorem reverse_map_digit_spelled :
    (bytes (spelled ds)).reverse.map Decimal.digit = ds.reverse := by
  rw [bytes_spelled h, ← List.map_reverse,
    Decimal.map_digit_digitByte (forall_mem_reverse_lt h)]

theorem isValidText_spelled (hd : d < 10) :
    isValidText (spelled (ds ++ [d])) = (checkDigits ds.reverse == d) := by
  have hall : ∀ c ∈ ds ++ [d], c < 10 :=
    List.forall_mem_append.mpr ⟨h, List.forall_mem_singleton.mpr hd⟩
  have hbytes : (bytes (spelled (ds ++ [d]))).reverse =
      Decimal.digitByte d :: ds.reverse.map Decimal.digitByte := by
    rw [bytes_spelled hall, ← List.map_reverse, List.reverse_append]
    rfl
  have hrest : (ds.reverse.map Decimal.digitByte).all isDigit = true :=
    List.all_eq_true.mpr (Decimal.isDigit_digits (forall_mem_reverse_lt h))
  rw [isValidText, hbytes]
  simp only [hrest, Decimal.map_digit_digitByte (forall_mem_reverse_lt h),
    (Decimal.digitByte_props d hd).1, (Decimal.digitByte_props d hd).2.1, Bool.true_and]

end Digits

include hne h

/-- Digits with one of them told apart from those in front of it, as a check digit is. -/
theorem exists_concat_lt : ∃ es e, ds = es ++ [e] ∧ (∀ d ∈ es, d < 10) ∧ e < 10 := by
  rcases List.eq_nil_or_concat' ds with rfl | ⟨es, e, rfl⟩
  · exact absurd rfl hne
  · obtain ⟨hes, he⟩ := List.forall_mem_append.mp h
    exact ⟨es, e, rfl, hes, he e (List.mem_singleton_self e)⟩

theorem checkDigitText_spelled : checkDigitText (spelled ds) = .ok (checkDigits ds.reverse) := by
  have hfirst : Decimal.firstNonDigit 0 (bytes (spelled ds)) = none := by
    rw [Decimal.firstNonDigit_eq_none_iff, bytes_spelled h]
    exact Decimal.isDigit_digits h
  rw [checkDigitText, if_neg (fun he => hne (spelled_eq_empty_iff.mp he)), hfirst,
    reverse_map_digit_spelled h]

/-- A digit put behind a text is right when it is the check digit of the text. -/
theorem isValidText_push_iff (hd : d < 10) :
    isValidText ((spelled ds).push (Decimal.digitChar d)) = true ↔
      checkDigitText (spelled ds) = .ok d := by
  rw [spelled_push, isValidText_spelled h hd, beq_iff_eq, checkDigitText_spelled hne h,
    Except.ok.injEq]

theorem checkDigitText_zeros_append (k : Nat) :
    checkDigitText (zeros k ++ spelled ds) = checkDigitText (spelled ds) := by
  have hne' : List.replicate k 0 ++ ds ≠ [] := List.append_ne_nil_of_right_ne_nil _ hne
  rw [zeros_append_spelled, checkDigitText_spelled hne' (forall_mem_zeros_append_lt h k),
    checkDigitText_spelled hne h, List.reverse_append, List.reverse_replicate,
    checkDigits_append_zeros]

theorem isValidText_zeros_append (k : Nat) :
    isValidText (zeros k ++ spelled ds) = isValidText (spelled ds) := by
  obtain ⟨es, e, rfl, hes, he⟩ := exists_concat_lt hne h
  rw [zeros_append_spelled, ← List.append_assoc,
    isValidText_spelled (forall_mem_zeros_append_lt hes k) he, isValidText_spelled hes he,
    List.reverse_append, List.reverse_replicate, checkDigits_append_zeros]

end Spelled

theorem checkDigitText_empty : checkDigitText "" = .error .emptyInput := by
  rw [checkDigitText, if_pos rfl]

/-- Text that is not of digits alone is refused for the first byte that is no digit. -/
theorem checkDigitText_eq_invalidDigit (hne : s ≠ "") (h : ¬ IsNumeral s) :
    ∃ b i, Decimal.FirstNonDigit (bytes s) b i ∧
      checkDigitText s = .error (.invalidDigit b i) := by
  have hsome : ¬ ∀ b ∈ bytes s, isDigit b = true := fun hall => h ⟨hne, hall⟩
  obtain ⟨b, i, hfirst⟩ := Decimal.exists_firstNonDigit_iff.mpr hsome
  refine ⟨b, i, hfirst, ?_⟩
  rw [checkDigitText, if_neg hne, Decimal.firstNonDigit_eq_some_iff.mpr hfirst]

theorem isNumeral_of_isValidText (h : isValidText s = true) : IsNumeral s := by
  rw [isValidText] at h
  cases hbytes : (bytes s).reverse with
  | nil =>
    rw [hbytes] at h
    cases h
  | cons last payload =>
    rw [hbytes] at h
    simp only [Bool.and_eq_true, List.all_eq_true] at h
    have hs : bytes s = (last :: payload).reverse := by rw [← hbytes, List.reverse_reverse]
    constructor
    · rintro rfl
      cases hbytes
    · intro b hb
      rw [hs, List.mem_reverse] at hb
      rcases List.mem_cons.mp hb with rfl | hb
      · exact h.1.1
      · exact h.1.2 b hb

theorem digitsOf_of_ne_zero (h : n ≠ 0) : digitsOf n = n % 10 :: digitsOf (n / 10) := by
  rw [digitsOf, dif_neg h]

theorem digitsOf_zero : digitsOf 0 = [] := by
  rw [digitsOf, dif_pos rfl]

/-- The last digit of a number, and those that are left when it is taken off. -/
theorem ofNat_eq_cons (n : Nat) : Digits.ofNat 10 n = n % 10 :: digitsOf (n / 10) := by
  induction n using Nat.strongRecOn with
  | _ n ih =>
    by_cases h : 10 ≤ n
    · rw [Digits.ofNat_of_le (by decide) h, ih (n / 10) (by omega),
        digitsOf_of_ne_zero (n := n / 10) (by omega)]
    · rw [Digits.ofNat_of_lt (by omega), Nat.mod_eq_of_lt (by omega), Nat.div_eq_of_lt (by omega),
        digitsOf_zero]

theorem digitsOf_lt : ∀ d ∈ digitsOf n, d < 10 := by
  by_cases h : n = 0
  · rw [h, digitsOf_zero]
    exact List.forall_mem_nil _
  · rw [digitsOf_of_ne_zero h, ← ofNat_eq_cons]
    exact fun d hd => Decimal.digit_lt_of_mem hd

/-- Zero is written with a digit that does not count. -/
theorem checkDigits_ofNat (n : Nat) :
    checkDigits (Digits.ofNat 10 n) = checkDigits (digitsOf n) := by
  by_cases h : n = 0
  · rw [h, digitsOf_zero, Digits.ofNat_of_lt (by decide)]
    exact checkDigits_append_zeros [] 1
  · rw [digitsOf_of_ne_zero h, ofNat_eq_cons]

theorem checkDigitText_text (n : Nat) :
    checkDigitText (Decimal.text n) = .ok (checkDigits (digitsOf n)) := by
  have hne : (Digits.ofNat 10 n).reverse ≠ [] := by simp [Digits.ofNat_ne_nil]
  have htext := checkDigitText_spelled hne Decimal.digit_lt_of_mem_reverse
  rwa [List.reverse_reverse, checkDigits_ofNat] at htext

theorem isValidText_text (n : Nat) :
    isValidText (Decimal.text n) = (checkDigits (digitsOf (n / 10)) == n % 10) := by
  have htext : Decimal.text n = spelled ((digitsOf (n / 10)).reverse ++ [n % 10]) := by
    rw [Decimal.text, ofNat_eq_cons, List.reverse_cons, spelled]
  rw [htext, isValidText_spelled (forall_mem_reverse_lt digitsOf_lt) (Nat.mod_lt n (by decide)),
    List.reverse_reverse]

/-- A word and its decimal text have one check digit and are valid alike. The check digit of text of
digits is the one digit that makes it valid when put behind it, zeros in front change neither it nor
whether the text is valid, and the sum it is taken from is not cut unless the text is very long. Any
other text has no check digit, for the first byte that is no digit if there is one, and is not
valid. -/
theorem paths_agree :
    (∀ n : UInt64, checkDigitText (Decimal.text n.toNat) = .ok (checkDigit n) ∧
      isValidText (Decimal.text n.toNat) = isValid n) ∧
    (∀ t, IsNumeral t →
      (∃ d < 10, checkDigitText t = .ok d) ∧
      (∀ d < 10, checkDigitText t = .ok d ↔
        isValidText (t.push (Decimal.digitChar d)) = true) ∧
      (∀ k, checkDigitText (zeros k ++ t) = checkDigitText t ∧
        isValidText (zeros k ++ t) = isValidText t) ∧
      (t.length ≤ capacity → (sum true ((bytes t).reverse.map Decimal.digit)).toNat =
        total true ((bytes t).reverse.map Decimal.digit))) ∧
    ∀ s, ¬ IsNumeral s →
      (checkDigitText s = .error .emptyInput ↔ s = "") ∧
      (s ≠ "" → ∃ b i, Decimal.FirstNonDigit (bytes s) b i ∧
        checkDigitText s = .error (.invalidDigit b i)) ∧
      isValidText s = false := by
  refine ⟨fun n => ⟨checkDigitText_text n.toNat, ?_⟩, fun t ht => ?_, fun s hs => ⟨?_, ?_, ?_⟩⟩
  · rw [isValidText_text, isValid, checkDigit, UInt64.toNat_div]
    rfl
  · obtain ⟨ds, hne, hlt, rfl⟩ := isNumeral_iff.mp ht
    refine ⟨⟨_, checkDigits_lt ds.reverse, checkDigitText_spelled hne hlt⟩,
      fun d hd => (isValidText_push_iff hne hlt hd).symm,
      fun k => ⟨checkDigitText_zeros_append hne hlt k, isValidText_zeros_append hne hlt k⟩, ?_⟩
    intro hlength
    rw [reverse_map_digit_spelled hlt]
    apply toNat_sum_of_length_le (forall_mem_reverse_lt hlt)
    rwa [List.length_reverse, ← length_spelled]
  · constructor
    · intro h
      by_contra hne
      obtain ⟨b, i, _, hinvalid⟩ := checkDigitText_eq_invalidDigit hne hs
      rw [hinvalid] at h
      cases h
    · rintro rfl
      exact checkDigitText_empty
  · exact fun hne => checkDigitText_eq_invalidDigit hne hs
  · rw [Bool.eq_false_iff]
    exact fun hvalid => hs (isNumeral_of_isValidText hvalid)

theorem tenDigits_agree :
    checkDigitText (Decimal.text 7992739871) = .ok (checkDigit 7992739871) ∧
    IsNumeral "7992739871" ∧ checkDigitText "7992739871" = .ok 3 ∧
    isValidText ("7992739871".push '3') = true ∧
    checkDigitText (zeros 3 ++ "7992739871") = .ok 3 ∧ "7992739871".length ≤ capacity ∧
    (sum true ((bytes "7992739871").reverse.map Decimal.digit)).toNat =
      total true ((bytes "7992739871").reverse.map Decimal.digit) ∧
    ¬ IsNumeral "12a4" ∧ (∃ b i, Decimal.FirstNonDigit (bytes "12a4") b i ∧
      checkDigitText "12a4" = .error (.invalidDigit b i)) ∧ isValidText "12a4" = false := by
  have hdigits : IsNumeral "7992739871" := ⟨by decide, by decide +kernel⟩
  have hcheck : checkDigitText "7992739871" = .ok 3 := by decide +kernel
  have hletter : ¬ IsNumeral "12a4" := fun h => absurd (h.2 0x61 (by decide +kernel)) (by decide)
  obtain ⟨hwords, htexts, hothers⟩ := paths_agree
  obtain ⟨_, hpush, hzeros, hsum⟩ := htexts _ hdigits
  exact ⟨(hwords 7992739871).1, hdigits, hcheck, (hpush 3 (by decide)).mp hcheck,
    (hzeros 3).1.trans hcheck, by decide, hsum (by decide), hletter,
    (hothers _ hletter).2.1 (by decide), (hothers _ hletter).2.2⟩

end IdMint.Luhn
