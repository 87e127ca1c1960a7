import IdMint.Proofs.Decimal
import Mathlib.Data.List.TakeWhile
import Mathlib.Tactic.ByContra

/-! What a reader of decimal words accepts. A number is made of digits, and a plus sign may stand in
front of them. The word read so far is the number of the digits so far, so a text is refused at the
first digit that makes it larger than any word, or else for the first byte that has no place in a
number. The text of a word is read as that word. -/
namespace IdMint.Decimal

open Text

variable {b c d : UInt8} {bs cs done : List UInt8} {word : UInt64} {i j n : Nat}

/-- Bytes as they are, or behind a plus sign. -/
def Signed (bs cs : List UInt8) : Prop := bs = cs ∨ bs = 0x2b :: cs

/-- The bytes are those of a number: one digit or more, behind a plus sign or without one. -/
def Spells (bs : List UInt8) (n : Nat) : Prop :=
  ∃ ds, Signed bs ds ∧ ds ≠ [] ∧ (∀ d ∈ ds, isDigit d = true) ∧ number ds = n

/-- Digits come, behind a plus sign or without one, that are too many for a word. Anything may stand
behind them. -/
def Overflows (bs : List UInt8) : Prop :=
  ∃ ds rest, Signed bs (ds ++ rest) ∧ (∀ d ∈ ds, isDigit d = true) ∧ UInt64.size ≤ number ds

/-- The bytes without a plus sign in front, provided that something follows it. -/
def unsigned : List UInt8 → List UInt8
  | [] => []
  | b :: bs => if b = 0x2b ∧ bs ≠ [] then bs else b :: bs

theorem signed_unsigned (bs : List UInt8) : Signed bs (unsigned bs) := by
  cases bs with
  | nil => exact Or.inl rfl
  | cons b bs =>
    by_cases h : b = 0x2b ∧ bs ≠ []
    · obtain ⟨rfl, hne⟩ := h
      exact Or.inr (by rw [unsigned, if_pos ⟨rfl, hne⟩])
    · exact Or.inl (by rw [unsigned, if_neg h])

theorem unsigned_ne_nil (h : bs ≠ []) : unsigned bs ≠ [] := by
  intro hnil
  rcases hnil ▸ signed_unsigned bs with rfl | rfl
  · exact h rfl
  · cases hnil

/-- A sign is told from a digit, so where a digit follows there is one way only to take a sign off.
-/
theorem unsigned_of_signed (h : Signed bs (d :: cs)) (hd : isDigit d = true) :
    unsigned bs = d :: cs := by
  rcases h with rfl | rfl
  · have hplus : ¬ (d = 0x2b ∧ cs ≠ []) := by
      rintro ⟨rfl, _⟩
      exact absurd hd (by decide)
    rw [unsigned, if_neg hplus]
  · rw [unsigned, if_pos ⟨rfl, List.cons_ne_nil d cs⟩]

theorem spells_iff : Spells bs n ↔
    bs ≠ [] ∧ (∀ d ∈ unsigned bs, isDigit d = true) ∧ number (unsigned bs) = n := by
  constructor
  · rintro ⟨ds, hsigned, hne, hdigits, hnumber⟩
    obtain ⟨d, cs, rfl⟩ := List.exists_cons_of_ne_nil hne
    rw [unsigned_of_signed hsigned (hdigits d (List.mem_cons_self ..))]
    refine ⟨?_, hdigits, hnumber⟩
    rintro rfl
    rcases hsigned with h | h <;> cases h
  · rintro ⟨hne, hdigits, hnumber⟩
    exact ⟨unsigned bs, signed_unsigned bs, unsigned_ne_nil hne, hdigits, hnumber⟩

theorem overflows_iff :
    Overflows bs ↔ UInt64.size ≤ number ((unsigned bs).takeWhile isDigit) := by
  constructor
  · rintro ⟨ds, rest, hsigned, hdigits, hlarge⟩
    cases ds with
    | nil => exact absurd hlarge (by decide)
    | cons d ds =>
      have hunsigned : unsigned bs = d :: ds ++ rest :=
        unsigned_of_signed hsigned (hdigits d (List.mem_cons_self ..))
      rw [hunsigned, List.takeWhile_append_of_pos hdigits]
      exact Nat.le_trans hlarge (number_le_append ..)
  · intro hlarge
    refine ⟨(unsigned bs).takeWhile isDigit, (unsigned bs).dropWhile isDigit, ?_, ?_, hlarge⟩
    · rw [List.takeWhile_append_dropWhile]
      exact signed_unsigned bs
    · exact List.all_eq_true.mp List.all_takeWhile

/-- A digit makes the word read so far the number of one byte more, if that is a word. -/
theorem toNat_next (hw : word.toNat = number done) (hlt : number (done ++ [b]) < UInt64.size) :
    (word * 10 + UInt64.ofNat (digit b)).toNat = number (done ++ [b]) := by
  have hnext : word.toNat * 10 + digit b = number (done ++ [b]) := by
    rw [number_concat, hw]
  have hword : (word * 10 + UInt64.ofNat (digit b)).toNat =
      (word.toNat * 10 + digit b) % UInt64.size := by
    rw [UInt64.toNat_add, UInt64.toNat_mul, UInt64.toNat_ofNat', Nat.mod_add_mod, Nat.add_mod_mod]
    rfl
  rw [hword, hnext, Nat.mod_eq_of_lt hlt]

/-- A reader takes in the digits in front. If their number is no word, what stands behind them is
not looked at, and otherwise nothing may stand there. -/
theorem readFrom_eq (hw : word.toNat = number done) : readFrom word bs =
    if UInt64.size ≤ number (done ++ bs.takeWhile isDigit) then .error .overflow
    else if bs.all isDigit then .ok (UInt64.ofNat (number (done ++ bs)))
    else .error .notDigit := by
  induction bs generalizing word done with
  | nil =>
    have hlt : number done < UInt64.size := hw ▸ word.toNat_lt
    rw [List.takeWhile_nil, List.append_nil, if_neg (Nat.not_le.mpr hlt), List.all_nil, if_pos rfl,
      readFrom, ← hw, UInt64.ofNat_toNat]
  | cons b bs ih =>
    by_cases hb : isDigit b = true
    · have hassoc (cs : List UInt8) : done ++ b :: cs = done ++ [b] ++ cs := by simp
      have hnext : word.toNat * 10 + digit b = number (done ++ [b]) := by
        rw [number_concat, hw]
      rw [List.takeWhile_cons_of_pos hb, List.all_cons, hb, Bool.true_and,
        hassoc (bs.takeWhile isDigit), hassoc bs, readFrom, if_pos hb, hnext]
      by_cases hlt : number (done ++ [b]) < UInt64.size
      · rw [if_neg (Nat.not_le.mpr hlt), ih (toNat_next hw hlt)]
      · -- what has been read is too large, and more digits make it no smaller
        have hle := number_le_append (done ++ [b]) (bs.takeWhile isDigit)
        rw [if_pos (by omega), if_pos (by omega)]
    · have hlt : number done < UInt64.size := hw ▸ word.toNat_lt
      rw [List.takeWhile_cons_of_neg hb, List.append_nil, if_neg (Nat.not_le.mpr hlt), readFrom,
        if_neg hb, if_neg (by simp [hb])]

theorem readBytes_eq (h : bs ≠ []) : readBytes bs =
    if UInt64.size ≤ number ((unsigned bs).takeWhile isDigit) then .error .overflow
    else if (unsigned bs).all isDigit then .ok (UInt64.ofNat (number (unsigned bs)))
    else .error .notDigit := by
  obtain ⟨b, bs, rfl⟩ := List.exists_cons_of_ne_nil h
  have hzero : (0 : UInt64).toNat = number [] := rfl
  have hread : readBytes (b :: bs) = readFrom 0 (unsigned (b :: bs)) := by
    rw [readBytes, unsigned]
    split <;> rfl
  rw [hread, readFrom_eq hzero]
  rfl

theorem readBytes_eq_empty_iff : readBytes bs = .error .empty ↔ bs = [] := by
  constructor
  · intro h
    by_contra hne
    rw [readBytes_eq hne] at h
    split at h
    · cases h
    · split at h <;> cases h
  · rintro rfl
    rfl

theorem readBytes_eq_overflow_iff : readBytes bs = .error .overflow ↔ Overflows bs := by
  rw [overflows_iff]
  by_cases hne : bs = []
  · subst hne
    exact iff_of_false (by simp [readBytes]) (by decide)
  · rw [readBytes_eq hne]
    by_cases hlarge : UInt64.size ≤ number ((unsigned bs).takeWhile isDigit)
    · simp [hlarge]
    · rw [if_neg hlarge]
      refine iff_of_false ?_ hlarge
      split <;> simp

/-- A number is read if it is a word, and nothing else is. -/
theorem readBytes_eq_ok_iff : readBytes bs = .ok word ↔ Spells bs word.toNat := by
  rw [spells_iff]
  by_cases hne : bs = []
  · subst hne
    exact iff_of_false (by simp [readBytes]) (by simp)
  · rw [readBytes_eq hne]
    by_cases hall : ∀ d ∈ unsigned bs, isDigit d = true
    · rw [List.takeWhile_eq_self_iff.mpr hall, if_pos (List.all_eq_true.mpr hall)]
      by_cases hlarge : UInt64.size ≤ number (unsigned bs)
      · rw [if_pos hlarge]
        refine iff_of_false (by simp) ?_
        rintro ⟨_, _, hnumber⟩
        rw [hnumber] at hlarge
        exact Nat.not_le_of_lt word.toNat_lt hlarge
      · rw [if_neg hlarge]
        have hlt := Nat.not_le.mp hlarge
        constructor
        · intro h
          cases h
          exact ⟨hne, hall, (UInt64.toNat_ofNat_of_lt' hlt).symm⟩
        · rintro ⟨_, _, hnumber⟩
          rw [hnumber, UInt64.ofNat_toNat]
    · have hsome : ¬ (unsigned bs).all isDigit = true := by rwa [List.all_eq_true]
      rw [if_neg hsome]
      refine iff_of_false ?_ fun h => hall h.2.1
      split <;> simp

theorem readBytes_eq_notDigit_iff : readBytes bs = .error .notDigit ↔
    bs ≠ [] ∧ ¬ Overflows bs ∧ ¬ ∀ d ∈ unsigned bs, isDigit d = true := by
  rw [overflows_iff, ← List.all_eq_true]
  by_cases hne : bs = []
  · subst hne
    exact iff_of_false (by simp [readBytes]) fun h => h.1 rfl
  · rw [readBytes_eq hne]
    by_cases hlarge : UInt64.size ≤ number ((unsigned bs).takeWhile isDigit)
    · simp [hlarge]
    · by_cases hall : (unsigned bs).all isDigit = true
      · simp [hlarge, hall]
      · simp [hne, hlarge, hall]

theorem text_ne_nil (n : Nat) : bytes (text n) ≠ [] := by
  rw [bytes_text]
  simp [Digits.ofNat_ne_nil]

theorem spells_text (n : Nat) : Spells (bytes (text n)) n :=
  ⟨bytes (text n), Or.inl rfl, text_ne_nil n, fun _ hb => isDigit_of_mem_bytes_text hb,
    number_bytes_text n⟩

/-- The decimal text of a word is read as that word. -/
theorem read_text (h : n < UInt64.size) : read (text n) = .ok (UInt64.ofNat n) := by
  apply readBytes_eq_ok_iff.mpr
  rw [UInt64.toNat_ofNat_of_lt' h]
  exact spells_text n

/-- At an offset lies the first byte that is no digit. -/
def FirstNonDigit (bs : List UInt8) (b : UInt8) (i : Nat) : Prop :=
  bs[i]? = some b ∧ isDigit b = false ∧ ∀ d ∈ bs.take i, isDigit d = true

instance : Decidable (FirstNonDigit bs b i) := inferInstanceAs (Decidable (_ ∧ _ ∧ _))

theorem firstNonDigit_cons_of_digit (h : isDigit c = true) :
    FirstNonDigit (c :: bs) b i ↔ ∃ k, i = k + 1 ∧ FirstNonDigit bs b k := by
  constructor
  · rintro ⟨hb, hdigit, hbefore⟩
    cases i with
    | zero =>
      obtain rfl : c = b := Option.some.inj hb
      rw [h] at hdigit
      cases hdigit
    | succ k => exact ⟨k, rfl, hb, hdigit, (List.forall_mem_cons.mp hbefore).2⟩
  · rintro ⟨k, rfl, hb, hdigit, hbefore⟩
    exact ⟨hb, hdigit, List.forall_mem_cons.mpr ⟨h, hbefore⟩⟩

theorem firstNonDigit_cons_of_not_digit (h : isDigit c = false) :
    FirstNonDigit (c :: bs) b i ↔ b = c ∧ i = 0 := by
  constructor
  · rintro ⟨hb, hdigit, hbefore⟩
    cases i with
    | zero => exact ⟨(Option.some.inj hb).symm, rfl⟩
    | succ k =>
      have hc := (List.forall_mem_cons.mp hbefore).1
      rw [h] at hc
      cases hc
  · rintro ⟨rfl, rfl⟩
    exact ⟨rfl, h, List.forall_mem_nil _⟩

theorem firstNonDigit_from_eq_some_iff (k : Nat) :
    firstNonDigit k bs = some (b, j) ↔ ∃ i, j = k + i ∧ FirstNonDigit bs b i := by
  induction bs generalizing k with
  | nil =>
    refine iff_of_false (by simp [firstNonDigit]) ?_
    rintro ⟨i, _, hb, _⟩
    cases hb
  | cons c bs ih =>
    cases hc : isDigit c with
    | true =>
      rw [firstNonDigit, if_pos hc, ih]
      constructor
      · rintro ⟨i, rfl, hi⟩
        exact ⟨i + 1, by omega, (firstNonDigit_cons_of_digit hc).mpr ⟨i, rfl, hi⟩⟩
      · rintro ⟨_, rfl, hfirst⟩
        obtain ⟨i, rfl, hi⟩ := (firstNonDigit_cons_of_digit hc).mp hfirst
        exact ⟨i, by omega, hi⟩
    | false =>
      rw [firstNonDigit, if_neg (by simp [hc])]
      constructor
      · intro h
        cases h
        exact ⟨0, rfl, (firstNonDigit_cons_of_not_digit hc).mpr ⟨rfl, rfl⟩⟩
      · rintro ⟨_, rfl, hfirst⟩
        obtain ⟨rfl, rfl⟩ := (firstNonDigit_cons_of_not_digit hc).mp hfirst
        rfl

/-- The search for a byte that is no digit finds the first one and tells its offset. -/
theorem firstNonDigit_eq_some_iff : firstNonDigit 0 bs = some (b, i) ↔ FirstNonDigit bs b i := by
  simp [firstNonDigit_from_eq_some_iff]

theorem exists_firstNonDigit_iff :
    (∃ b i, FirstNonDigit bs b i) ↔ ¬ ∀ d ∈ bs, isDigit d = true := by
  constructor
  · rintro ⟨b, i, hb, hdigit, _⟩ hall
    rw [hall b (List.mem_of_getElem? hb)] at hdigit
    cases hdigit
  · intro h
    induction bs with
    | nil => exact absurd (List.forall_mem_nil _) h
    | cons c bs ih =>
      cases hc : isDigit c with
      | true =>
        obtain ⟨b, i, hi⟩ := ih fun hall => h (List.forall_mem_cons.mpr ⟨hc, hall⟩)
        exact ⟨b, i + 1, (firstNonDigit_cons_of_digit hc).mpr ⟨i, rfl, hi⟩⟩
      | false => exact ⟨c, 0, (firstNonDigit_cons_of_not_digit hc).mpr ⟨rfl, rfl⟩⟩

theorem firstNonDigit_eq_none_iff :
    firstNonDigit 0 bs = none ↔ ∀ d ∈ bs, isDigit d = true := by
  constructor
  · intro h
    by_contra hall
    obtain ⟨b, i, hfirst⟩ := exists_firstNonDigit_iff.mpr hall
    rw [firstNonDigit_eq_some_iff.mpr hfirst] at h
    cases h
  · intro h
    cases hfirst : firstNonDigit 0 bs with
    | none => rfl
    | some p =>
      exact absurd h (exists_firstNonDigit_iff.mp ⟨_, _, firstNonDigit_eq_some_iff.mp hfirst⟩)

/-- A plus sign comes first, and something follows it. -/
def SignAhead (bs : List UInt8) : Prop := ∃ b cs, bs = 0x2b :: b :: cs

/-- At an offset lies the first byte that has no place in a number: the first that is no digit,
where a plus sign ahead is passed over. -/
def FirstRejected (bs : List UInt8) (b : UInt8) (i : Nat) : Prop :=
  ∃ sign k, bs = sign ++ unsigned bs ∧ i = sign.length + k ∧ FirstNonDigit (unsigned bs) b k

theorem exists_sign (bs : List UInt8) : ∃ sign, bs = sign ++ unsigned bs := by
  rcases signed_unsigned bs with h | h
  · exact ⟨[], h⟩
  · exact ⟨[0x2b], h⟩

theorem exists_firstRejected_iff :
    (∃ b i, FirstRejected bs b i) ↔ ¬ ∀ d ∈ unsigned bs, isDigit d = true := by
  rw [← exists_firstNonDigit_iff]
  constructor
  · rintro ⟨b, _, _, k, _, _, hk⟩
    exact ⟨b, k, hk⟩
  · rintro ⟨b, k, hk⟩
    obtain ⟨sign, hsign⟩ := exists_sign bs
    exact ⟨b, sign.length + k, sign, k, hsign, rfl, hk⟩

theorem unsigned_of_not_signAhead (h : ¬ SignAhead bs) : unsigned bs = bs := by
  cases bs with
  | nil => rfl
  | cons b cs =>
    rw [unsigned, if_neg]
    rintro ⟨rfl, hne⟩
    obtain ⟨d, cs, rfl⟩ := List.exists_cons_of_ne_nil hne
    exact h ⟨d, cs, rfl⟩

theorem firstRejected_of_not_signAhead (h : ¬ SignAhead bs) :
    FirstRejected bs b i ↔ FirstNonDigit bs b i := by
  have hunsigned := unsigned_of_not_signAhead h
  constructor
  · rintro ⟨sign, k, hsign, rfl, hk⟩
    rw [hunsigned] at hsign hk
    obtain rfl : sign = [] := by simpa using hsign
    simpa using hk
  · intro hi
    exact ⟨[], i, hunsigned.symm, (Nat.zero_add i).symm, hunsigned.symm ▸ hi⟩

theorem pos_of_firstRejected (h : SignAhead bs) (hi : FirstRejected bs b i) : 0 < i := by
  obtain ⟨d, cs, rfl⟩ := h
  obtain ⟨sign, k, hsign, rfl, _⟩ := hi
  have hlength := congrArg List.length hsign
  simp [unsigned] at hlength
  omega

end IdMint.Decimal
