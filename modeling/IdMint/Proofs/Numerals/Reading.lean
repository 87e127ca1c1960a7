import IdMint.Proofs.Numerals.Tables

/-! What a reader accepts. While no fault has been met, the word read so far is the number of the
bytes so far. So a text is read to its end exactly when its bytes are symbols and its number is a
word, and otherwise the first fault is reported. -/
namespace IdMint.Numerals

open Text

variable {n : Numerals} {b : UInt8} {bs done : List UInt8} {word : UInt64} {i j : Nat}

/-- The digit that a byte stands for. A foreign byte counts as zero. -/
def digit (n : Numerals) (b : UInt8) : Nat := (n.alphabet.index? b).getD 0

def number (n : Numerals) (bs : List UInt8) : Nat :=
  Digits.value n.radix (bs.map n.digit).reverse

/-- At an offset lies a foreign byte, or one that takes the number past the largest word. -/
def Fault (n : Numerals) (bs : List UInt8) (i : Nat) : Prop :=
  ∃ b, bs[i]? = some b ∧
    (b ∉ n.alphabet.symbols ∨ UInt64.size ≤ n.number (bs.take (i + 1)))

def FirstFault (n : Numerals) (bs : List UInt8) (i : Nat) : Prop :=
  n.Fault bs i ∧ ∀ j < i, ¬ n.Fault bs j

/-- How a fault at an offset is reported: a foreign byte as such, and a symbol as one too many. -/
def report (n : Numerals) (b : UInt8) (i : Nat) : Refusal :=
  if b ∈ n.alphabet.symbols then .valueTooLarge else .invalidSymbol b i

theorem digit_symbol (h : i < n.radix) : n.digit (n.alphabet.symbol i) = i := by
  rw [digit, Alphabet.index?_symbol, Option.getD_some]
  exact Nat.mod_eq_of_lt h

theorem digit_foreign (h : b ∉ n.alphabet.symbols) : n.digit b = 0 := by
  rw [digit, Alphabet.index?, List.idxOf?_eq_none_iff.mpr h]
  rfl

theorem digit_lt (n : Numerals) (b : UInt8) : n.digit b < n.radix := by
  by_cases h : b ∈ n.alphabet.symbols
  · obtain ⟨i, hi, rfl⟩ := Alphabet.exists_symbol h
    rw [digit_symbol hi]
    exact hi
  · rw [digit_foreign h]
    exact n.alphabet.size_pos

theorem symbol_digit (h : b ∈ n.alphabet.symbols) : n.alphabet.symbol (n.digit b) = b := by
  obtain ⟨i, hi, rfl⟩ := Alphabet.exists_symbol h
  rw [digit_symbol hi]

theorem toNat_index (h : b ∈ n.alphabet.symbols) : (n.tables.index b).toNat = n.digit b := by
  obtain ⟨i, hi, rfl⟩ := Alphabet.exists_symbol h
  have hsize := n.alphabet.size_eq
  rw [digit_symbol hi, tables, Tables.index_symbol hi, UInt8.toNat_ofNat']
  exact Nat.mod_eq_of_lt (by omega)

theorem number_nil (n : Numerals) : n.number [] = 0 := rfl

theorem number_concat (n : Numerals) (bs : List UInt8) (b : UInt8) :
    n.number (bs ++ [b]) = n.number bs * n.radix + n.digit b := by
  rw [number, List.map_append]
  exact Digits.value_reverse_concat n.radix (bs.map n.digit) (n.digit b)

theorem number_le_append (n : Numerals) (bs cs : List UInt8) :
    n.number bs ≤ n.number (bs ++ cs) := by
  have hpos : 0 < n.radix := n.alphabet.size_pos
  rw [number, number, List.map_append]
  exact Digits.value_reverse_le_append hpos (bs.map n.digit) (cs.map n.digit)

/-- The bits that a symbol needs are free exactly when the number with that symbol is a word. -/
theorem mul_radix_lt_iff (hw : word.toNat = n.number done) :
    word.toNat * n.radix < UInt64.size ↔ n.number (done ++ [b]) < UInt64.size := by
  have hd := digit_lt n b
  rw [number_concat, ← hw, size_eq_mul n]
  constructor
  · intro h
    have hlt := Nat.lt_of_mul_lt_mul_right h
    have hle := Nat.mul_le_mul_right n.radix (Nat.succ_le_of_lt hlt)
    rw [Nat.succ_mul] at hle
    omega
  · intro h
    omega

theorem readFrom_foreign (h : b ∉ n.alphabet.symbols) :
    n.tables.readFrom i word (b :: bs) = .error (.invalidSymbol b i) := by
  rw [Tables.readFrom, tables, Tables.index_foreign h, if_pos rfl]

theorem readFrom_full (h : b ∈ n.alphabet.symbols) (hw : word.toNat = n.number done)
    (hfull : UInt64.size ≤ n.number (done ++ [b])) :
    n.tables.readFrom i word (b :: bs) = .error .valueTooLarge := by
  have hshift : ¬ word >>> (64 - n.tables.step) = 0 := by
    rw [shiftRight_eq_zero_iff, mul_radix_lt_iff hw (b := b)]
    omega
  have hindex : n.tables.index b ≠ Tables.foreign := Tables.index_ne_foreign h
  rw [Tables.readFrom, if_neg hindex, if_neg hshift]

theorem readFrom_symbol (h : b ∈ n.alphabet.symbols) (hw : word.toNat = n.number done)
    (hlt : n.number (done ++ [b]) < UInt64.size) (i : Nat) (bs : List UInt8) :
    ∃ next : UInt64, next.toNat = n.number (done ++ [b]) ∧
      n.tables.readFrom i word (b :: bs) = n.tables.readFrom (i + 1) next bs := by
  have hshift : word >>> (64 - n.tables.step) = 0 := by
    rw [shiftRight_eq_zero_iff, mul_radix_lt_iff hw (b := b)]
    exact hlt
  refine ⟨word <<< n.tables.step ||| (n.tables.index b).toUInt64, ?_, ?_⟩
  · rw [toNat_shiftLeft_or, toNat_index h, hw, ← number_concat, Nat.mod_eq_of_lt hlt]
    rw [toNat_index h]
    exact digit_lt n b
  · have hindex : n.tables.index b ≠ Tables.foreign := Tables.index_ne_foreign h
    rw [Tables.readFrom, if_neg hindex, if_pos hshift]

theorem not_fault_of_symbol (h : b ∈ n.alphabet.symbols)
    (hlt : n.number (done ++ [b]) < UInt64.size) : ¬ n.Fault (done ++ b :: bs) done.length := by
  rintro ⟨c, hc, hfault⟩
  rw [List.getElem?_append_right (Nat.le_refl _), Nat.sub_self] at hc
  obtain rfl : b = c := by simpa using hc
  rcases hfault with hforeign | hlarge
  · exact hforeign h
  · rw [List.take_length_add_append] at hlarge
    exact Nat.not_le_of_lt hlt hlarge

/-- The run of a reader. No fault before the offset and the word of the bytes before it is what each
symbol passes on. -/
theorem readFrom_cases (hw : word.toNat = n.number done)
    (hdone : ∀ j < done.length, ¬ n.Fault (done ++ bs) j) :
    (∃ v, n.tables.readFrom done.length word bs = .ok v ∧ v.toNat = n.number (done ++ bs) ∧
      ∀ j, ¬ n.Fault (done ++ bs) j) ∨
    (∃ i b, n.FirstFault (done ++ bs) i ∧ (done ++ bs)[i]? = some b ∧
      n.tables.readFrom done.length word bs = .error (n.report b i)) := by
  induction bs generalizing done word with
  | nil =>
    left
    rw [List.append_nil] at hdone ⊢
    refine ⟨word, rfl, hw, ?_⟩
    intro j hj
    have hlt : j < done.length := by
      obtain ⟨b, hb, _⟩ := hj
      exact (List.getElem?_eq_some_iff.mp hb).1
    exact hdone j hlt hj
  | cons b bs ih =>
    have hget : (done ++ b :: bs)[done.length]? = some b := by
      rw [List.getElem?_append_right (Nat.le_refl _), Nat.sub_self]
      rfl
    have htake : (done ++ b :: bs).take (done.length + 1) = done ++ [b] :=
      List.take_length_add_append 1
    by_cases hmem : b ∈ n.alphabet.symbols
    · by_cases hlt : n.number (done ++ [b]) < UInt64.size
      · obtain ⟨next, hnext, hread⟩ := readFrom_symbol hmem hw hlt done.length bs
        have hassoc : done ++ [b] ++ bs = done ++ b :: bs := by simp
        have hlen : (done ++ [b]).length = done.length + 1 := by simp
        have hrest := ih hnext
        rw [hassoc, hlen] at hrest
        rw [hread]
        apply hrest
        intro j hj
        rcases Nat.lt_succ_iff_lt_or_eq.mp hj with hj | rfl
        · exact hdone j hj
        · exact not_fault_of_symbol hmem hlt
      · right
        have hfull := Nat.le_of_not_lt hlt
        refine ⟨done.length, b, ⟨⟨b, hget, Or.inr ?_⟩, hdone⟩, hget, ?_⟩
        · rwa [htake]
        · rw [readFrom_full hmem hw hfull, report, if_pos hmem]
    · right
      refine ⟨done.length, b, ⟨⟨b, hget, Or.inl hmem⟩, hdone⟩, hget, ?_⟩
      rw [readFrom_foreign hmem, report, if_neg hmem]

/-- Bytes are without fault when they are symbols and their number is a word. -/
theorem forall_not_fault_iff : (∀ j, ¬ n.Fault bs j) ↔
    (∀ b ∈ bs, b ∈ n.alphabet.symbols) ∧ n.number bs < UInt64.size := by
  constructor
  · intro h
    constructor
    · intro b hb
      obtain ⟨i, hi, rfl⟩ := List.mem_iff_getElem.mp hb
      by_contra hmem
      exact h i ⟨_, List.getElem?_eq_getElem hi, Or.inl hmem⟩
    · by_contra hlarge
      have hlen : bs ≠ [] := by
        rintro rfl
        exact hlarge (Nat.two_pow_pos 64)
      have hpos := List.length_pos_of_ne_nil hlen
      have hlast : bs.length - 1 < bs.length := by omega
      refine h (bs.length - 1) ⟨_, List.getElem?_eq_getElem hlast, Or.inr ?_⟩
      rw [Nat.sub_add_cancel hpos, List.take_length]
      exact Nat.le_of_not_lt hlarge
  · rintro ⟨hsymbols, hlt⟩ j ⟨b, hb, hfault⟩
    rcases hfault with hforeign | hlarge
    · exact hforeign (hsymbols b (List.mem_of_getElem? hb))
    · have hle := number_le_append n (bs.take (j + 1)) (bs.drop (j + 1))
      rw [List.take_append_drop] at hle
      omega

theorem firstFault_unique (hi : n.FirstFault bs i) (hj : n.FirstFault bs j) : i = j := by
  rcases Nat.lt_trichotomy i j with h | h | h
  · exact absurd hi.1 (hj.2 i h)
  · exact h
  · exact absurd hj.1 (hi.2 j h)

theorem bytes_eq_nil_iff {s : String} : bytes s = [] ↔ s = "" := by
  constructor
  · intro h
    rw [bytes, List.flatMap_eq_nil_iff] at h
    rw [← String.toList_eq_nil_iff]
    by_contra hs
    obtain ⟨c, hc⟩ := List.exists_mem_of_ne_nil _ hs
    exact String.utf8EncodeChar_ne_nil (h c hc)
  · rintro rfl
    rfl

theorem read_cases (n : Numerals) {s : String} (hs : s ≠ "") :
    (∃ v, n.read s = .ok v ∧ v.toNat = n.number (bytes s) ∧ ∀ j, ¬ n.Fault (bytes s) j) ∨
    (∃ i b, n.FirstFault (bytes s) i ∧ (bytes s)[i]? = some b ∧
      n.read s = .error (n.report b i)) := by
  rw [read, if_neg hs]
  have hword : (0 : UInt64).toNat = n.number [] := rfl
  exact readFrom_cases hword fun j hj => absurd hj (Nat.not_lt_zero j)

theorem read_empty (n : Numerals) : n.read "" = .error .emptyInput := by
  rw [read, if_pos rfl]

theorem read_eq_ok_iff {s : String} {v : UInt64} : n.read s = .ok v ↔
    s ≠ "" ∧ (∀ b ∈ bytes s, b ∈ n.alphabet.symbols) ∧ n.number (bytes s) = v.toNat := by
  constructor
  · intro h
    have hs : s ≠ "" := by
      rintro rfl
      rw [read_empty] at h
      cases h
    rcases read_cases n hs with ⟨w, hread, hw, hclean⟩ | ⟨i, b, _, _, hread⟩
    · rw [hread] at h
      cases h
      exact ⟨hs, (forall_not_fault_iff.mp hclean).1, hw.symm⟩
    · rw [hread] at h
      cases h
  · rintro ⟨hs, hsymbols, hnumber⟩
    have hlt : n.number (bytes s) < UInt64.size := hnumber ▸ v.toNat_lt
    have hclean := forall_not_fault_iff.mpr ⟨hsymbols, hlt⟩
    rcases read_cases n hs with ⟨w, hread, hw, _⟩ | ⟨i, _, hfirst, _⟩
    · rw [hread, UInt64.toNat_inj.mp (hw.trans hnumber)]
    · exact absurd hfirst.1 (hclean i)

theorem read_eq_error_iff {s : String} {e : Refusal} : n.read s = .error e ↔
    (s = "" ∧ e = .emptyInput) ∨
      ∃ i b, n.FirstFault (bytes s) i ∧ (bytes s)[i]? = some b ∧ e = n.report b i := by
  by_cases hs : s = ""
  · subst hs
    rw [read_empty]
    constructor
    · intro h
      cases h
      exact Or.inl ⟨rfl, rfl⟩
    · rintro (⟨_, rfl⟩ | ⟨i, b, _, hb, _⟩)
      · rfl
      · cases hb
  · rcases read_cases n hs with ⟨v, hread, _, hclean⟩ | ⟨i, b, hfirst, hb, hread⟩
    · rw [hread]
      constructor
      · intro h
        cases h
      · rintro (⟨h, _⟩ | ⟨i, _, hfirst, _⟩)
        · exact absurd h hs
        · exact absurd hfirst.1 (hclean i)
    · rw [hread]
      constructor
      · intro h
        cases h
        exact Or.inr ⟨i, b, hfirst, hb, rfl⟩
      · rintro (⟨h, _⟩ | ⟨j, c, hfirst', hc, rfl⟩)
        · exact absurd h hs
        · obtain rfl := firstFault_unique hfirst hfirst'
          rw [hb, Option.some.injEq] at hc
          rw [hc]

/-- A reader accepts the texts whose bytes are symbols and whose number is a word, and gives that
number. Of any other text it reports the first fault, unless the text is empty. -/
theorem read_exact (n : Numerals) (s : String) :
    (∀ v, n.read s = .ok v ↔ s ≠ "" ∧ (∀ b ∈ bytes s, b ∈ n.alphabet.symbols) ∧
      n.number (bytes s) = v.toNat) ∧
    ((∃ v, n.read s = .ok v) ↔ s ≠ "" ∧ (∀ b ∈ bytes s, b ∈ n.alphabet.symbols) ∧
      n.number (bytes s) < UInt64.size) ∧
    ∀ e, n.read s = .error e ↔ (s = "" ∧ e = .emptyInput) ∨
      ∃ i b, n.FirstFault (bytes s) i ∧ (bytes s)[i]? = some b ∧
        e = if b ∈ n.alphabet.symbols then .valueTooLarge else .invalidSymbol b i := by
  refine ⟨fun v => read_eq_ok_iff, ?_, fun e => read_eq_error_iff⟩
  constructor
  · rintro ⟨v, h⟩
    obtain ⟨hs, hsymbols, hnumber⟩ := read_eq_ok_iff.mp h
    exact ⟨hs, hsymbols, hnumber ▸ v.toNat_lt⟩
  · rintro ⟨hs, hsymbols, hlt⟩
    refine ⟨UInt64.ofNat (n.number (bytes s)), read_eq_ok_iff.mpr ⟨hs, hsymbols, ?_⟩⟩
    rw [UInt64.toNat_ofNat', Nat.mod_eq_of_lt hlt]

/-- The thirteenth symbol is one too many, so the foreign byte behind it is not met. -/
example : base32.read "G000000000000@" = .error .valueTooLarge := by decide +kernel

end IdMint.Numerals
