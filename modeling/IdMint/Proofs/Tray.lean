import IdMint.Numerals
import IdMint.Proofs.Alphabet

/-! Trays hold alphabets. Whatever makes a tray puts distinct printable symbols into blank places,
so the text of a tray tells it from every other tray, and the tables that are made of it too. -/
namespace IdMint

open Text

/-- To set a place that is there is to set it if it is there. -/
theorem set_eq_setIfInBounds {α : Type} {m i : Nat} (v : Vector α m) (a : α) (h : i < m) :
    v.set i a h = v.setIfInBounds i a := by
  ext j hj
  rw [Vector.getElem_set, Vector.getElem_setIfInBounds]

namespace Tray

variable {t : Tray} {places : Vector UInt8 64} {i : Nat} {bs before seen : List UInt8}

theorem toList_fill (h : i + bs.length ≤ 64) : (fill places i bs).toList =
    places.toList.take i ++ bs ++ places.toList.drop (i + bs.length) := by
  induction bs generalizing places i with
  | nil => simp [fill]
  | cons b bs ih =>
    rw [List.length_cons] at h ⊢
    have hi : i < places.toList.length := by
      rw [Vector.length_toList]
      omega
    have hset : (places.toList.set i b).take (i + 1) = places.toList.take i ++ [b] := by
      rw [List.take_succ_eq_append_getElem (by rwa [List.length_set]), List.getElem_set_self,
        List.take_set_of_le (Nat.le_refl i)]
    rw [fill, ih (by omega), Vector.toList_setIfInBounds, hset, List.drop_set_of_lt (by omega),
      List.append_assoc _ [b], List.singleton_append, Nat.add_right_comm, Nat.add_assoc]

theorem toList_ofSymbols (h : bs.length ≤ 64) :
    (ofSymbols bs).places.toList = bs ++ List.replicate (64 - bs.length) 0 := by
  rw [ofSymbols, toList_fill (by omega), blank, Vector.toList_replicate, List.take_zero,
    List.nil_append, Nat.zero_add, List.drop_replicate]

theorem symbols_ofSymbols (h : bs.length ≤ 64) : (ofSymbols bs).symbols = bs := by
  rw [symbols, toList_ofSymbols h, ofSymbols, List.take_left']
  rfl

/-- The places behind the symbols stay blank. -/
theorem places_ofSymbols {i : Nat} (h : bs.length ≤ i) (hi : i < 64) :
    (ofSymbols bs).places[i] = 0 := by
  have hplaces := toList_ofSymbols (Nat.le_trans h (Nat.le_of_lt hi))
  have hlen : i < (ofSymbols bs).places.toList.length := by rwa [Vector.length_toList]
  rw [← Vector.getElem_toList hlen]
  simp only [hplaces, List.getElem_append_right h, List.getElem_replicate]

/-- A byte is marked when it is among those put before. -/
def Marks (marks : Vector Bool 128) (before : List UInt8) : Prop :=
  ∀ b : UInt8, b.toNat < 128 → (marks[b.toNat]?).getD false = decide (b ∈ before)

theorem marks_blank : Marks (Vector.replicate 128 false) [] := by
  intro b hb
  simp [hb]

theorem marks_cons {marks : Vector Bool 128} {b : UInt8} (h : Marks marks before) :
    Marks (marks.setIfInBounds b.toNat true) (b :: before) := by
  intro c hc
  rw [Vector.getElem?_setIfInBounds]
  by_cases hbc : b = c
  · subst hbc
    simp [hc]
  · have hne : b.toNat ≠ c.toNat := fun he => hbc (UInt8.toNat_inj.mp he)
    rw [if_neg hne, h c hc]
    simp [Ne.symm hbc]

/-- Looking a symbol up among marks finds the first one that repeats. -/
theorem fillDistinct_eq {marks : Vector Bool 128} (hm : Marks marks before)
    (h : ∀ b ∈ bs, b.toNat < 128) : fillDistinct marks places i bs =
      match Distinct.firstRepeatAfter before bs with
      | some b => .error (.duplicateSymbol b)
      | none => .ok (fill places i bs) := by
  induction bs generalizing marks places i before with
  | nil => rfl
  | cons b bs ih =>
    rw [fillDistinct, hm b (h b (List.mem_cons_self ..)), Distinct.firstRepeatAfter]
    by_cases hb : b ∈ before
    · simp [hb]
    · simp only [hb, decide_false, Bool.false_eq_true, if_false]
      exact ih (marks_cons hm) fun c hc => h c (List.mem_cons_of_mem b hc)

/-- Comparing a byte with all before it, in whatever order, finds the same fault. -/
theorem fillLiteral_eq (hseen : ∀ b, b ∈ seen ↔ b ∈ before) : fillLiteral before places bs =
    match Alphabet.literalFault seen bs with
    | some fault => .error fault
    | none => .ok (fill places before.length bs) := by
  induction bs generalizing before places seen with
  | nil => rfl
  | cons b bs ih =>
    rw [fillLiteral, Alphabet.literalFault]
    by_cases hg : isGraphic b = true
    · by_cases hb : b ∈ before
      · simp [hg, hb, (hseen b).mpr hb]
      · have hb' : b ∉ seen := fun hs => hb ((hseen b).mp hs)
        simp only [hg, hb, hb', if_true, if_false]
        have hnext : ∀ c, c ∈ b :: seen ↔ c ∈ before ++ [b] := by
          intro c
          rw [List.mem_cons, hseen, List.mem_append, List.mem_singleton, or_comm]
        rw [ih hnext, List.length_append, List.length_singleton]
        rfl
    · simp [hg]

theorem lt_of_graphic {b : UInt8} (h : isGraphic b = true) : b.toNat < 128 := by
  simp only [isGraphic, Bool.and_eq_true, decide_eq_true_eq, UInt8.le_iff_toNat_le] at h
  exact Nat.lt_of_le_of_lt h.2 (by decide)

/-- Text makes the tray of the alphabet that it makes, or is refused as an alphabet is. -/
theorem ofString_eq (s : String) : ofString s = (Alphabet.ofString s).map Alphabet.tray := by
  rw [ofString, Alphabet.ofString]
  by_cases hl : s.length = 32 ∨ s.length = 64
  · rw [if_pos hl, dif_pos hl]
    by_cases hg : (bytes s).all isGraphic = true
    · have hgraphic := List.all_eq_true.mp hg
      rw [if_pos hg, dif_pos hg,
        fillDistinct_eq marks_blank fun b hb => lt_of_graphic (hgraphic b hb),
        ← length_bytes_of_graphic hgraphic, ← Distinct.firstRepeat]
      split
      · split
        · simp_all [Except.map]
        · simp_all
      · split
        · simp_all
        · rfl
    · rw [if_neg hg, dif_neg hg]
      rfl
  · rw [if_neg hl, dif_neg hl]
    rfl

theorem ofLiteral_eq (s : String) : ofLiteral s = (Alphabet.ofLiteral s).map Alphabet.tray := by
  rw [ofLiteral, Alphabet.ofLiteral]
  by_cases hl : (bytes s).length = 32 ∨ (bytes s).length = 64
  · have hnone : ∀ b : UInt8, b ∈ ([] : List UInt8) ↔ b ∈ [] := fun _ => Iff.rfl
    rw [if_pos hl, dif_pos hl, fillLiteral_eq hnone]
    split
    · split
      · simp_all [Except.map]
      · simp_all
    · split
      · simp_all
      · rfl
  · rw [if_neg hl, dif_neg hl]
    rfl

variable (a : Alphabet)

theorem length_symbols_le : a.symbols.length ≤ 64 := by
  have h := a.length_eq
  omega

@[simp] theorem symbols_tray : a.tray.symbols = a.symbols := symbols_ofSymbols (length_symbols_le a)

@[simp] theorem text_tray : a.tray.text = a.text := by rw [text, symbols_tray, Alphabet.text]

theorem tray_shuffled (seed : UInt64) : a.tray.shuffled seed = (a.shuffled seed).tray := by
  rw [shuffled, symbols_tray, Alphabet.tray, Alphabet.tray, ofSymbols, ofSymbols, Alphabet.shuffled]
  simp [(Shuffle.shuffle_perm _ _).length_eq]

/-- Trays that can be made: read from text, read from a literal, or shuffled from another. -/
inductive Built : Tray → Prop where
  | read {s : String} {t : Tray} (h : ofString s = .ok t) : Built t
  | literal {s : String} {t : Tray} (h : ofLiteral s = .ok t) : Built t
  | shuffled {t : Tray} (h : Built t) (seed : UInt64) : Built (t.shuffled seed)

theorem ofString_text : ofString a.tray.text = .ok a.tray := by
  rw [text_tray, ofString_eq, Alphabet.ofString_text]
  rfl

theorem exists_of_map_eq_ok {ε α β : Type} {f : α → β} {x : Except ε α} {y : β}
    (h : x.map f = .ok y) : ∃ a, f a = y := by
  cases x with
  | error cause => cases h
  | ok a =>
    cases h
    exact ⟨a, rfl⟩

/-- The trays that can be made are those of alphabets. -/
theorem built_iff : Built t ↔ ∃ a : Alphabet, a.tray = t := by
  constructor
  · intro h
    induction h with
    | @read s t h =>
      rw [ofString_eq] at h
      exact exists_of_map_eq_ok h
    | @literal s t h =>
      rw [ofLiteral_eq] at h
      exact exists_of_map_eq_ok h
    | shuffled _ seed ih =>
      obtain ⟨a, rfl⟩ := ih
      exact ⟨a.shuffled seed, (tray_shuffled a seed).symm⟩
  · rintro ⟨a, rfl⟩
    exact .read (ofString_text a)

theorem tray_inj {a b : Alphabet} : a.tray = b.tray ↔ a = b := by
  constructor
  · intro h
    rw [← Alphabet.text_inj, ← text_tray, ← text_tray, h]
  · exact congrArg _

/-- The symbols of a tray are 32 or 64 distinct printable bytes, and behind them all is blank. -/
structure WellFormed (t : Tray) : Prop where
  size_eq : t.size = 32 ∨ t.size = 64
  graphic : ∀ b ∈ t.symbols, isGraphic b = true
  nodup : t.symbols.Nodup
  blank_behind : ∀ i, t.size ≤ i → ∀ h : i < 64, t.places[i] = 0

theorem wellFormed_tray : a.tray.WellFormed where
  size_eq := a.length_eq
  graphic := by
    rw [symbols_tray]
    exact a.graphic
  nodup := by
    rw [symbols_tray]
    exact a.nodup
  blank_behind _ h hi := places_ofSymbols h hi

/-- However a tray was made, it is well formed and its text makes it again. Equal texts are enough
for equal trays, padding included, and for equal tables. -/
theorem built_told_by_text :
    (∀ t, Built t → WellFormed t) ∧
    (∀ t, Built t → ofString t.text = .ok t) ∧
    (∀ t u, Built t → Built u → (t = u ↔ t.text = u.text)) ∧
    ∀ t u, Built t → Built u →
      (Numerals.Tables.ofTray t = Numerals.Tables.ofTray u ↔ t.text = u.text) := by
  have htext : ∀ t u, Built t → Built u → (t = u ↔ t.text = u.text) := by
    intro t u ht hu
    obtain ⟨a, rfl⟩ := built_iff.mp ht
    obtain ⟨b, rfl⟩ := built_iff.mp hu
    rw [tray_inj, text_tray, text_tray, Alphabet.text_inj]
  refine ⟨?_, ?_, htext, ?_⟩
  · intro t ht
    obtain ⟨a, rfl⟩ := built_iff.mp ht
    exact wellFormed_tray a
  · intro t ht
    obtain ⟨a, rfl⟩ := built_iff.mp ht
    exact ofString_text a
  · intro t u ht hu
    rw [← htext t u ht hu]
    exact ⟨congrArg Numerals.Tables.tray, congrArg Numerals.Tables.ofTray⟩

/-- The 32-symbol alphabet, shuffled and shuffled again. -/
def shuffledTwice : Tray := (Alphabet.base32.tray.shuffled 7).shuffled 9

theorem shuffledTwice_told_by_text :
    Built shuffledTwice ∧ WellFormed shuffledTwice ∧
    ofString shuffledTwice.text = .ok shuffledTwice ∧
    (shuffledTwice = Alphabet.base32.tray ↔ shuffledTwice.text = Alphabet.base32.tray.text) := by
  have hbase : Built Alphabet.base32.tray := .read (ofString_text _)
  have hbuilt : Built shuffledTwice := (hbase.shuffled 7).shuffled 9
  obtain ⟨hwell, hread, htext, _⟩ := built_told_by_text
  exact ⟨hbuilt, hwell _ hbuilt, hread _ hbuilt, htext _ _ hbuilt hbase⟩

end Tray

end IdMint
