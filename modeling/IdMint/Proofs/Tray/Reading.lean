import IdMint.Proofs.Tray
import Mathlib.Data.List.Nodup

/-! Which texts are alphabets. A text is read when it is 32 or 64 distinct printable characters, and
otherwise refused for the first of its flaws. A literal is judged in another order, by bytes, and
comes to the same. Neither reader leaves the places and marks that it has. -/
namespace IdMint

namespace Distinct

variable {α β : Type} {seen xs ys : List α} {x y : α} {i : Nat}

/-- An element that lies before its offset as well, where none does so at an offset before. -/
def FirstRepeat (xs : List α) (x : α) (i : Nat) : Prop :=
  xs[i]? = some x ∧ x ∈ xs.take i ∧ (xs.take i).Nodup

/-- The same where `seen` has gone before. -/
def FirstRepeatAfter (seen xs : List α) (x : α) (i : Nat) : Prop :=
  xs[i]? = some x ∧ (x ∈ seen ∨ x ∈ xs.take i) ∧ (xs.take i).Nodup ∧ ∀ y ∈ xs.take i, y ∉ seen

theorem firstRepeatAfter_zero_iff : FirstRepeatAfter seen (y :: ys) x 0 ↔ y ∈ seen ∧ y = x := by
  simp only [FirstRepeatAfter, List.getElem?_cons_zero, List.take_zero, Option.some.injEq]
  constructor
  · rintro ⟨rfl, hmem, -, -⟩
    exact ⟨by simpa using hmem, rfl⟩
  · rintro ⟨hmem, rfl⟩
    simp [hmem]

theorem firstRepeatAfter_succ_iff : FirstRepeatAfter seen (y :: ys) x (i + 1) ↔
    y ∉ seen ∧ FirstRepeatAfter (y :: seen) ys x i := by
  have hfresh : (∀ z ∈ ys.take i, z ∉ y :: seen) ↔
      y ∉ ys.take i ∧ ∀ z ∈ ys.take i, z ∉ seen := by
    simp only [List.mem_cons, not_or, imp_and, forall_and]
    exact and_congr_left fun _ => ⟨fun h hy => h y hy rfl, fun h z hz he => h (he ▸ hz)⟩
  simp only [FirstRepeatAfter, List.getElem?_cons_succ, List.take_succ_cons, List.nodup_cons,
    List.forall_mem_cons, hfresh]
  simp only [List.mem_cons]
  tauto

theorem firstRepeatAfter_eq_some_iff [DecidableEq α] :
    firstRepeatAfter seen xs = some x ↔ ∃ i, FirstRepeatAfter seen xs x i := by
  induction xs generalizing seen with
  | nil => simp [firstRepeatAfter, FirstRepeatAfter]
  | cons y ys ih =>
    rw [firstRepeatAfter, ← Nat.or_exists_add_one]
    simp only [firstRepeatAfter_zero_iff, firstRepeatAfter_succ_iff]
    by_cases hy : y ∈ seen
    · simp [hy]
    · simp [hy, ih]

theorem firstRepeat_eq_some_iff [DecidableEq α] :
    firstRepeat xs = some x ↔ ∃ i, FirstRepeat xs x i := by
  rw [firstRepeat, firstRepeatAfter_eq_some_iff]
  simp [FirstRepeat, FirstRepeatAfter]

theorem firstRepeat_map_iff {f : α → β} (hf : Function.Injective f) :
    FirstRepeat (xs.map f) (f x) i ↔ FirstRepeat xs x i := by
  rw [FirstRepeat, FirstRepeat, List.getElem?_map, ← List.map_take, List.mem_map_of_injective hf,
    List.nodup_map_iff hf, ← Option.map_some, (Option.map_injective hf).eq_iff]

end Distinct

namespace Text

/-- A character of printable ASCII other than the space. -/
def IsGraphicChar (c : Char) : Prop := 0x21 ≤ c.toNat ∧ c.toNat ≤ 0x7e

theorem graphic_utf8EncodeChar_iff {c : Char} :
    (∀ b ∈ String.utf8EncodeChar c, isGraphic b = true) ↔ IsGraphicChar c := by
  have hsingle (h : c.toNat ≤ 0x7f) :
      (∀ b ∈ String.utf8EncodeChar c, isGraphic b = true) ↔ IsGraphicChar c := by
    have hsize : c.utf8Size = 1 := Char.utf8Size_eq_one_iff.mpr (UInt32.le_iff_toNat_le.mpr h)
    have hbyte : c.val.toUInt8.toNat = c.toNat := by
      rw [UInt32.toNat_toUInt8]
      exact Nat.mod_eq_of_lt (Nat.lt_of_le_of_lt h (by decide))
    rw [String.utf8EncodeChar_eq_singleton hsize, List.forall_mem_singleton, isGraphic,
      Bool.and_eq_true, decide_eq_true_eq, decide_eq_true_eq, UInt8.le_iff_toNat_le,
      UInt8.le_iff_toNat_le, hbyte]
    exact Iff.rfl
  constructor
  · intro h
    have hsize : c.utf8Size = 1 := by
      rw [← String.length_utf8EncodeChar, utf8EncodeChar_of_graphic h, List.length_singleton]
    exact (hsingle (UInt32.le_iff_toNat_le.mp (Char.utf8Size_eq_one_iff.mp hsize))).mp h
  · intro h
    exact (hsingle (Nat.le_trans h.2 (by decide))).mpr h

theorem graphic_bytes_iff {s : String} :
    (∀ b ∈ bytes s, isGraphic b = true) ↔ ∀ c ∈ s.toList, IsGraphicChar c := by
  simp only [bytes, List.forall_mem_flatMap, graphic_utf8EncodeChar_iff]

end Text

namespace Alphabet

open Text

variable {a : Alphabet} {s : String} {e : Refusal} {bs seen : List UInt8}

/-- 32 or 64 printable characters, no two of them alike. -/
structure Proper (s : String) : Prop where
  length_eq : s.length = 32 ∨ s.length = 64
  graphic : ∀ c ∈ s.toList, IsGraphicChar c
  nodup : s.toList.Nodup

/-- What keeps a text from being an alphabet, where it has nothing that is judged before. -/
inductive Flaw (s : String) : Refusal → Prop where
  | length (h : s.length ≠ 32 ∧ s.length ≠ 64) : Flaw s (.unsupportedLength s.length)
  | unprintable (hl : s.length = 32 ∨ s.length = 64) (h : ∃ b ∈ bytes s, isGraphic b = false) :
      Flaw s .unprintableSymbol
  | repeated (hl : s.length = 32 ∨ s.length = 64) (hg : ∀ b ∈ bytes s, isGraphic b = true)
      {b : UInt8} {i : Nat} (h : Distinct.FirstRepeat s.toList (Char.ofUInt8 b) i) :
      Flaw s (.duplicateSymbol b)

theorem proper_iff : Proper s ↔ ∃ a : Alphabet, a.text = s := by
  constructor
  · intro h
    have hgraphic := graphic_bytes_iff.mpr h.graphic
    have hnodup := h.nodup
    rw [toList_of_graphic hgraphic] at hnodup
    refine ⟨⟨bytes s, ?_, hgraphic, hnodup.of_map⟩, ofAscii_bytes hgraphic⟩
    rw [length_bytes_of_graphic hgraphic]
    exact h.length_eq
  · rintro ⟨a, rfl⟩
    constructor
    · rw [← String.length_toList, toList_text, List.length_map]
      exact a.length_eq
    · rw [← graphic_bytes_iff, bytes_text]
      exact a.graphic
    · rw [toList_text]
      exact a.nodup.map fun _ _ => ofUInt8_inj

/-- The repeat that is found among the bytes is the first among the characters. -/
theorem firstRepeat_bytes_iff (hg : ∀ b ∈ bytes s, isGraphic b = true) {b : UInt8} :
    Distinct.firstRepeat (bytes s) = some b ↔
      ∃ i, Distinct.FirstRepeat s.toList (Char.ofUInt8 b) i := by
  rw [toList_of_graphic hg, Distinct.firstRepeat_eq_some_iff]
  simp only [Distinct.firstRepeat_map_iff fun _ _ => ofUInt8_inj]

theorem ofString_eq_error_iff : ofString s = .error e ↔ Flaw s e := by
  rw [ofString]
  constructor
  · intro h
    split at h
    · rename_i hl
      split at h
      · rename_i hg
        have hg := List.all_eq_true.mp hg
        split at h
        · rename_i b hb
          cases h
          obtain ⟨i, hi⟩ := (firstRepeat_bytes_iff hg).mp hb
          exact .repeated hl hg hi
        · cases h
      · rename_i hg
        cases h
        refine .unprintable hl ?_
        simpa using hg
    · rename_i hl
      cases h
      exact .length (not_or.mp hl)
  · intro h
    cases h with
    | length h => rw [dif_neg (not_or.mpr h)]
    | unprintable hl h =>
      rw [dif_pos hl, dif_neg]
      simpa using h
    | repeated hl hg h =>
      rw [dif_pos hl, dif_pos (List.all_eq_true.mpr hg)]
      have hb := (firstRepeat_bytes_iff hg).mpr ⟨_, h⟩
      split <;> simp_all

theorem literalFault_of_nodup (hg : ∀ b ∈ bs, isGraphic b = true) (hn : bs.Nodup)
    (hs : ∀ b ∈ bs, b ∉ seen) : literalFault seen bs = none := by
  induction bs generalizing seen with
  | nil => rfl
  | cons b bs ih =>
    obtain ⟨hb, hn⟩ := List.nodup_cons.mp hn
    obtain ⟨hgb, hg⟩ := List.forall_mem_cons.mp hg
    obtain ⟨hsb, hs⟩ := List.forall_mem_cons.mp hs
    rw [literalFault, if_pos hgb, if_neg hsb]
    apply ih hg hn
    intro c hc hmem
    rcases List.mem_cons.mp hmem with rfl | hmem
    · exact hb hc
    · exact hs c hc hmem

/-- The text of an alphabet is read as that alphabet when it is a literal, too. -/
theorem ofLiteral_text (a : Alphabet) : ofLiteral a.text = .ok a := by
  have hb := a.bytes_text
  have hf : literalFault [] (bytes a.text) = none := by
    rw [hb]
    exact literalFault_of_nodup a.graphic a.nodup fun _ _ => List.not_mem_nil
  have hl : (bytes a.text).length = 32 ∨ (bytes a.text).length = 64 := by
    rw [hb]
    exact a.length_eq
  rw [ofLiteral, dif_pos hl]
  split
  · simp_all
  · simp_all

theorem ofLiteral_eq_ok_iff : ofLiteral s = .ok a ↔ a.text = s := by
  constructor
  · intro h
    unfold ofLiteral at h
    split at h
    · split at h
      · cases h
      · rename_i hf
        cases h
        exact ofAscii_bytes (graphic_of_literalFault hf)
    · cases h
  · rintro rfl
    exact a.ofLiteral_text

end Alphabet

namespace Tray

open Text

variable {bs before : List UInt8} {places : Vector UInt8 64} {i : Nat}

/-- Puts symbols into places as `fillDistinct` does, but fails where there is no mark or no place
for one. -/
def fillDistinct? (seen : Vector Bool 128) (places : Vector UInt8 64) (i : Nat) :
    List UInt8 → Option (Except Refusal (Vector UInt8 64))
  | [] => some (.ok places)
  | b :: bs =>
    if h : b.toNat < 128 then
      if seen[b.toNat] then some (.error (.duplicateSymbol b))
      else if hi : i < 64 then
        fillDistinct? (seen.set b.toNat true h) (places.set i b hi) (i + 1) bs
      else none
    else none

/-- Reads a tray as `ofString` does, but fails where a mark or a place is missing. -/
def ofString? (s : String) : Option (Except Refusal Tray) :=
  if s.length = 32 ∨ s.length = 64 then
    if (bytes s).all isGraphic = true then
      (fillDistinct? (Vector.replicate 128 false) blank 0 (bytes s)).map
        (Except.map (Tray.mk · s.length))
    else some (.error .unprintableSymbol)
  else some (.error (.unsupportedLength s.length))

/-- Puts bytes into places as `fillLiteral` does, but fails where there is no place. -/
def fillLiteral? (before : List UInt8) (places : Vector UInt8 64) :
    List UInt8 → Option (Except Alphabet.LiteralFault (Vector UInt8 64))
  | [] => some (.ok places)
  | b :: bs =>
    if isGraphic b then
      if b ∈ before then some (.error .repeated)
      else if h : before.length < 64 then
        fillLiteral? (before ++ [b]) (places.set before.length b h) bs
      else none
    else some (.error .unprintable)

/-- Reads a tray as `ofLiteral` does, but fails where a place is missing. -/
def ofLiteral? (s : String) : Option (Except Alphabet.LiteralFault Tray) :=
  if (bytes s).length = 32 ∨ (bytes s).length = 64 then
    (fillLiteral? [] blank (bytes s)).map (Except.map (Tray.mk · (bytes s).length))
  else some (.error .length)

theorem fillDistinct?_eq {marks : Vector Bool 128} (hlt : ∀ b ∈ bs, b.toNat < 128)
    (hroom : i + bs.length ≤ 64) :
    fillDistinct? marks places i bs = some (fillDistinct marks places i bs) := by
  induction bs generalizing marks places i with
  | nil => rfl
  | cons b bs ih =>
    obtain ⟨hb, hbs⟩ := List.forall_mem_cons.mp hlt
    rw [List.length_cons] at hroom
    rw [fillDistinct?, dif_pos hb, dif_pos (by omega), fillDistinct, Vector.getElem?_eq_getElem hb,
      Option.getD_some, set_eq_setIfInBounds, set_eq_setIfInBounds, ih hbs (by omega)]
    split <;> rfl

theorem fillLiteral?_eq (hroom : before.length + bs.length ≤ 64) :
    fillLiteral? before places bs = some (fillLiteral before places bs) := by
  induction bs generalizing before places with
  | nil => rfl
  | cons b bs ih =>
    rw [List.length_cons] at hroom
    have hnext : (before ++ [b]).length + bs.length ≤ 64 := by
      rw [List.length_append, List.length_singleton]
      omega
    rw [fillLiteral?, dif_pos (by omega), fillLiteral, set_eq_setIfInBounds, ih hnext]
    split
    · split <;> rfl
    · rfl

theorem ofString?_eq (s : String) :
    ofString? s = some ((Alphabet.ofString s).map Alphabet.tray) := by
  rw [← ofString_eq, ofString?, ofString]
  split
  · rename_i hl
    split
    · rename_i hg
      have hgraphic := List.all_eq_true.mp hg
      have hroom : 0 + (bytes s).length ≤ 64 := by
        rw [length_bytes_of_graphic hgraphic]
        omega
      rw [fillDistinct?_eq (fun b hb => lt_of_graphic (hgraphic b hb)) hroom]
      rfl
    · rfl
  · rfl

theorem ofLiteral?_eq (s : String) :
    ofLiteral? s = some ((Alphabet.ofLiteral s).map Alphabet.tray) := by
  rw [← ofLiteral_eq, ofLiteral?, ofLiteral]
  split
  · rename_i hl
    have hroom : ([] : List UInt8).length + (bytes s).length ≤ 64 := by
      rw [List.length_nil]
      omega
    rw [fillLiteral?_eq hroom]
    rfl
  · rfl

end Tray

namespace Alphabet

theorem exists_error_iff {ε α : Type} {x : Except ε α} :
    (∃ e, x = .error e) ↔ ¬ ∃ a, x = .ok a := by
  cases x <;> simp

/-- A text is read as an alphabet when it is a proper one, as the alphabet whose text it is, and is
otherwise refused for its flaw. A literal makes the same alphabet or none. Where symbols are marked
and put into places, as many of both as there are suffice, and the alphabet lies in its tray. -/
theorem validation_exact :
    (∀ s, (∃ a, ofString s = .ok a) ↔ Proper s) ∧
    (∀ s a, ofString s = .ok a ↔ a.text = s) ∧
    (∀ s e, ofString s = .error e ↔ Flaw s e) ∧
    (∀ s, (∃ fault, ofLiteral s = .error fault) ↔ ∃ e, ofString s = .error e) ∧
    (∀ s a, ofLiteral s = .ok a ↔ ofString s = .ok a) ∧
    ∀ s, Tray.ofString? s = some ((ofString s).map tray) ∧
      Tray.ofLiteral? s = some ((ofLiteral s).map tray) := by
  refine ⟨fun s => ?_, fun s a => ofString_eq_ok_iff, fun s e => ofString_eq_error_iff,
    fun s => ?_, fun s a => ?_, fun s => ⟨Tray.ofString?_eq s, Tray.ofLiteral?_eq s⟩⟩
  · simp only [ofString_eq_ok_iff, proper_iff]
  · simp only [exists_error_iff, ofLiteral_eq_ok_iff, ofString_eq_ok_iff]
  · rw [ofLiteral_eq_ok_iff, ofString_eq_ok_iff]

/-- Sixteen characters of two bytes each: too few for a text, and none of them good in a literal. -/
example : ofString "éééééééééééééééé" = .error (.unsupportedLength 16) ∧
    ofLiteral "éééééééééééééééé" = .error .unprintable := by decide +kernel

end Alphabet

end IdMint
