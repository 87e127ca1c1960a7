import IdMint.Alphabet
import Mathlib.Data.List.Basic

/-! A text tells the bytes that spelled it, an alphabet is told by its text, and a symbol tells its
index. -/
namespace IdMint

namespace Text

theorem utf8EncodeChar_ofUInt8 {b : UInt8} (h : isGraphic b = true) :
    String.utf8EncodeChar (Char.ofUInt8 b) = [b] := by
  have hval : (Char.ofUInt8 b).val = b.toUInt32 := rfl
  have hsize : (Char.ofUInt8 b).utf8Size = 1 := by
    simp only [isGraphic, Bool.and_eq_true, decide_eq_true_eq, UInt8.le_iff_toNat_le] at h
    rw [Char.utf8Size_eq_one_iff, UInt32.le_iff_toNat_le, hval, UInt8.toNat_toUInt32]
    exact Nat.le_trans h.2 (by decide)
  rw [String.utf8EncodeChar_eq_singleton hsize, hval, UInt8.toUInt8_toUInt32]

theorem bytes_ofAscii {bs : List UInt8} (h : ∀ b ∈ bs, isGraphic b = true) :
    bytes (ofAscii bs) = bs := by
  rw [bytes, ofAscii, String.toList_ofList, List.flatMap_map]
  induction bs with
  | nil => rfl
  | cons b bs ih =>
    rw [List.flatMap_cons, utf8EncodeChar_ofUInt8 (h b (List.mem_cons_self ..)),
      ih fun c hc => h c (List.mem_cons_of_mem b hc)]
    rfl

theorem map_utf8EncodeChar_of_graphic {c : Char}
    (h : ∀ b ∈ String.utf8EncodeChar c, isGraphic b = true) :
    (String.utf8EncodeChar c).map Char.ofUInt8 = [c] := by
  have hsize : c.utf8Size = 1 := by
    rw [← String.length_utf8EncodeChar, utf8EncodeChar_of_graphic h, List.length_singleton]
  rw [String.utf8EncodeChar_eq_singleton hsize, List.map_singleton]
  have hval := Char.utf8Size_eq_one_iff.mp hsize
  rw [UInt32.le_iff_toNat_le] at hval
  have hlt : c.val.toNat < 2 ^ 8 := Nat.lt_of_le_of_lt hval (by decide)
  have hc : Char.ofUInt8 c.val.toUInt8 = c := by
    apply Char.ext
    apply UInt32.toNat_inj.mp
    change c.val.toUInt8.toUInt32.toNat = c.val.toNat
    rw [UInt8.toNat_toUInt32, UInt32.toNat_toUInt8, Nat.mod_eq_of_lt hlt]
  rw [hc]

/-- A text of printable bytes is spelled by them. -/
theorem ofAscii_bytes {s : String} (h : ∀ b ∈ bytes s, isGraphic b = true) :
    ofAscii (bytes s) = s := by
  have hlist : (bytes s).map Char.ofUInt8 = s.toList := by
    rw [bytes] at h ⊢
    generalize s.toList = cs at h ⊢
    induction cs with
    | nil => rfl
    | cons c cs ih =>
      simp only [List.flatMap_cons, List.mem_append] at h
      rw [List.flatMap_cons, List.map_append, ih fun b hb => h b (.inr hb),
        map_utf8EncodeChar_of_graphic fun b hb => h b (.inl hb), List.singleton_append]
  rw [ofAscii, hlist, String.ofList_toList]

theorem toList_of_graphic {s : String} (h : ∀ b ∈ bytes s, isGraphic b = true) :
    s.toList = (bytes s).map Char.ofUInt8 := by
  have hs := congrArg String.toList (ofAscii_bytes h)
  rwa [ofAscii, String.toList_ofList, eq_comm] at hs

theorem ofUInt8_inj {b c : UInt8} (h : Char.ofUInt8 b = Char.ofUInt8 c) : b = c := by
  have hval := congrArg Char.val h
  change b.toUInt32 = c.toUInt32 at hval
  have hnat := congrArg UInt32.toNat hval
  rw [UInt8.toNat_toUInt32, UInt8.toNat_toUInt32] at hnat
  exact UInt8.toNat_inj.mp hnat

theorem newline_not_mem_of_graphic {s : String} (h : ∀ b ∈ bytes s, isGraphic b = true) :
    '\n' ∉ s.toList := by
  rw [toList_of_graphic h]
  intro hmem
  obtain ⟨b, hb, hbreak⟩ := List.mem_map.mp hmem
  have hten : b = 10 := ofUInt8_inj hbreak
  subst hten
  exact absurd (h 10 hb) (by decide)

end Text

namespace Distinct

variable {α : Type} [DecidableEq α]

theorem firstRepeatAfter_of_nodup {seen xs : List α} (h : xs.Nodup) (hs : ∀ x ∈ xs, x ∉ seen) :
    firstRepeatAfter seen xs = none := by
  induction xs generalizing seen with
  | nil => rfl
  | cons x xs ih =>
    obtain ⟨hx, hxs⟩ := List.nodup_cons.mp h
    rw [firstRepeatAfter, if_neg (hs x (List.mem_cons_self ..))]
    apply ih hxs
    intro y hy hmem
    rcases List.mem_cons.mp hmem with rfl | hmem
    · exact hx hy
    · exact hs y (List.mem_cons_of_mem x hy) hmem

theorem firstRepeat_of_nodup {xs : List α} (h : xs.Nodup) : firstRepeat xs = none :=
  firstRepeatAfter_of_nodup h fun _ _ => List.not_mem_nil

theorem isUnique_iff {s : String} : isUnique s = true ↔ s.toList.Nodup := by
  rw [isUnique, Option.isNone_iff_eq_none]
  exact ⟨nodup_of_firstRepeat, firstRepeat_of_nodup⟩

end Distinct

namespace Alphabet

open Text

@[simp] theorem bytes_text (a : Alphabet) : bytes a.text = a.symbols := bytes_ofAscii a.graphic

theorem text_inj {a b : Alphabet} : a.text = b.text ↔ a = b := by
  constructor
  · intro h
    have hs : a.symbols = b.symbols := by rw [← bytes_text, ← bytes_text, h]
    obtain ⟨_, _, _, _⟩ := a
    obtain ⟨_, _, _, _⟩ := b
    cases hs
    rfl
  · exact congrArg _

/-- The text of an alphabet is read as that alphabet. -/
theorem ofString_text (a : Alphabet) : ofString a.text = .ok a := by
  have hb := a.bytes_text
  have hg : (bytes a.text).all isGraphic = true := by
    rw [hb]
    exact List.all_eq_true.mpr a.graphic
  have hl : a.text.length = 32 ∨ a.text.length = 64 := by
    rw [← length_bytes_of_graphic (List.all_eq_true.mp hg), hb]
    exact a.length_eq
  have hd : Distinct.firstRepeat (bytes a.text) = none := by
    rw [hb]
    exact Distinct.firstRepeat_of_nodup a.nodup
  rw [ofString, dif_pos hl, dif_pos hg]
  split
  · simp_all
  · simp_all

/-- A text that is read as an alphabet is the text of that alphabet. -/
theorem ofString_eq_ok_iff {s : String} {a : Alphabet} : ofString s = .ok a ↔ a.text = s := by
  constructor
  · intro h
    unfold ofString at h
    split at h
    · split at h
      · rename_i hg
        split at h
        · cases h
        · cases h
          exact ofAscii_bytes (List.all_eq_true.mp hg)
      · cases h
    · cases h
  · rintro rfl
    exact a.ofString_text

theorem toList_text (a : Alphabet) : a.text.toList = a.symbols.map Char.ofUInt8 := by
  rw [text, ofAscii, String.toList_ofList]

@[simp] theorem size_shuffled (a : Alphabet) (seed : UInt64) : (a.shuffled seed).size = a.size :=
  (Shuffle.shuffle_perm a.symbols seed).length_eq

@[simp] theorem maxWorker_shuffled (a : Alphabet) (seed : UInt64) :
    (a.shuffled seed).maxWorker = a.maxWorker := by
  simp only [maxWorker, dataBits, bits, size_shuffled]

@[simp] theorem symbol_mem (a : Alphabet) (i : Nat) : a.symbol i ∈ a.symbols := List.getElem_mem _

theorem index?_symbol (a : Alphabet) (i : Nat) : a.index? (a.symbol i) = some (i % a.size) := by
  have hidx : a.symbols.idxOf (a.symbol i) = i % a.size :=
    a.nodup.idxOf_getElem (i % a.size) (Nat.mod_lt _ a.size_pos)
  cases h : a.index? (a.symbol i) with
  | none => exact absurd (a.symbol_mem i) (List.idxOf?_eq_none_iff.mp h)
  | some j =>
    rw [List.idxOf_eq_getD_idxOf?, ← index?, h] at hidx
    exact congrArg some hidx

theorem two_le_shiftLeft_dataBits (a : Alphabet) : 2 ≤ 1 <<< a.dataBits := by
  rcases a.size_eq with h | h <;> simp [dataBits, bits, h]

theorem size_eq_two_mul (a : Alphabet) : a.size = 2 * 1 <<< a.dataBits := by
  rcases a.size_eq with h | h <;> simp [dataBits, bits, h]

end Alphabet

end IdMint
