import IdMint.Decimal
import IdMint.Proofs.Alphabet
import IdMint.Proofs.Digits

/-! Decimal text is made of digits that stand for its number, and a number that takes up a fixed
width is read back. -/
namespace IdMint.Decimal

open Text

variable {b : UInt8} {d n : Nat}

def digitByte (d : Nat) : UInt8 := UInt8.ofNat (48 + d)

/-- The number that the bytes of digits stand for, most significant first. -/
def number (bs : List UInt8) : Nat := Digits.value 10 (bs.map digit).reverse

theorem digitByte_props : ∀ d < 10, isDigit (digitByte d) = true ∧ digit (digitByte d) = d ∧
    isGraphic (digitByte d) = true ∧ digitChar d = Char.ofUInt8 (digitByte d) := by
  decide

/-- A byte that is a digit is the byte of its digit. -/
theorem digitByte_digit (h : isDigit b = true) : digit b < 10 ∧ digitByte (digit b) = b := by
  simp only [isDigit, Bool.and_eq_true, decide_eq_true_eq, UInt8.le_iff_toNat_le] at h
  have hlow : 48 ≤ b.toNat := h.1
  have hhigh : b.toNat ≤ 57 := h.2
  constructor
  · rw [digit]
    omega
  · rw [digitByte, digit, Nat.add_sub_cancel' hlow, UInt8.ofNat_toNat]

theorem digit_lt_of_mem (h : d ∈ Digits.ofNat 10 n) : d < 10 :=
  Digits.lt_of_mem_ofNat (by decide) h

theorem digit_lt_of_mem_reverse : ∀ d ∈ (Digits.ofNat 10 n).reverse, d < 10 :=
  fun _ hd => digit_lt_of_mem (List.mem_reverse.mp hd)

section Spelled

variable {ds : List Nat} (h : ∀ d ∈ ds, d < 10)
include h

theorem graphic_digits : ∀ b ∈ ds.map digitByte, isGraphic b = true := by
  intro b hb
  obtain ⟨d, hd, rfl⟩ := List.mem_map.mp hb
  exact (digitByte_props d (h d hd)).2.2.1

/-- Digits are spelled by their bytes. -/
theorem bytes_ofList_digits : bytes (String.ofList (ds.map digitChar)) = ds.map digitByte := by
  have hspelled : String.ofList (ds.map digitChar) = ofAscii (ds.map digitByte) := by
    rw [ofAscii, List.map_map]
    congr 1
    apply List.map_congr_left
    intro d hd
    exact (digitByte_props d (h d hd)).2.2.2
  rw [hspelled]
  exact bytes_ofAscii (graphic_digits h)

theorem hyphen_not_mem_digits : '-' ∉ (String.ofList (ds.map digitChar)).toList := by
  have hdigits : ∀ d < 10, digitChar d ≠ '-' := by decide
  rw [String.toList_ofList]
  intro hmem
  obtain ⟨d, hd, he⟩ := List.mem_map.mp hmem
  exact hdigits d (h d hd) he

theorem isDigit_digits : ∀ b ∈ ds.map digitByte, isDigit b = true := by
  intro b hb
  obtain ⟨d, hd, rfl⟩ := List.mem_map.mp hb
  exact (digitByte_props d (h d hd)).1

theorem map_digit_digitByte : (ds.map digitByte).map digit = ds := by
  rw [List.map_map]
  conv_rhs => rw [← List.map_id ds]
  apply List.map_congr_left
  intro d hd
  exact (digitByte_props d (h d hd)).2.1

theorem number_digits : number (ds.map digitByte) = Digits.value 10 ds.reverse := by
  rw [number, map_digit_digitByte h]

end Spelled

theorem toList_text (n : Nat) : (text n).toList = (Digits.ofNat 10 n).reverse.map digitChar := by
  rw [text, String.toList_ofList]

theorem bytes_text (n : Nat) : bytes (text n) = (Digits.ofNat 10 n).reverse.map digitByte :=
  bytes_ofList_digits digit_lt_of_mem_reverse

theorem graphic_text (n : Nat) : ∀ b ∈ bytes (text n), isGraphic b = true := by
  rw [bytes_text]
  exact graphic_digits digit_lt_of_mem_reverse

theorem hyphen_not_mem_text (n : Nat) : '-' ∉ (text n).toList :=
  hyphen_not_mem_digits digit_lt_of_mem_reverse

theorem isDigit_of_mem_bytes_text (h : b ∈ bytes (text n)) : isDigit b = true := by
  rw [bytes_text] at h
  exact isDigit_digits digit_lt_of_mem_reverse b h

theorem number_bytes_text (n : Nat) : number (bytes (text n)) = n := by
  rw [bytes_text, number_digits digit_lt_of_mem_reverse, List.reverse_reverse, Digits.value_ofNat]

theorem number_concat (bs : List UInt8) (b : UInt8) :
    number (bs ++ [b]) = number bs * 10 + digit b := by
  rw [number, List.map_append]
  exact Digits.value_reverse_concat 10 (bs.map digit) (digit b)

theorem number_le_append (bs cs : List UInt8) : number bs ≤ number (bs ++ cs) := by
  rw [number, number, List.map_append]
  exact Digits.value_reverse_le_append (by decide) (bs.map digit) (cs.map digit)

def ofWidth? (width : Nat) (s : String) : Option Nat :=
  if (bytes s).length = width ∧ (bytes s).all isDigit then some (number (bytes s)) else none

theorem digit_lt_of_mem_padded {width : Nat} : ∀ d ∈ (Digits.ofNat 10 n ++
    List.replicate (width - (Digits.ofNat 10 n).length) 0).reverse, d < 10 := by
  intro d hd
  rcases List.mem_append.mp (List.mem_reverse.mp hd) with hd | hd
  · exact digit_lt_of_mem hd
  · rw [List.eq_of_mem_replicate hd]
    decide

theorem hyphen_not_mem_padded (width n : Nat) : '-' ∉ (padded width n).toList :=
  hyphen_not_mem_digits digit_lt_of_mem_padded

/-- A number that is not too wide takes up the width exactly, and is read back. -/
theorem ofWidth?_padded {width : Nat} (hwidth : 0 < width) (h : n < 10 ^ width) :
    ofWidth? width (padded width n) = some n := by
  have hbytes : bytes (padded width n) = _ := bytes_ofList_digits digit_lt_of_mem_padded
  have hlength : (bytes (padded width n)).length = width := by
    have hle : (Digits.ofNat 10 n).length ≤ width :=
      (Digits.width_le_iff (by decide) hwidth).mpr h
    rw [hbytes, List.length_map, List.length_reverse, List.length_append, List.length_replicate]
    omega
  have hdigits : (bytes (padded width n)).all isDigit = true := by
    rw [hbytes]
    exact List.all_eq_true.mpr (isDigit_digits digit_lt_of_mem_padded)
  have hnumber : number (bytes (padded width n)) = n := by
    rw [hbytes, number_digits digit_lt_of_mem_padded, List.reverse_reverse,
      Digits.value_eq_ofDigits, Nat.ofDigits_append_replicate_zero, ← Digits.value_eq_ofDigits,
      Digits.value_ofNat]
  rw [ofWidth?, if_pos ⟨hlength, hdigits⟩, hnumber]

end IdMint.Decimal
