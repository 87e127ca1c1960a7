/-! The bytes that text is written in. A character is one byte long exactly when it is ASCII, so a
text all of whose bytes are ASCII has as many bytes as characters. -/
namespace IdMint.Text

def bytes (s : String) : List UInt8 := s.toList.flatMap String.utf8EncodeChar

/-- The text that ASCII bytes spell. -/
def ofAscii (bs : List UInt8) : String := String.ofList (bs.map Char.ofUInt8)

/-- A byte of printable ASCII other than the space. -/
def isGraphic (b : UInt8) : Bool := 0x21 ≤ b && b ≤ 0x7e

def isDigit (b : UInt8) : Bool := 0x30 ≤ b && b ≤ 0x39

theorem utf8EncodeChar_of_graphic {c : Char}
    (h : ∀ b ∈ String.utf8EncodeChar c, isGraphic b = true) :
    String.utf8EncodeChar c = [UInt8.ofNat c.val.toNat] := by
  unfold String.utf8EncodeChar at h ⊢
  dsimp only at h ⊢
  by_cases h1 : c.val.toNat ≤ 127
  · rw [if_pos h1]
  · rw [if_neg h1] at h
    have last := h (UInt8.ofNat (c.val.toNat % 64 + 128)) (by
      split
      · simp
      · split <;> simp)
    simp only [isGraphic, Bool.and_eq_true, decide_eq_true_eq, UInt8.le_iff_toNat_le] at last
    have : (UInt8.ofNat (c.val.toNat % 64 + 128)).toNat = c.val.toNat % 64 + 128 := by
      rw [UInt8.toNat_ofNat']
      omega
    have : (0x7e : UInt8).toNat = 126 := rfl
    omega

theorem length_bytes_of_graphic {s : String} (h : ∀ b ∈ bytes s, isGraphic b = true) :
    (bytes s).length = s.length := by
  rw [← String.length_toList, bytes]
  rw [bytes] at h
  generalize s.toList = cs at h
  induction cs with
  | nil => rfl
  | cons c cs ih =>
    simp only [List.flatMap_cons, List.mem_append] at h
    rw [List.flatMap_cons, List.length_append, ih fun b hb => h b (.inr hb),
      utf8EncodeChar_of_graphic fun b hb => h b (.inl hb), List.length_singleton,
      List.length_cons, Nat.add_comm]

end IdMint.Text
