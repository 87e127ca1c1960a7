import IdMint.Distinct
import IdMint.Refusal
import IdMint.Shuffle
import IdMint.Text.Bytes

/-! Alphabets of 32 or 64 distinct printable symbols, made from text, from a literal, or by
permuting another one. -/
namespace IdMint

open Text

/-- An ordered set of 32 or 64 distinct printable ASCII symbols. -/
structure Alphabet where
  symbols : List UInt8
  length_eq : symbols.length = 32 ∨ symbols.length = 64
  graphic : ∀ b ∈ symbols, isGraphic b = true
  nodup : symbols.Nodup
deriving DecidableEq

namespace Alphabet

/-- How many symbols there are: 32 or 64. -/
def size (a : Alphabet) : Nat := a.symbols.length

theorem size_eq (a : Alphabet) : a.size = 32 ∨ a.size = 64 := a.length_eq

theorem size_pos (a : Alphabet) : 0 < a.size := by have := a.size_eq; omega

def text (a : Alphabet) : String := ofAscii a.symbols

/-- Bits that one symbol carries. -/
def bits (a : Alphabet) : Nat := if a.size = 32 then 5 else 6

/-- Bits of payload in a packed symbol, whose top bit is filler. -/
def dataBits (a : Alphabet) : Nat := a.bits - 1

def maxWorker (a : Alphabet) : Nat := (1 <<< a.dataBits) - 1

/-- The symbol at an index, which counts round the alphabet. -/
def symbol (a : Alphabet) (index : Nat) : UInt8 :=
  have h : index % a.symbols.length < a.symbols.length := Nat.mod_lt _ a.size_pos
  a.symbols[index % a.symbols.length]

/-- The index of a symbol, if the byte is one. -/
def index? (a : Alphabet) (b : UInt8) : Option Nat := a.symbols.idxOf? b

/-- Reads an alphabet from text. The count of characters is judged first, then whether all of them
are printable, then whether one repeats. -/
def ofString (s : String) : Except Refusal Alphabet :=
  if hl : s.length = 32 ∨ s.length = 64 then
    if hg : (bytes s).all isGraphic = true then
      match hd : Distinct.firstRepeat (bytes s) with
      | some b => .error (.duplicateSymbol b)
      | none => .ok {
          symbols := bytes s
          length_eq := by rwa [length_bytes_of_graphic (List.all_eq_true.1 hg)]
          graphic := List.all_eq_true.1 hg
          nodup := Distinct.nodup_of_firstRepeat hd }
    else .error .unprintableSymbol
  else .error (.unsupportedLength s.length)

def shuffled (a : Alphabet) (seed : UInt64) : Alphabet where
  symbols := Shuffle.shuffle a.symbols seed
  length_eq := by rw [(Shuffle.shuffle_perm _ _).length_eq]; exact a.length_eq
  graphic b hb := a.graphic b ((Shuffle.shuffle_perm _ _).mem_iff.1 hb)
  nodup := (Shuffle.shuffle_perm _ _).nodup_iff.2 a.nodup

inductive LiteralFault where
  | length
  | unprintable
  | repeated
deriving DecidableEq, Repr

def LiteralFault.message : LiteralFault → String
  | length => "alphabet must contain exactly 32 or 64 symbols"
  | unprintable => "alphabet must be printable ASCII"
  | repeated => "alphabet symbols must be unique"

/-- The first fault of a literal's bytes, where `seen` have been found good: each byte is judged
whole, first on its own and then against those before it. -/
def literalFault (seen : List UInt8) : List UInt8 → Option LiteralFault
  | [] => none
  | b :: bs =>
    if isGraphic b then
      if b ∈ seen then some .repeated else literalFault (b :: seen) bs
    else some .unprintable

theorem graphic_of_literalFault {seen bs : List UInt8} (h : literalFault seen bs = none) :
    ∀ b ∈ bs, isGraphic b = true := by
  induction bs generalizing seen with
  | nil => simp
  | cons b bs ih =>
    simp only [literalFault] at h
    split at h
    · rename_i hb
      split at h
      · simp at h
      · simpa [hb] using ih h
    · simp at h

theorem nodup_of_literalFault {seen bs : List UInt8} (h : literalFault seen bs = none) :
    bs.Nodup ∧ ∀ b ∈ bs, b ∉ seen := by
  induction bs generalizing seen with
  | nil => simp
  | cons b bs ih =>
    simp only [literalFault] at h
    split at h
    · split at h
      · simp at h
      · rename_i hb
        obtain ⟨hn, hm⟩ := ih h
        refine ⟨List.nodup_cons.2 ⟨fun hb => hm b hb (by simp), hn⟩, ?_⟩
        intro c hc
        rcases List.mem_cons.1 hc with rfl | hc
        · exact hb
        · exact fun hs => hm c hc (by simp [hs])
    · simp at h

def ofLiteral (s : String) : Except LiteralFault Alphabet :=
  if hl : (bytes s).length = 32 ∨ (bytes s).length = 64 then
    match hf : literalFault [] (bytes s) with
    | some fault => .error fault
    | none => .ok {
        symbols := bytes s
        length_eq := hl
        graphic := graphic_of_literalFault hf
        nodup := (nodup_of_literalFault hf).1 }
  else .error .length

def standardText : String := "0123456789abcdefghijklmnopqrstuvwxyzABCDEFGHIJKLMNOPQRSTUVWXYZ_-"

/-- The symbols of the 32-symbol alphabet that leaves out letters easily misread. -/
def base32Text : String := "0123456789ABCDEFGHJKMNPQRSTVWXYZ"

/-- Digits, lower case, upper case, then `_` and `-`. -/
def standard : Alphabet where
  symbols := [48, 49, 50, 51, 52, 53, 54, 55, 56, 57, 97, 98, 99, 100, 101, 102, 103, 104, 105,
    106, 107, 108, 109, 110, 111, 112, 113, 114, 115, 116, 117, 118, 119, 120, 121, 122, 65, 66,
    67, 68, 69, 70, 71, 72, 73, 74, 75, 76, 77, 78, 79, 80, 81, 82, 83, 84, 85, 86, 87, 88, 89,
    90, 95, 45]
  length_eq := .inr rfl
  graphic := List.all_eq_true.1 (by decide)
  nodup := Distinct.nodup_of_firstRepeat (by decide)

/-- Digits and upper case without `I`, `L`, `O` and `U`. -/
def base32 : Alphabet where
  symbols := [48, 49, 50, 51, 52, 53, 54, 55, 56, 57, 65, 66, 67, 68, 69, 70, 71, 72, 74, 75, 77,
    78, 80, 81, 82, 83, 84, 86, 87, 88, 89, 90]
  length_eq := .inl rfl
  graphic := List.all_eq_true.1 (by decide)
  nodup := Distinct.nodup_of_firstRepeat (by decide)

end Alphabet

end IdMint
