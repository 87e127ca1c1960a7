import IdMint.Json.Reader
import IdMint.Json.Writer
import Mathlib.Tactic.SplitIfs

/-! A string in JSON text may spell its characters in several ways. However that is done, it is read
as the text it spells, and what the writer writes is one of the ways. -/
namespace IdMint.Json

/-- The number that four hexadecimal digits stand for. -/
def hexUnit? (a b c d : Char) : Option Nat := do
  return 4096 * (← hexValue? a) + 256 * (← hexValue? b) + 16 * (← hexValue? c) + (← hexValue? d)

/-- What may stand for a character between quotes. -/
inductive Spelling : List Char → Char → Prop where
  | plain {c : Char} (hc : 32 ≤ c.toNat) (hquote : c ≠ '"') (hslash : c ≠ '\\') : Spelling [c] c
  | short {e c : Char} (h : shortEscape? e = some c.toNat) : Spelling ['\\', e] c
  | unit {a b d e c : Char} (h : hexUnit? a b d e = some c.toNat) :
      Spelling ['\\', 'u', a, b, d, e] c
  /-- Two halves of a surrogate pair. -/
  | pair {a₁ a₂ a₃ a₄ b₁ b₂ b₃ b₄ c : Char} {high low : Nat}
      (hhigh : hexUnit? a₁ a₂ a₃ a₄ = some high) (hlow : hexUnit? b₁ b₂ b₃ b₄ = some low)
      (hh : isHighHalf high = true) (hl : isLowHalf low = true)
      (hc : c.toNat = 0x10000 + (high - 0xd800) * 1024 + (low - 0xdc00)) :
      Spelling ['\\', 'u', a₁, a₂, a₃, a₄, '\\', 'u', b₁, b₂, b₃, b₄] c

/-- What may stand for a text between quotes. -/
inductive Spells : List Char → List Char → Prop where
  | nil : Spells [] []
  | cons {l ls cs : List Char} {c : Char} (h : Spelling l c) (hs : Spells ls cs) :
      Spells (l ++ ls) (c :: cs)

variable {a b c d e : Char} {k l cs rest : List Char} {n : Nat} {name s : String}

theorem scanString_plain (hc : 32 ≤ c.toNat) (hquote : c ≠ '"') (hslash : c ≠ '\\') :
    scanString (c :: rest) = (scanString rest).map fun r => (c.toNat :: r.1, r.2) := by
  have hplain : ¬ (c.toNat < 32 ∨ c = '\\') := by
    rintro (h | h)
    · omega
    · exact hslash h
  rw [scanString, if_neg hplain]
  · cases scanString rest <;> rfl
  · exact hquote
  · intro _ _ _ _ _ h
    exact absurd h hslash
  · intro _ _ h
    exact absurd h hslash

theorem scanString_short (h : shortEscape? e = some n) :
    scanString ('\\' :: e :: rest) = (scanString rest).map fun r => (n :: r.1, r.2) := by
  rw [scanString, h]
  · cases scanString rest <;> rfl
  · rintro _ _ _ _ _ rfl
    cases h

theorem scanString_unit (h : hexUnit? a b c d = some n) :
    scanString ('\\' :: 'u' :: a :: b :: c :: d :: rest) =
      (scanString rest).map fun r => (n :: r.1, r.2) := by
  have hscan : scanString ('\\' :: 'u' :: a :: b :: c :: d :: rest) =
      (hexUnit? a b c d).bind fun n => (scanString rest).map fun r => (n :: r.1, r.2) := by
    rw [scanString, hexUnit?]
    cases hexValue? a <;> cases hexValue? b <;> cases hexValue? c <;> cases hexValue? d <;> try rfl
    cases scanString rest <;> rfl
  rw [hscan, h]
  rfl

/-- A character is no half of a surrogate pair. -/
theorem char_not_half (c : Char) : isHighHalf c.toNat = false ∧ isLowHalf c.toNat = false := by
  have hvalid : c.toNat < 0xd800 ∨ (0xdfff < c.toNat ∧ c.toNat < 0x110000) := c.valid
  simp only [isHighHalf, isLowHalf, Bool.and_eq_false_iff, decide_eq_false_iff_not, Nat.not_le]
  omega

theorem joinHalves_char (c : Char) (units : List Nat) :
    joinHalves (c.toNat :: units) = (joinHalves units).map (c :: ·) := by
  obtain ⟨hhigh, hlow⟩ := char_not_half c
  cases units with
  | nil => simp [joinHalves, hhigh, hlow]
  | cons m units =>
    simp only [joinHalves, hhigh, hlow, Bool.false_eq_true, if_false, Char.ofNat_toNat]

theorem joinHalves_pair {high low : Nat} (hh : isHighHalf high = true) (hl : isLowHalf low = true)
    (hc : c.toNat = 0x10000 + (high - 0xd800) * 1024 + (low - 0xdc00)) (units : List Nat) :
    joinHalves (high :: low :: units) = (joinHalves units).map (c :: ·) := by
  simp only [joinHalves, hh, hl, if_true, ← hc, Char.ofNat_toNat]

/-- A spelling is scanned into units that join to the character, whatever comes behind it. -/
theorem scanString_spelling (h : Spelling l c) : ∃ units : List Nat,
    (∀ rest, scanString (l ++ rest) = (scanString rest).map fun r => (units ++ r.1, r.2)) ∧
      ∀ more, joinHalves (units ++ more) = (joinHalves more).map (c :: ·) := by
  cases h with
  | plain hc hquote hslash =>
    exact ⟨[c.toNat], fun _ => scanString_plain hc hquote hslash, joinHalves_char c⟩
  | short h => exact ⟨[c.toNat], fun _ => scanString_short h, joinHalves_char c⟩
  | unit h => exact ⟨[c.toNat], fun _ => scanString_unit h, joinHalves_char c⟩
  | @pair _ _ _ _ _ _ _ _ _ high low hhigh hlow hh hl hc =>
    refine ⟨[high, low], fun rest => ?_, joinHalves_pair hh hl hc⟩
    refine (scanString_unit hhigh).trans ?_
    exact (congrArg (Option.map _) (scanString_unit hlow)).trans (Option.map_map _ _ _)

theorem scanString_spells (h : Spells l cs) (rest : List Char) : ∃ units : List Nat,
    scanString (l ++ '"' :: rest) = some (units, rest) ∧ joinHalves units = some cs := by
  induction h with
  | nil => exact ⟨[], rfl, rfl⟩
  | cons hc _ ih =>
    obtain ⟨units, hscan, hjoin⟩ := ih
    obtain ⟨first, hfirst, hmore⟩ := scanString_spelling hc
    refine ⟨first ++ units, ?_, ?_⟩
    · rw [List.append_assoc, hfirst, hscan]
      rfl
    · rw [hmore, hjoin]
      rfl

/-- However a text is spelled, it is what is read. -/
theorem readString_spells (h : Spells l s.toList) (rest : List Char) :
    readString (l ++ '"' :: rest) = some (some s, rest) := by
  obtain ⟨units, hscan, hjoin⟩ := scanString_spells h rest
  simp only [readString, hscan, Option.map_some, hjoin, String.ofList_toList]

theorem hexUnit?_control : ∀ n < 32,
    hexUnit? '0' '0' (Nat.digitChar (n / 16)) (Nat.digitChar (n % 16)) = some n := by decide

/-- The writer spells every character. -/
theorem spelling_escapeChar (c : Char) : Spelling (escapeChar c) c := by
  rw [escapeChar]
  split_ifs with hquote hslash hb hf hn hr ht hcontrol
  any_goals
    subst c
    exact .short rfl
  · exact .unit (hexUnit?_control _ hcontrol)
  · exact .plain (Nat.le_of_not_lt hcontrol) hquote hslash

theorem spells_escaped (cs : List Char) : Spells (cs.flatMap escapeChar) cs := by
  induction cs with
  | nil => exact .nil
  | cons c cs ih => exact .cons (spelling_escapeChar c) ih

theorem skipBlank_cons {c : Char} (h : c ∉ [' ', '\t', '\n', '\r']) (cs : List Char) :
    skipBlank (c :: cs) = c :: cs := by
  simp only [List.mem_cons, List.not_mem_nil, or_false, not_or] at h
  simp [skipBlank, h]

theorem readValue_string (h : Spells l s.toList) (fuel : Nat) (rest : List Char) :
    readValue (fuel + 1) ('"' :: (l ++ '"' :: rest)) = some (.text s, rest) := by
  rw [readValue, skipBlank_cons (by decide)]
  simp only [readString_spells h, Option.map_some]
  rfl

theorem readMembers_string (hk : Spells k name.toList) (h : Spells l s.toList) (fuel : Nat)
    (rest : List Char) :
    readMembers (fuel + 2) ('"' :: (k ++ '"' :: ':' :: '"' :: (l ++ '"' :: '\x7d' :: rest))) =
      some ([(some name, .text s)], rest) := by
  have hcolon := skipBlank_cons (c := ':') (by decide)
  have hbrace := skipBlank_cons (c := '\x7d') (by decide)
  rw [readMembers, skipBlank_cons (by decide)]
  simp only [readString_spells hk, hcolon, readValue_string h, hbrace, Option.bind_eq_bind,
    Option.bind_some]

/-- An object with one string in it is read as such, however its name and the string are spelled. -/
theorem readValue_object (hk : Spells k name.toList) (h : Spells l s.toList) (fuel : Nat)
    (rest : List Char) :
    readValue (fuel + 3)
        ('\x7b' :: '"' :: (k ++ '"' :: ':' :: '"' :: (l ++ '"' :: '\x7d' :: rest))) =
      some (.object [(some name, .text s)], rest) := by
  have hquote := skipBlank_cons (c := '"') (by decide)
  rw [readValue, skipBlank_cons (by decide)]
  simp only [hquote]
  exact congrArg (Option.map fun r => (Value.object r.1, r.2)) (readMembers_string hk h fuel rest)

end IdMint.Json
