import IdMint.Proofs.Alphabet
import IdMint.Proofs.ShortId.Overlap
import IdMint.ShortId.Issuer

/-! Packing writes the digits of the fields one after the other. They can be read back whatever the
filler is, and with the filler they make the text. -/
namespace IdMint.ShortId

variable {a : Alphabet} {source : Nat → UInt64} {filler : Filler} {ds es : List Nat} {d : Nat}

/-- The digit that a packed symbol carries, its filler bit left out. -/
def digitOf (a : Alphabet) (symbol : UInt8) : Nat :=
  (a.index? symbol).getD 0 % 1 <<< a.dataBits

/-- The digits that the symbols of a text carry. -/
def digitsOf (a : Alphabet) (text : String) : List Nat := (Text.bytes text).map (digitOf a)

/-- The index of a packed symbol is its digit, and above it a bit of the filler. -/
theorem index?_packedSymbol (hd : d < 1 <<< a.dataBits) (byte : UInt8) :
    a.index? (packedSymbol a d byte) =
      some (1 <<< a.dataBits * (byte.toNat >>> a.dataBits % 2) + d) := by
  have hbit : byte.toNat >>> a.dataBits % 2 < 2 := Nat.mod_lt _ (by decide)
  have hsize := a.size_eq_two_mul
  rw [packedSymbol, Alphabet.index?_symbol, Nat.shiftLeft_eq, Nat.mul_comm,
    ← Nat.one_shiftLeft a.dataBits]
  generalize byte.toNat >>> a.dataBits % 2 = bit at hbit ⊢
  generalize 1 <<< a.dataBits = base at hd hsize ⊢
  have hle : base * bit ≤ base * 1 := Nat.mul_le_mul_left base (Nat.le_of_lt_succ hbit)
  exact congrArg some (Nat.mod_eq_of_lt (by omega))

theorem digitOf_packedSymbol (hd : d < 1 <<< a.dataBits) (byte : UInt8) :
    digitOf a (packedSymbol a d byte) = d := by
  rw [digitOf, index?_packedSymbol hd, Option.getD_some, Nat.mul_add_mod_self_left,
    Nat.mod_eq_of_lt hd]

theorem map_digitOf_dress (hd : ∀ d ∈ ds, d < 1 <<< a.dataBits) :
    (dress a source filler ds).1.map (digitOf a) = ds := by
  induction ds generalizing filler with
  | nil => rfl
  | cons d ds ih =>
    simp only [dress, List.map_cons]
    rw [digitOf_packedSymbol (hd d (List.mem_cons_self ..)),
      ih fun e he => hd e (List.mem_cons_of_mem d he)]

theorem mem_symbols_of_dress : ∀ b ∈ (dress a source filler ds).1, b ∈ a.symbols := by
  induction ds generalizing filler with
  | nil => simp [dress]
  | cons d ds ih =>
    intro b hb
    rcases List.mem_cons.mp hb with rfl | hb
    · exact a.symbol_mem _
    · exact ih b hb

theorem graphic_dress : ∀ b ∈ (dress a source filler ds).1, Text.isGraphic b = true :=
  fun b hb => a.graphic b (mem_symbols_of_dress b hb)

theorem dress_append : dress a source filler (ds ++ es) =
    ((dress a source filler ds).1 ++ (dress a source (dress a source filler ds).2 es).1,
      (dress a source (dress a source filler ds).2 es).2) := by
  induction ds generalizing filler with
  | nil => rfl
  | cons d ds ih => simp only [List.cons_append, dress, ih]

/-- Numbers packed in turn are their digits dressed at once. -/
theorem foldl_pack (ns : List Nat) (written : List UInt8 × Filler) :
    ns.foldl (pack a source) written =
      (written.1 ++ (dress a source written.2 (ns.flatMap (Digits.ofNat (1 <<< a.dataBits)))).1,
        (dress a source written.2 (ns.flatMap (Digits.ofNat (1 <<< a.dataBits)))).2) := by
  induction ns generalizing written with
  | nil => simp [dress]
  | cons n ns ih => simp only [List.foldl_cons, ih, pack, List.flatMap_cons, dress_append,
      List.append_assoc]

namespace Issuer

variable {g : Issuer} {b : Beat}

/-- The fields of the identifier of a beat. -/
def mark (g : Issuer) (b : Beat) : Mark := ⟨b.millis, g.worker, b.counter.toNat⟩

theorem worker_lt (g : Issuer) : g.worker < 1 <<< g.alphabet.dataBits := by
  have hle := g.worker_le
  have hb := g.alphabet.two_le_shiftLeft_dataBits
  rw [Alphabet.maxWorker] at hle
  omega

theorem digits_fields : (g.fields b).flatMap (Digits.ofNat (1 <<< g.alphabet.dataBits)) =
    (g.mark b).digits (1 <<< g.alphabet.dataBits) := by
  by_cases h : b.counter = 0
  · simp [fields, mark, Mark.digits, h]
  · have hn : b.counter.toNat ≠ 0 := fun he => h (UInt64.toNat_inj.mp he)
    simp [fields, mark, Mark.digits, h, hn]

theorem packed_eq_dress : g.packed source b =
    dress g.alphabet source .empty ((g.mark b).digits (1 <<< g.alphabet.dataBits)) := by
  rw [packed, foldl_pack, digits_fields]
  rfl

theorem text_minted : (g.minted source b).text = Text.ofAscii
    (dress g.alphabet source .empty ((g.mark b).digits (1 <<< g.alphabet.dataBits))).1 := by
  simp only [minted, packed_eq_dress]

/-- The text of a beat is spelled in symbols of the alphabet. -/
theorem bytes_minted : ∀ c ∈ Text.bytes (g.minted source b).text, c ∈ g.alphabet.symbols := by
  rw [text_minted, Text.bytes_ofAscii graphic_dress]
  exact mem_symbols_of_dress

theorem lt_of_mem_digits :
    ∀ d ∈ (g.mark b).digits (1 <<< g.alphabet.dataBits), d < 1 <<< g.alphabet.dataBits := by
  intro d hd
  rw [← digits_fields] at hd
  obtain ⟨n, _, hmem⟩ := List.mem_flatMap.mp hd
  exact Digits.lt_of_mem_ofNat g.alphabet.two_le_shiftLeft_dataBits hmem

/-- The text of a beat carries its digits. -/
theorem digitsOf_minted : digitsOf g.alphabet (g.minted source b).text =
    (g.mark b).digits (1 <<< g.alphabet.dataBits) := by
  rw [text_minted, digitsOf, Text.bytes_ofAscii graphic_dress, map_digitOf_dress lt_of_mem_digits]

end Issuer

end IdMint.ShortId
