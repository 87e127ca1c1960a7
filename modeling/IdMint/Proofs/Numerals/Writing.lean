import IdMint.Proofs.Numerals.Reading

/-! What a writer leaves in its buffer: the symbols of the word just before where it started, and
everything else as it was. It never runs out of places, and takes no more than the bits of the word
ask for. -/
namespace IdMint.Numerals

open Text

variable {n : Numerals} {x : UInt64} {stop place : Nat}

/-- Writes as `writeBelow` does, but fails where a symbol is due and there is no place below `stop`,
or the place is not one of the buffer's. -/
def Tables.writeBelow? (t : Tables) : (stop : Nat) → UInt64 → Buffer → Option (Nat × Buffer)
  | 0, _, _ => none
  | place + 1, x, buffer =>
    if h : place < bufferSize then
      let buffer := buffer.set place (t.tray.symbol (x &&& t.mask).toNat) h
      let rest := x >>> t.step
      if rest = 0 then some (place, buffer) else writeBelow? t place rest buffer
    else none

/-- How many symbols the bits of a word take up. There is one at least. -/
def symbolCount (n : Numerals) (x : UInt64) : Nat := max 1 (x.toNat.size ⌈/⌉ n.bitsPerSymbol)

def numeral (n : Numerals) (x : UInt64) : List UInt8 :=
  (Digits.ofNat n.radix x.toNat).reverse.map n.alphabet.symbol

theorem two_le_radix (n : Numerals) : 2 ≤ n.radix := by
  have h := n.alphabet.size_eq
  change 2 ≤ n.alphabet.size
  omega

theorem numeral_of_lt (h : x.toNat < n.radix) : n.numeral x = [n.alphabet.symbol x.toNat] := by
  rw [numeral, Digits.ofNat_of_lt h]
  rfl

theorem numeral_of_le (h : n.radix ≤ x.toNat) : n.numeral x =
    n.numeral (x >>> n.tables.step) ++ [n.alphabet.symbol (x.toNat % n.radix)] := by
  rw [numeral, Digits.ofNat_of_le (two_le_radix n) h, List.reverse_cons, List.map_append, numeral,
    toNat_shiftRight]
  rfl

theorem numeral_ne_nil (n : Numerals) (x : UInt64) : n.numeral x ≠ [] := by
  simp [numeral, Digits.ofNat_ne_nil]

theorem length_numeral (n : Numerals) (x : UInt64) : (n.numeral x).length = n.symbolCount x := by
  rw [numeral, List.length_map, List.length_reverse, ← Digits.width, radix_eq,
    Digits.width_two_pow n.bits_pos, symbolCount, bitsPerSymbol]

/-- The most significant symbol is zero for no word but zero. -/
theorem head?_numeral_eq_zero_iff :
    (n.numeral x).head? = some (n.alphabet.symbol 0) ↔ x = 0 := by
  constructor
  · intro h
    by_contra hx
    have hpos : x.toNat ≠ 0 := fun he => hx (UInt64.toNat_inj.mp he)
    rw [numeral, List.head?_map, List.head?_reverse, Option.map_eq_some_iff] at h
    obtain ⟨d, hlast, hzero⟩ := h
    obtain ⟨ds, hds⟩ := List.getLast?_eq_some_iff.mp hlast
    have hd : d < n.radix := Digits.lt_of_mem_ofNat (two_le_radix n) (List.mem_of_getLast? hlast)
    obtain rfl : d = 0 := Alphabet.symbol_inj hd n.alphabet.size_pos hzero
    exact Digits.ofNat_ne_append_zero (two_le_radix n) hpos ds hds
  · rintro rfl
    have hlt : (0 : UInt64).toNat < n.radix := n.alphabet.size_pos
    rw [numeral_of_lt hlt]
    rfl

theorem mem_symbols_of_numeral {b : UInt8} (h : b ∈ n.numeral x) : b ∈ n.alphabet.symbols := by
  obtain ⟨d, _, rfl⟩ := List.mem_map.mp h
  exact n.alphabet.symbol_mem d

theorem maxLength_le (n : Numerals) : n.maxLength ≤ bufferSize := by
  rw [maxLength, bitsPerSymbol, Alphabet.bits]
  split <;> decide

theorem symbolCount_le (n : Numerals) (x : UInt64) : n.symbolCount x ≤ n.maxLength := by
  have hpos : 0 < n.bitsPerSymbol := n.bits_pos
  have hmost : n.maxLength = 64 ⌈/⌉ n.bitsPerSymbol :=
    (Nat.ceilDiv_eq_add_pred_div 64 n.bitsPerSymbol).symm
  have hsize : x.toNat.size ≤ 64 := Nat.size_le.mpr x.toNat_lt
  have hone : 1 ≤ n.maxLength := by
    rw [maxLength, Nat.one_le_div_iff hpos]
    omega
  have hmono : x.toNat.size ⌈/⌉ n.bitsPerSymbol ≤ 64 ⌈/⌉ n.bitsPerSymbol :=
    (gc_mul_ceilDiv hpos).monotone_l hsize
  exact max_le hone (hmono.trans hmost.ge)

/-- As many places as the largest word takes are enough for any. -/
theorem toNat_lt_radix_pow (n : Numerals) (x : UInt64) : x.toNat < n.radix ^ bufferSize := by
  have hbits : 64 ≤ n.alphabet.bits * bufferSize := by
    rw [Alphabet.bits]
    split <;> decide
  calc x.toNat < 2 ^ 64 := x.toNat_lt
    _ ≤ 2 ^ (n.alphabet.bits * bufferSize) := Nat.pow_le_pow_right (by decide) hbits
    _ = n.radix ^ bufferSize := by rw [radix_eq, Nat.pow_mul]

theorem symbol_and_mask (n : Numerals) (x : UInt64) :
    n.tables.tray.symbol (x &&& n.tables.mask).toNat = n.alphabet.symbol (x.toNat % n.radix) := by
  rw [toNat_and_mask]
  exact Tray.symbol_tray n.alphabet _

/-- While something of a word is left, there is a place for it. -/
theorem rest_lt (hx : x.toNat < n.radix ^ (place + 1)) (hrest : x >>> n.tables.step ≠ 0) :
    0 < place ∧ (x >>> n.tables.step).toNat < n.radix ^ place := by
  have hdiv : (x >>> n.tables.step).toNat < n.radix ^ place := by
    rw [toNat_shiftRight]
    exact Nat.div_lt_of_lt_mul (by rwa [← Nat.pow_succ'])
  refine ⟨?_, hdiv⟩
  apply Nat.pos_of_ne_zero
  rintro rfl
  rw [Nat.pow_zero, Nat.lt_one_iff] at hdiv
  exact hrest (UInt64.toNat_inj.mp hdiv)

/-- A writer with room for the word never asks for a place that is not there. -/
theorem writeBelow?_eq (hpos : 0 < stop) (hstop : stop ≤ bufferSize)
    (hx : x.toNat < n.radix ^ stop) (buffer : Buffer) :
    n.tables.writeBelow? stop x buffer = some (n.tables.writeBelow stop x buffer) := by
  induction stop generalizing x buffer with
  | zero => omega
  | succ place ih =>
    have hin : place < bufferSize := hstop
    rw [Tables.writeBelow?, dif_pos hin, Tables.writeBelow, set_eq_setIfInBounds]
    by_cases hrest : x >>> n.tables.step = 0
    · rw [if_pos hrest, if_pos hrest]
    · obtain ⟨hplace, hlt⟩ := rest_lt hx hrest
      rw [if_neg hrest, if_neg hrest]
      exact ih hplace (by omega) hlt _

/-- Each turn of the loop puts one symbol before those of the part of the word that is done. -/
theorem writeBelow_eq (hpos : 0 < stop) (hstop : stop ≤ bufferSize)
    (hx : x.toNat < n.radix ^ stop) (buffer : Buffer) :
    (n.tables.writeBelow stop x buffer).1 + (n.numeral x).length = stop ∧
    (n.tables.writeBelow stop x buffer).2.toList =
      buffer.toList.take (n.tables.writeBelow stop x buffer).1 ++ n.numeral x ++
        buffer.toList.drop stop := by
  induction stop generalizing x buffer with
  | zero => omega
  | succ place ih =>
    have hplace : place < buffer.toList.length := by
      rw [Vector.length_toList]
      exact hstop
    rw [Tables.writeBelow]
    simp only [symbol_and_mask]
    by_cases hrest : x >>> n.tables.step = 0
    · have hlt : x.toNat < n.radix := by
        have hzero := congrArg UInt64.toNat hrest
        rw [toNat_shiftRight, UInt64.toNat_zero] at hzero
        exact (Nat.div_eq_zero_iff_lt n.alphabet.size_pos).mp hzero
      rw [if_pos hrest, numeral_of_lt hlt, Nat.mod_eq_of_lt hlt]
      refine ⟨rfl, ?_⟩
      rw [Vector.toList_setIfInBounds, List.set_eq_take_append_cons_drop, if_pos hplace,
        List.append_assoc, List.singleton_append]
    · have hle : n.radix ≤ x.toNat := by
        by_contra hlt
        apply hrest
        rw [← UInt64.toNat_inj, toNat_shiftRight, Nat.div_eq_of_lt (Nat.lt_of_not_le hlt)]
        rfl
      obtain ⟨hposplace, hdiv⟩ := rest_lt hx hrest
      obtain ⟨hlen, hlist⟩ := ih hposplace (by omega) hdiv
        (buffer.setIfInBounds place (n.alphabet.symbol (x.toNat % n.radix)))
      have hdrop : (buffer.toList.set place (n.alphabet.symbol (x.toNat % n.radix))).drop place =
          n.alphabet.symbol (x.toNat % n.radix) :: buffer.toList.drop (place + 1) := by
        rw [List.set_eq_take_append_cons_drop, if_pos hplace, List.drop_left']
        exact List.length_take_of_le (Nat.le_of_lt hplace)
      rw [if_neg hrest, numeral_of_le hle]
      constructor
      · rw [List.length_append, List.length_singleton]
        omega
      · rw [hlist, Vector.toList_setIfInBounds, List.take_set_of_le (by omega), hdrop]
        simp only [List.append_assoc, List.singleton_append]

/-- A whole buffer keeps what is in front of the symbols, which are its last bytes. -/
theorem writeInto_eq (n : Numerals) (x : UInt64) (buffer : Buffer) :
    (n.writeInto x buffer).1 + (n.numeral x).length = bufferSize ∧
    (n.writeInto x buffer).2.toList =
      buffer.toList.take (n.writeInto x buffer).1 ++ n.numeral x := by
  have hpos : 0 < bufferSize := by decide
  obtain ⟨hlen, hlist⟩ := writeBelow_eq hpos le_rfl (toNat_lt_radix_pow n x) buffer
  have hsize : buffer.toList.length = bufferSize := Vector.length_toList
  rw [List.drop_eq_nil_of_le (Nat.le_of_eq hsize), List.append_nil] at hlist
  exact ⟨hlen, hlist⟩

/-- The bytes written are the symbols of the word, whatever was in the buffer. -/
theorem written_writeInto (n : Numerals) (x : UInt64) (buffer : Buffer) :
    written (n.writeInto x buffer) = n.numeral x := by
  obtain ⟨hlen, hlist⟩ := writeInto_eq n x buffer
  have hsize : buffer.toList.length = bufferSize := Vector.length_toList
  rw [written, hlist]
  exact List.drop_left' (List.length_take_of_le (by omega))

theorem bytes_write (n : Numerals) (x : UInt64) : bytes (n.write x) = n.numeral x := by
  rw [write, written_writeInto]
  exact bytes_ofAscii fun b hb => n.alphabet.graphic b (mem_symbols_of_numeral hb)

theorem graphic_write (n : Numerals) (x : UInt64) :
    ∀ b ∈ bytes (n.write x), isGraphic b = true := by
  rw [bytes_write]
  exact fun b hb => n.alphabet.graphic b (mem_symbols_of_numeral hb)

/-- Whatever was in a buffer, a word is written into its last places, as many as its bits ask for
and no more than there are, and nothing in front of them changes. What is written is the text of the
word, in symbols of the alphabet, of which the first is zero for the word zero alone. -/
theorem writeInto_framed (n : Numerals) (x : UInt64) (buffer : Buffer) :
    n.tables.writeBelow? bufferSize x buffer = some (n.writeInto x buffer) ∧
    (n.writeInto x buffer).1 + n.symbolCount x = bufferSize ∧
    n.symbolCount x ≤ n.maxLength ∧ n.maxLength ≤ bufferSize ∧
    (n.writeInto x buffer).2.toList =
      buffer.toList.take (bufferSize - n.symbolCount x) ++ written (n.writeInto x buffer) ∧
    (written (n.writeInto x buffer)).length = n.symbolCount x ∧
    n.write x = ofAscii (written (n.writeInto x buffer)) ∧
    (∀ other, written (n.writeInto x other) = written (n.writeInto x buffer)) ∧
    (∀ b ∈ written (n.writeInto x buffer), b ∈ n.alphabet.symbols) ∧
    ((written (n.writeInto x buffer)).head? = some (n.alphabet.symbol 0) ↔ x = 0) := by
  have hwritten := written_writeInto n x
  have hroom := writeBelow?_eq (by decide) le_rfl (toNat_lt_radix_pow n x) buffer
  obtain ⟨hlen, hlist⟩ := writeInto_eq n x buffer
  rw [length_numeral] at hlen
  have hplace : (n.writeInto x buffer).1 = bufferSize - n.symbolCount x :=
    Nat.eq_sub_of_add_eq hlen
  refine ⟨hroom, hlen, symbolCount_le n x, maxLength_le n, ?_, ?_, ?_, ?_, ?_, ?_⟩
  · rw [hwritten, ← hplace]
    exact hlist
  · rw [hwritten, length_numeral]
  · rw [write, hwritten, hwritten]
  · intro other
    rw [hwritten, hwritten]
  · rw [hwritten]
    exact fun b hb => mem_symbols_of_numeral hb
  · rw [hwritten]
    exact head?_numeral_eq_zero_iff

end IdMint.Numerals
