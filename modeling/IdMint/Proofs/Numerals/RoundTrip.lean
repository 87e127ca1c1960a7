import IdMint.Proofs.Numerals.Writing

/-! Writing and reading are inverse up to leading zeros. A text that is read stands for the digits
of its word with zeros in front, and writing gives those digits back without the zeros. -/
namespace IdMint.Numerals

open Text

section Trimming

variable {α β : Type} [DecidableEq α] [DecidableEq β] {z : α} {l : List α}

/-- A list without the zeros in front, of which one is kept if there is nothing else. -/
def trimLeading (z : α) : List α → List α
  | x :: y :: l => if x = z then trimLeading z (y :: l) else x :: y :: l
  | l => l

theorem trimLeading_map {f : α → β} (hf : ∀ x ∈ l, f x = f z → x = z) :
    trimLeading (f z) (l.map f) = (trimLeading z l).map f := by
  fun_induction trimLeading z l with
  | case1 y l ih =>
    rw [List.map_cons, List.map_cons, trimLeading, if_pos rfl]
    exact ih fun w hw => hf w (List.mem_cons_of_mem z hw)
  | case2 x y l hx =>
    have hne : f x ≠ f z := fun h => hx (hf x (List.mem_cons_self ..) h)
    rw [List.map_cons, List.map_cons, trimLeading, if_neg hne]
  | case3 l hl =>
    match l with
    | [] => rfl
    | [x] => rfl
    | x :: y :: l => exact absurd rfl (hl x y l)

theorem exists_eq_replicate_append (z : α) (l : List α) :
    ∃ i, l = List.replicate i z ++ trimLeading z l := by
  fun_induction trimLeading z l with
  | case1 y l ih =>
    obtain ⟨i, hi⟩ := ih
    refine ⟨i + 1, ?_⟩
    rw [List.replicate_succ, List.cons_append, ← hi]
  | case2 x y l hx => exact ⟨0, rfl⟩
  | case3 l hl => exact ⟨0, rfl⟩

end Trimming

/-- The digits of the number that digits stand for are those digits without the zeros in front. -/
theorem reverse_ofNat_value {base : Nat} {ds : List Nat} (hb : 2 ≤ base)
    (hlt : ∀ d ∈ ds, d < base) (hne : ds ≠ []) :
    (Digits.ofNat base (Digits.value base ds.reverse)).reverse = trimLeading 0 ds := by
  fun_induction trimLeading 0 ds with
  | case1 e ds ih =>
    have hvalue : Digits.value base (0 :: e :: ds).reverse =
        Digits.value base (e :: ds).reverse := by
      rw [List.reverse_cons, Digits.value_eq_ofDigits, Digits.value_eq_ofDigits,
        Nat.ofDigits_append]
      simp
    rw [hvalue]
    exact ih (fun d hd => hlt d (List.mem_cons_of_mem 0 hd)) (List.cons_ne_nil e ds)
  | case2 d e ds hd =>
    have hlt' : ∀ c ∈ (d :: e :: ds).reverse, c < base :=
      fun c hc => hlt c (List.mem_reverse.mp hc)
    have hne' : (d :: e :: ds).reverse ≠ [] := by simp
    have hlast : (d :: e :: ds).reverse.getLast hne' ≠ 0 := by
      rw [List.getLast_reverse, List.head_cons]
      exact hd
    rw [Digits.ofNat_value hb hlt' hne' hlast, List.reverse_reverse]
  | case3 ds hds =>
    match ds with
    | [] => exact absurd rfl hne
    | [d] =>
      have hd : d < base := hlt d (List.mem_singleton_self d)
      simp [Digits.value, Digits.ofNat_of_lt hd]
    | d :: e :: ds => exact absurd rfl (hds d e ds)

variable {n : Numerals} {s : String} {x : UInt64} {bs : List UInt8}

def zero (n : Numerals) : Char := Char.ofUInt8 (n.alphabet.symbol 0)

/-- A text without leading zero symbols, of which one is kept if there is nothing else. -/
def trimmed (n : Numerals) (s : String) : String := String.ofList (trimLeading n.zero s.toList)

/-- Two texts that differ in nothing but how many zero symbols they begin with. -/
def AlikeButZeros (n : Numerals) (s t : String) : Prop :=
  ∃ i j r, s.toList = List.replicate i n.zero ++ r ∧ t.toList = List.replicate j n.zero ++ r

theorem number_numeral (n : Numerals) (x : UInt64) : n.number (n.numeral x) = x.toNat := by
  have hdigits : (Digits.ofNat n.radix x.toNat).map (n.digit ∘ n.alphabet.symbol) =
      Digits.ofNat n.radix x.toNat := by
    conv_rhs => rw [← List.map_id (Digits.ofNat n.radix x.toNat)]
    apply List.map_congr_left
    intro d hd
    exact digit_symbol (Digits.lt_of_mem_ofNat (two_le_radix n) hd)
  rw [number, numeral, List.map_map, List.map_reverse, hdigits, List.reverse_reverse,
    Digits.value_ofNat]

@[simp] theorem read_write (n : Numerals) (x : UInt64) : n.read (n.write x) = .ok x := by
  have hbytes := bytes_write n x
  rw [read_eq_ok_iff, hbytes, number_numeral]
  refine ⟨?_, fun b hb => mem_symbols_of_numeral hb, rfl⟩
  intro h
  rw [← bytes_eq_nil_iff, hbytes] at h
  exact numeral_ne_nil n x h

/-- Bytes that are all symbols are spelled by their digits. -/
theorem map_symbol_digit (h : ∀ b ∈ bs, b ∈ n.alphabet.symbols) :
    (bs.map n.digit).map n.alphabet.symbol = bs := by
  rw [List.map_map]
  conv_rhs => rw [← List.map_id bs]
  apply List.map_congr_left
  intro b hb
  exact symbol_digit (h b hb)

theorem numeral_eq_trimLeading (hne : bs ≠ []) (h : ∀ b ∈ bs, b ∈ n.alphabet.symbols)
    (hx : n.number bs = x.toNat) :
    n.numeral x = trimLeading (n.alphabet.symbol 0) bs := by
  have hlt : ∀ d ∈ bs.map n.digit, d < n.radix := by
    intro d hd
    obtain ⟨b, _, rfl⟩ := List.mem_map.mp hd
    exact digit_lt n b
  have hdigits : (Digits.ofNat n.radix x.toNat).reverse = trimLeading 0 (bs.map n.digit) := by
    rw [← hx, number]
    exact reverse_ofNat_value (two_le_radix n) hlt (by simpa using hne)
  rw [numeral, hdigits, ← trimLeading_map, map_symbol_digit h]
  intro d hd he
  exact Alphabet.symbol_inj (hlt d hd) n.alphabet.size_pos he

theorem write_of_read (h : n.read s = .ok x) : n.write x = n.trimmed s := by
  obtain ⟨hs, hsymbols, hnumber⟩ := read_eq_ok_iff.mp h
  have hne : bytes s ≠ [] := fun he => hs (bytes_eq_nil_iff.mp he)
  have htrim : trimLeading n.zero s.toList = (n.numeral x).map Char.ofUInt8 := by
    have hgraphic : ∀ b ∈ bytes s, isGraphic b = true :=
      fun b hb => n.alphabet.graphic b (hsymbols b hb)
    rw [toList_of_graphic hgraphic, zero, trimLeading_map fun b _ => ofUInt8_inj,
      numeral_eq_trimLeading hne hsymbols hnumber]
  rw [trimmed, htrim, write, written_writeInto, ofAscii]

theorem number_zeros_append (n : Numerals) (i : Nat) (bs : List UInt8) :
    n.number (List.replicate i (n.alphabet.symbol 0) ++ bs) = n.number bs := by
  induction bs using List.reverseRecOn with
  | nil =>
    rw [List.append_nil, number_nil]
    induction i with
    | zero => rfl
    | succ i ih =>
      rw [List.replicate_succ', number_concat, ih, digit_symbol n.alphabet.size_pos, Nat.zero_mul]
  | append_singleton bs b ih =>
    rw [← List.append_assoc, number_concat, number_concat, ih]

/-- The zero symbols in front of a text are zeros in front of its bytes. -/
theorem number_of_zeros {i : Nat} {r : List Char} (hs : s.toList = List.replicate i n.zero ++ r) :
    n.number (bytes s) = n.number (bytes (String.ofList r)) := by
  have hzero : String.utf8EncodeChar n.zero = [n.alphabet.symbol 0] :=
    utf8EncodeChar_ofUInt8 (n.alphabet.graphic _ (n.alphabet.symbol_mem 0))
  have hbytes : bytes s =
      List.replicate i (n.alphabet.symbol 0) ++ bytes (String.ofList r) := by
    rw [bytes, bytes, hs, String.toList_ofList, List.flatMap_append, List.flatMap_replicate, hzero,
      List.flatten_replicate_singleton]
  rw [hbytes, number_zeros_append]

/-- Reading undoes writing, for every word; writing undoes reading, up to zeros in front. So the
texts of one word are those that differ in such zeros only. -/
theorem write_read_inverse (n : Numerals) :
    (∀ x, n.read (n.write x) = .ok x) ∧
    (∀ s x, n.read s = .ok x → n.write x = n.trimmed s) ∧
    ∀ s t x y, n.read s = .ok x → n.read t = .ok y → (x = y ↔ n.AlikeButZeros s t) := by
  refine ⟨read_write n, fun s x => write_of_read, ?_⟩
  intro s t x y hs ht
  constructor
  · rintro rfl
    have hsame : n.trimmed s = n.trimmed t := (write_of_read hs).symm.trans (write_of_read ht)
    obtain ⟨i, hi⟩ := exists_eq_replicate_append n.zero s.toList
    obtain ⟨j, hj⟩ := exists_eq_replicate_append n.zero t.toList
    have hlist : trimLeading n.zero s.toList = trimLeading n.zero t.toList := by
      rw [← String.toList_ofList (l := trimLeading n.zero s.toList), ← trimmed, hsame, trimmed,
        String.toList_ofList]
    exact ⟨i, j, _, hi, hlist ▸ hj⟩
  · rintro ⟨i, j, r, hi, hj⟩
    obtain ⟨_, _, hx⟩ := read_eq_ok_iff.mp hs
    obtain ⟨_, _, hy⟩ := read_eq_ok_iff.mp ht
    apply UInt64.toNat_inj.mp
    rw [← hx, ← hy, number_of_zeros hi, number_of_zeros hj]

theorem ten_write_read :
    base32.read "000A" = .ok 10 ∧ base32.read "A" = .ok 10 ∧
    base32.write 10 = base32.trimmed "000A" ∧ base32.AlikeButZeros "000A" "A" := by
  have hlong : base32.read "000A" = .ok 10 := by decide +kernel
  have hshort : base32.read "A" = .ok 10 := by decide +kernel
  obtain ⟨_, htrimmed, halike⟩ := write_read_inverse base32
  exact ⟨hlong, hshort, htrimmed _ _ hlong, (halike _ _ _ _ hlong hshort).mp rfl⟩

end IdMint.Numerals
