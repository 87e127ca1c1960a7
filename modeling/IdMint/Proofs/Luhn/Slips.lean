import IdMint.Proofs.Luhn.Texts

/-! Which slips of the pen a check digit shows. Text is valid when its digits, the check digit among
them, add up to a multiple of ten, so what is written in place of a part keeps it valid only if it
adds as much as that part. No other digit does, and of two neighbours only zero and nine may change
places. -/
namespace IdMint.Luhn

variable {c d : Nat} {ds ls ms ns rs : List Nat} {s : String}

theorem weight_mod_inj : ∀ b, ∀ c < 10, ∀ d < 10, weight b c % 10 = weight b d % 10 → c = d := by
  decide

/-- Of two neighbours one is doubled, and which of the two makes a difference. -/
theorem weight_swap_iff : ∀ b, ∀ c < 10, ∀ d < 10,
    (weight b c + weight (!b) d) % 10 = (weight b d + weight (!b) c) % 10 ↔
      c = d ∨ c = 0 ∧ d = 9 ∨ c = 9 ∧ d = 0 := by
  decide

theorem digitChar_eq_iff : ∀ c < 10, ∀ d < 10,
    Decimal.digitChar c = Decimal.digitChar d ↔ c = d := by
  decide

theorem isValidText_iff_total (hne : ds ≠ []) (h : ∀ d ∈ ds, d < 10)
    (hlength : ds.length ≤ capacity) :
    isValidText (spelled ds) = true ↔ total false ds.reverse % 10 = 0 := by
  obtain ⟨es, e, rfl, hes, he⟩ := exists_concat_lt hne h
  have hle : es.reverse.length ≤ capacity := by
    rw [List.length_append] at hlength
    rw [List.length_reverse]
    omega
  rw [isValidText_spelled hes he, beq_iff_eq,
    checkDigits_eq_iff (forall_mem_reverse_lt hes) hle he, List.reverse_concat']

/-- Counted from the right, a part of the digits adds its own sum, doubled first or not as the
digits behind it have it. -/
theorem total_middle (ls ms rs : List Nat) : total false (ls ++ ms ++ rs).reverse =
    total false rs.reverse + (total (not^[rs.length] false) ms.reverse +
      total (not^[ms.length] (not^[rs.length] false)) ls.reverse) := by
  rw [List.reverse_append, List.reverse_append, total_append, total_append, List.length_reverse,
    List.length_reverse]

/-- A part of valid text may be exchanged for one of the same length that adds as much. -/
theorem isValidText_exchange_iff (hm : ∀ a ∈ ls ++ ms ++ rs, a < 10) (hn : ∀ a ∈ ns, a < 10)
    (hne : ms ≠ []) (hcount : ns.length = ms.length)
    (hlength : (ls ++ ms ++ rs).length ≤ capacity)
    (hvalid : isValidText (spelled (ls ++ ms ++ rs)) = true) :
    isValidText (spelled (ls ++ ns ++ rs)) = true ↔
      total (not^[rs.length] false) ns.reverse % 10 =
        total (not^[rs.length] false) ms.reverse % 10 := by
  have hn' : ∀ a ∈ ls ++ ns ++ rs, a < 10 := by
    simp only [List.forall_mem_append] at hm ⊢
    exact ⟨⟨hm.1.1, hn⟩, hm.2⟩
  have hlength' : (ls ++ ns ++ rs).length ≤ capacity := by
    simpa only [List.length_append, hcount] using hlength
  have hne' : ns ≠ [] := by
    rw [← List.length_pos_iff, hcount, List.length_pos_iff]
    exact hne
  -- equal lengths leave the digits in front doubled or not as before, so their sum is the same
  rw [isValidText_iff_total (by simp [hne]) hm hlength, total_middle] at hvalid
  rw [isValidText_iff_total (by simp [hne']) hn' hlength', total_middle, hcount]
  omega

theorem isValidText_replace_iff {e : Nat} (h : ∀ a ∈ ls ++ d :: rs, a < 10) (he : e < 10)
    (hlength : (ls ++ d :: rs).length ≤ capacity)
    (hvalid : isValidText (spelled (ls ++ d :: rs)) = true) :
    isValidText (spelled (ls ++ e :: rs)) = true ↔ e = d := by
  have hd : d < 10 := h d (by simp)
  have hn : ∀ a ∈ [e], a < 10 := List.forall_mem_singleton.mpr he
  rw [List.append_cons] at h hlength hvalid ⊢
  rw [isValidText_exchange_iff h hn (List.cons_ne_nil d []) rfl hlength hvalid]
  constructor
  · exact weight_mod_inj _ e he d hd
  · rintro rfl
    rfl

theorem isValidText_swap_iff (h : ∀ a ∈ ls ++ c :: d :: rs, a < 10)
    (hlength : (ls ++ c :: d :: rs).length ≤ capacity)
    (hvalid : isValidText (spelled (ls ++ c :: d :: rs)) = true) :
    isValidText (spelled (ls ++ d :: c :: rs)) = true ↔
      c = d ∨ c = 0 ∧ d = 9 ∨ c = 9 ∧ d = 0 := by
  have hc : c < 10 := h c (by simp)
  have hd : d < 10 := h d (by simp)
  have hn : ∀ a ∈ [d, c], a < 10 := by simp [hc, hd]
  have hsplit (a b : Nat) : ls ++ a :: b :: rs = ls ++ [a, b] ++ rs := by simp
  rw [hsplit] at h hlength hvalid ⊢
  rw [isValidText_exchange_iff h hn (List.cons_ne_nil c [d]) rfl hlength hvalid]
  exact weight_swap_iff _ c hc d hd

/-- The characters of a text of digits are digits. -/
theorem exists_digit_of_mem {cs : List Char} {e : Char} (h : IsNumeral (String.ofList cs))
    (he : e ∈ cs) : ∃ d < 10, Decimal.digitChar d = e := by
  obtain ⟨ds, _, hlt, hs⟩ := isNumeral_iff.mp h
  have hcs : cs = ds.map Decimal.digitChar := by
    rw [← toList_spelled, ← hs, String.toList_ofList]
  rw [hcs] at he
  obtain ⟨d, hd, rfl⟩ := List.mem_map.mp he
  exact ⟨d, hlt d hd, rfl⟩

/-- Valid text whose sum is not cut becomes invalid when any other character takes the place of one
of its digits, and when two neighbours that differ change places. It stays valid when the neighbours
are zero and nine. -/
theorem slips_detected (hvalid : isValidText s = true) (hlength : s.length ≤ capacity) :
    (∀ l c r e, s.toList = l ++ c :: r → e ≠ c →
      isValidText (String.ofList (l ++ e :: r)) = false) ∧
    ∀ l c d r, s.toList = l ++ c :: d :: r → c ≠ d →
      (isValidText (String.ofList (l ++ d :: c :: r)) = true ↔
        c = '0' ∧ d = '9' ∨ c = '9' ∧ d = '0') := by
  obtain ⟨ds, _, hlt, rfl⟩ := isNumeral_iff.mp (isNumeral_of_isValidText hvalid)
  rw [length_spelled] at hlength
  constructor
  · intro l c r e hs hne
    rw [toList_spelled, List.map_eq_append_iff] at hs
    obtain ⟨ls, ms, rfl, rfl, hms⟩ := hs
    obtain ⟨d, rs, rfl, rfl, rfl⟩ := List.map_eq_cons_iff.mp hms
    rw [Bool.eq_false_iff]
    intro hnew
    obtain ⟨e, he, rfl⟩ := exists_digit_of_mem (isNumeral_of_isValidText hnew)
      (List.mem_append_right _ (List.mem_cons_self ..))
    rw [← List.map_cons, ← List.map_append, ← spelled,
      isValidText_replace_iff hlt he hlength hvalid] at hnew
    exact hne (congrArg _ hnew)
  · intro l c d r hs hne
    rw [toList_spelled, List.map_eq_append_iff] at hs
    obtain ⟨ls, ms, rfl, rfl, hms⟩ := hs
    obtain ⟨c, ns, rfl, rfl, hns⟩ := List.map_eq_cons_iff.mp hms
    obtain ⟨d, rs, rfl, rfl, rfl⟩ := List.map_eq_cons_iff.mp hns
    have hc : c < 10 := hlt c (by simp)
    have hd : d < 10 := hlt d (by simp)
    have hne' : c ≠ d := fun h => hne (congrArg _ h)
    have hzero : '0' = Decimal.digitChar 0 := rfl
    have hnine : '9' = Decimal.digitChar 9 := rfl
    rw [← List.map_cons, ← List.map_cons, ← List.map_append, ← spelled,
      isValidText_swap_iff hlt hlength hvalid, hzero, hnine,
      digitChar_eq_iff c hc 0 (by decide), digitChar_eq_iff d hd 9 (by decide),
      digitChar_eq_iff c hc 9 (by decide), digitChar_eq_iff d hd 0 (by decide)]
    exact or_iff_right hne'

/-- Of three slips in one text, the one that leaves it valid makes zero and nine change places. -/
theorem fourDigits_slips_detected :
    isValidText "1909" = true ∧ "1909".length ≤ capacity ∧
    isValidText "2909" = false ∧ isValidText "9109" = false ∧ isValidText "1099" = true := by
  have hvalid : isValidText "1909" = true := by decide +kernel
  have hlength : "1909".length ≤ capacity := by decide
  obtain ⟨hreplace, hswap⟩ := slips_detected hvalid hlength
  refine ⟨hvalid, hlength, hreplace [] '1' ['9', '0', '9'] '2' rfl (by decide), ?_,
    (hswap ['1'] '9' '0' ['9'] rfl (by decide)).mpr (Or.inr ⟨rfl, rfl⟩)⟩
  rw [Bool.eq_false_iff]
  intro h
  exact absurd ((hswap [] '1' '9' ['0', '9'] rfl (by decide)).mp h) (by decide)

end IdMint.Luhn
