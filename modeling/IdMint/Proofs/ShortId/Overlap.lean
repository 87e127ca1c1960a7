import IdMint.Proofs.Digits

/-! When two marks are written with the same digits. Nothing stands between the fields, so a mark
can be mistaken for one whose milliseconds have more digits. -/
namespace IdMint.ShortId

open Digits

/-- The fields of a short identifier. -/
@[ext]
structure Mark where
  millis : Nat
  worker : Nat
  counter : Nat
deriving DecidableEq, Repr

namespace Mark

variable {base : Nat} {x y : Mark}

/-- The digits of the fields, one field after the other. -/
def digits (base : Nat) (x : Mark) : List Nat :=
  ofNat base x.millis ++ (ofNat base x.worker ++ if x.counter = 0 then [] else ofNat base x.counter)

def number (base : Nat) (x : Mark) : Nat :=
  x.millis + base ^ width base x.millis * (x.worker + base * x.counter)

/-- Only the milliseconds of a mark are not zero. -/
def Bare (x : Mark) : Prop := x.worker = 0 ∧ x.counter = 0

instance : Decidable x.Bare := inferInstanceAs (Decidable (_ ∧ _))

/-- Digits of the worker and the counter of `x` are read as milliseconds in `y`. -/
def Overlaps (base : Nat) (x y : Mark) : Prop :=
  width base x.millis < width base y.millis ∧ ¬ y.Bare ∧ x.number base = y.number base

instance : Decidable (x.Overlaps base y) := inferInstanceAs (Decidable (_ ∧ _))

theorem digits_of_bare (hb : 2 ≤ base) (hx : x.Bare) :
    x.digits base = ofNat base x.millis ++ [0] := by
  have hzero : ofNat base 0 = [0] := ofNat_of_lt (by omega)
  rw [digits, hx.1, hx.2, if_pos rfl, hzero, List.append_nil]

theorem number_of_bare (hx : x.Bare) : x.number base = x.millis := by
  rw [number, hx.1, hx.2, Nat.mul_zero, Nat.mul_zero, Nat.add_zero]

theorem millis_le_number : x.millis ≤ x.number base := Nat.le_add_right ..

theorem number_ne_zero (hb : 2 ≤ base) (hx : ¬ x.Bare) : x.number base ≠ 0 := by
  have hpow : base ^ width base x.millis ≠ 0 := (Nat.pow_pos (by omega)).ne'
  have hrest : x.worker + base * x.counter ≠ 0 := by
    rintro h
    obtain ⟨hw, hc⟩ := Nat.add_eq_zero_iff.mp h
    exact hx ⟨hw, (Nat.mul_eq_zero.mp hc).resolve_left (by omega)⟩
  have hmul := Nat.mul_ne_zero hpow hrest
  rw [number]
  omega

/-- A mark that is not bare is written like one number. -/
theorem digits_of_not_bare (hb : 2 ≤ base) (hw : x.worker < base) (hx : ¬ x.Bare) :
    x.digits base = ofNat base (x.number base) := by
  by_cases hc : x.counter = 0
  · have hne : x.worker ≠ 0 := fun h => hx ⟨h, hc⟩
    rw [digits, number, if_pos hc, List.append_nil, ofNat_append hb hne, hc, Nat.mul_zero,
      Nat.add_zero]
  · have hone : width base x.worker = 1 := by rw [width, ofNat_of_lt hw, List.length_singleton]
    have hne : x.worker + base * x.counter ≠ 0 := by
      have := Nat.mul_ne_zero (by omega : base ≠ 0) hc
      omega
    rw [digits, number, if_neg hc, ofNat_append hb hc, hone, pow_one, ofNat_append hb hne]

/-- Milliseconds of one width leave no doubt. -/
theorem eq_of_number_eq (hb : 2 ≤ base) (hx : x.worker < base) (hy : y.worker < base)
    (hwidth : width base x.millis = width base y.millis) (h : x.number base = y.number base) :
    x = y := by
  have hpow : 0 < base ^ width base y.millis := Nat.pow_pos (by omega)
  have hxlt : x.millis < base ^ width base y.millis := hwidth ▸ lt_pow_width hb
  have hylt : y.millis < base ^ width base y.millis := lt_pow_width hb
  rw [number, number, hwidth] at h
  have hmillis : x.millis = y.millis := by
    have hmod := congrArg (· % base ^ width base y.millis) h
    simpa only [Nat.add_mul_mod_self_left, Nat.mod_eq_of_lt hxlt, Nat.mod_eq_of_lt hylt] using hmod
  have hrest : x.worker + base * x.counter = y.worker + base * y.counter := by
    rw [hmillis] at h
    exact Nat.eq_of_mul_eq_mul_left hpow (Nat.add_left_cancel h)
  have hworker : x.worker = y.worker := by
    have hmod := congrArg (· % base) hrest
    simpa only [Nat.add_mul_mod_self_left, Nat.mod_eq_of_lt hx, Nat.mod_eq_of_lt hy] using hmod
  have hcounter : x.counter = y.counter := by
    rw [hworker] at hrest
    exact Nat.eq_of_mul_eq_mul_left (by omega) (Nat.add_left_cancel hrest)
  exact Mark.ext hmillis hworker hcounter

/-- Neither of two overlapping marks is bare. -/
theorem not_bare_of_overlaps (hb : 2 ≤ base) (h : x.Overlaps base y) : ¬ x.Bare := by
  intro hx
  obtain ⟨hlt, _, heq⟩ := h
  rw [number_of_bare hx] at heq
  have hle : y.millis ≤ x.millis := heq ▸ millis_le_number
  exact absurd hlt (Nat.not_lt.mpr (width_mono hb hle))

theorem digits_eq_of_overlaps (hb : 2 ≤ base) (hx : x.worker < base) (hy : y.worker < base)
    (h : x.Overlaps base y) : x.digits base = y.digits base := by
  rw [digits_of_not_bare hb hx (not_bare_of_overlaps hb h), digits_of_not_bare hb hy h.2.1, h.2.2]

theorem digits_ne_of_bare (hb : 2 ≤ base) (hy : y.worker < base) (hxb : x.Bare) (hyb : ¬ y.Bare) :
    y.digits base ≠ x.digits base := by
  rw [digits_of_not_bare hb hy hyb, digits_of_bare hb hxb]
  exact ofNat_ne_append_zero hb (number_ne_zero hb hyb) _

/-- Marks are written alike when they are one, or one overlaps the other. -/
theorem digits_eq_iff (hb : 2 ≤ base) (hx : x.worker < base) (hy : y.worker < base) :
    x.digits base = y.digits base ↔ x = y ∨ x.Overlaps base y ∨ y.Overlaps base x := by
  constructor
  · intro h
    by_cases hxb : x.Bare
    · by_cases hyb : y.Bare
      · rw [digits_of_bare hb hxb, digits_of_bare hb hyb] at h
        have hmillis : x.millis = y.millis := ofNat_inj.mp (List.append_cancel_right h)
        exact Or.inl (Mark.ext hmillis (hxb.1.trans hyb.1.symm) (hxb.2.trans hyb.2.symm))
      · exact absurd h.symm (digits_ne_of_bare hb hy hxb hyb)
    · by_cases hyb : y.Bare
      · exact absurd h (digits_ne_of_bare hb hx hyb hxb)
      · rw [digits_of_not_bare hb hx hxb, digits_of_not_bare hb hy hyb, ofNat_inj] at h
        rcases Nat.lt_trichotomy (width base x.millis) (width base y.millis) with hlt | heq | hlt
        · exact Or.inr (Or.inl ⟨hlt, hyb, h⟩)
        · exact Or.inl (eq_of_number_eq hb hx hy heq h)
        · exact Or.inr (Or.inr ⟨hlt, hxb, h.symm⟩)
  · rintro (rfl | h | h)
    · rfl
    · exact digits_eq_of_overlaps hb hx hy h
    · exact (digits_eq_of_overlaps hb hy hx h).symm

end Mark

end IdMint.ShortId
