import IdMint.Digits
import Mathlib.Algebra.Order.Floor.Div
import Mathlib.Data.Nat.Digits.Lemmas
import Mathlib.Data.Nat.Size

/-! How many digits a number has, which of two numbers is less by their digits, and when the digits
of two numbers written one after the other are the digits of one number. -/
namespace IdMint.Digits

variable {base m n k : Nat}

def width (base n : Nat) : Nat := (ofNat base n).length

theorem width_pos : 0 < width base n := List.length_pos_of_ne_nil ofNat_ne_nil

theorem ofNat_inj : ofNat base m = ofNat base n ↔ m = n := by
  constructor
  · intro h
    have hvalue := congrArg (value base) h
    rwa [value_ofNat, value_ofNat] at hvalue
  · exact congrArg _

theorem ofNat_eq_digits (hb : 2 ≤ base) (hn : n ≠ 0) : ofNat base n = Nat.digits base n := by
  induction n using Nat.strongRecOn with
  | _ n ih =>
    rw [Nat.digits_eq_cons_digits_div hb hn]
    by_cases h : base ≤ n
    · have hdiv : n / base ≠ 0 := (Nat.div_pos h (by omega)).ne'
      rw [ofNat_of_le hb h, ih (n / base) (Nat.div_lt_self (by omega) hb) hdiv]
    · rw [ofNat_of_lt (by omega), Nat.div_eq_of_lt (by omega), Nat.mod_eq_of_lt (by omega),
        Nat.digits_zero]

theorem width_le_iff (hb : 2 ≤ base) (hk : 0 < k) : width base n ≤ k ↔ n < base ^ k := by
  by_cases hn : n = 0
  · subst hn
    have hz : width base 0 = 1 := by rw [width, ofNat_of_lt (by omega)]; rfl
    rw [hz]
    exact ⟨fun _ => Nat.pow_pos (by omega), fun _ => hk⟩
  · rw [width, ofNat_eq_digits hb hn]
    exact Nat.digits_length_le_iff hb n

theorem lt_pow_width (hb : 2 ≤ base) : n < base ^ width base n :=
  (width_le_iff hb width_pos).mp le_rfl

theorem width_mono (hb : 2 ≤ base) (h : m ≤ n) : width base m ≤ width base n :=
  (width_le_iff hb width_pos).mpr (h.trans_lt (lt_pow_width hb))

/-- The last digit is what is left of the number once all the others are taken off. -/
theorem getLast_ofNat (hb : 2 ≤ base) :
    (ofNat base n).getLast ofNat_ne_nil = n / base ^ (width base n - 1) := by
  induction n using Nat.strongRecOn with
  | _ n ih =>
    by_cases h : base ≤ n
    · have hwidth : width base n - 1 = width base (n / base) - 1 + 1 := by
        have hpos : 0 < width base (n / base) := width_pos
        rw [width, ofNat_of_le hb h, List.length_cons, ← width]
        omega
      simp only [ofNat_of_le hb h]
      rw [List.getLast_cons ofNat_ne_nil, ih (n / base) (Nat.div_lt_self (by omega) hb), hwidth,
        Nat.pow_succ', Nat.div_div_eq_div_mul]
    · have hone : ofNat base n = [n] := ofNat_of_lt (by omega)
      simp [width, hone]

/-- Where the most significant of several digits is the largest digit that there is. -/
theorem getLast_eq_pred_iff (hb : 2 ≤ base) :
    (ofNat base n).getLast ofNat_ne_nil = base - 1 ∧ 2 ≤ width base n ↔
      ∃ k, 0 < k ∧ (base - 1) * base ^ k ≤ n ∧ n < base ^ (k + 1) := by
  rw [getLast_ofNat hb]
  constructor
  · rintro ⟨hdiv, hwidth⟩
    have hpow : 0 < base ^ (width base n - 1) := Nat.pow_pos (by omega)
    have hpast : n < base ^ (width base n - 1 + 1) := by
      rw [Nat.sub_add_cancel (by omega)]
      exact lt_pow_width hb
    exact ⟨_, by omega, (Nat.le_div_iff_mul_le hpow).mp hdiv.ge, hpast⟩
  · rintro ⟨k, hk, hle, hpast⟩
    have hpow : 0 < base ^ k := Nat.pow_pos (by omega)
    have hreached : base ^ k ≤ n := (Nat.le_mul_of_pos_left _ (by omega)).trans hle
    have hwidth : width base n = k + 1 := by
      have hupper := (width_le_iff hb (Nat.succ_pos k)).mpr hpast
      have hlower : ¬ width base n ≤ k := by
        rw [width_le_iff hb hk]
        omega
      omega
    have hlow : base - 1 ≤ n / base ^ k := (Nat.le_div_iff_mul_le hpow).mpr hle
    have hhigh : n / base ^ k < base := Nat.div_lt_of_lt_mul hpast
    rw [hwidth, Nat.add_sub_cancel]
    omega

/-- Over a power of two the digits share out the bits. -/
theorem width_two_pow (hk : 0 < k) : width (2 ^ k) n = max 1 (n.size ⌈/⌉ k) := by
  refine eq_of_forall_ge_iff fun j => ?_
  rw [max_le_iff, ceilDiv_le_iff_le_mul hk, Nat.size_le, pow_mul]
  by_cases hj : 0 < j
  · rw [width_le_iff (Nat.le_self_pow hk.ne' 2) hj]
    exact (and_iff_right hj).symm
  · have hpos : 0 < width (2 ^ k) n := width_pos
    exact iff_of_false (by omega) fun h => hj h.1

/-- Digits written after those of `n` are digits of the number shifted past `n`. The last digit of
the whole is not zero, since the number written last is not. -/
theorem ofNat_append (hb : 2 ≤ base) (hm : m ≠ 0) :
    ofNat base n ++ ofNat base m = ofNat base (n + base ^ width base n * m) := by
  have hpos : 0 < base ^ width base n := Nat.pow_pos (by omega)
  by_cases hn : n = 0
  · subst hn
    have hone : ofNat base 0 = [0] := ofNat_of_lt (by omega)
    have hle : base ≤ base * m := Nat.le_mul_of_pos_right base (Nat.pos_of_ne_zero hm)
    rw [width, hone, List.length_singleton, pow_one, Nat.zero_add, ofNat_of_le hb hle,
      Nat.mul_mod_right, Nat.mul_div_cancel_left m (by omega)]
    rfl
  · have hsum : n + base ^ width base n * m ≠ 0 := by omega
    rw [ofNat_eq_digits hb hsum, width, ofNat_eq_digits hb hn, ofNat_eq_digits hb hm]
    exact Nat.digits_append_digits (by omega)

theorem ofNat_ne_append_zero (hb : 2 ≤ base) (hn : n ≠ 0) (ds : List Nat) :
    ofNat base n ≠ ds ++ [0] := by
  intro h
  rw [ofNat_eq_digits hb hn] at h
  have hlast := Nat.getLast_digit_ne_zero base hn
  simp [h] at hlast

/-- One more digit behind digits that are written most significant first. -/
theorem value_reverse_concat (base : Nat) (ds : List Nat) (d : Nat) :
    value base (ds ++ [d]).reverse = value base ds.reverse * base + d := by
  rw [List.reverse_append, List.reverse_singleton, List.singleton_append, value, Nat.add_comm,
    Nat.mul_comm]

theorem value_reverse_le_append (hb : 0 < base) (ds es : List Nat) :
    value base ds.reverse ≤ value base (ds ++ es).reverse := by
  induction es using List.reverseRecOn with
  | nil => rw [List.append_nil]
  | append_singleton es e ih =>
    rw [← List.append_assoc, value_reverse_concat]
    have hmul := Nat.le_mul_of_pos_right (value base (ds ++ es).reverse) hb
    omega

theorem value_eq_ofDigits (base : Nat) (ds : List Nat) : value base ds = Nat.ofDigits base ds := by
  induction ds with
  | nil => rfl
  | cons d ds ih => rw [value, ih, Nat.ofDigits_cons]

/-- A digit in front of others that are written most significant first. -/
theorem value_reverse_cons (base : Nat) (d : Nat) (ds : List Nat) :
    value base (d :: ds).reverse = value base ds.reverse + base ^ ds.length * d := by
  rw [value_eq_ofDigits, value_eq_ofDigits, Nat.ofDigits_reverse_cons]

theorem value_reverse_lt_pow {ds : List Nat} (hb : 2 ≤ base) (hlt : ∀ d ∈ ds, d < base) :
    value base ds.reverse < base ^ ds.length := by
  rw [value_eq_ofDigits, ← List.length_reverse]
  exact Nat.ofDigits_lt_base_pow_length hb fun d hd => hlt d (List.mem_reverse.mp hd)

/-- A larger leading digit outweighs whatever is behind it. -/
theorem add_mul_lt_iff {c d v w weight : Nat} (hv : v < weight) (hw : w < weight) :
    v + weight * c < w + weight * d ↔ c < d ∨ c = d ∧ v < w := by
  rcases Nat.lt_trichotomy c d with h | rfl | h
  · have hmul := Nat.mul_le_mul_left weight (Nat.succ_le_of_lt h)
    rw [Nat.mul_succ] at hmul
    omega
  · omega
  · have hmul := Nat.mul_le_mul_left weight (Nat.succ_le_of_lt h)
    rw [Nat.mul_succ] at hmul
    omega

/-- Of numbers with equally many digits the first digit that differs tells which is less. -/
theorem value_reverse_lt_iff {ds es : List Nat} (hb : 2 ≤ base) (hds : ∀ d ∈ ds, d < base)
    (hes : ∀ e ∈ es, e < base) (hlen : ds.length = es.length) :
    value base ds.reverse < value base es.reverse ↔ List.Lex (· < ·) ds es := by
  induction ds generalizing es with
  | nil =>
    obtain rfl := List.length_eq_zero_iff.mp hlen.symm
    exact iff_of_false (Nat.lt_irrefl 0) List.not_lex_nil
  | cons d ds ih =>
    obtain ⟨e, es, rfl⟩ := List.exists_cons_of_length_eq_add_one hlen.symm
    obtain ⟨-, hds'⟩ := List.forall_mem_cons.mp hds
    obtain ⟨-, hes'⟩ := List.forall_mem_cons.mp hes
    have hlen' : ds.length = es.length := Nat.succ.inj hlen
    have hd := value_reverse_lt_pow hb hds'
    have he := value_reverse_lt_pow hb hes'
    rw [← hlen'] at he
    rw [List.cons_lex_cons_iff, ← ih hds' hes' hlen', value_reverse_cons, value_reverse_cons,
      ← hlen', add_mul_lt_iff hd he]

/-- A number is less when it has fewer digits, or as many and a smaller one where they first differ
from the front. -/
theorem lt_iff_lex (hb : 2 ≤ base) : m < n ↔ width base m < width base n ∨
    width base m = width base n ∧
      List.Lex (· < ·) (ofNat base m).reverse (ofNat base n).reverse := by
  have hless {j k : Nat} (h : width base j < width base k) : j < k := by
    by_contra hle
    exact Nat.not_le_of_lt h (width_mono hb (Nat.le_of_not_lt hle))
  have hdigits (k : Nat) : ∀ d ∈ (ofNat base k).reverse, d < base :=
    fun d hd => lt_of_mem_ofNat hb (List.mem_reverse.mp hd)
  rcases Nat.lt_trichotomy (width base m) (width base n) with h | h | h
  · exact iff_of_true (hless h) (Or.inl h)
  · have hlen : (ofNat base m).reverse.length = (ofNat base n).reverse.length := by
      rwa [List.length_reverse, List.length_reverse]
    rw [← value_reverse_lt_iff hb (hdigits m) (hdigits n) hlen, List.reverse_reverse,
      List.reverse_reverse, value_ofNat, value_ofNat]
    omega
  · have hgreater := hless h
    omega

/-- Digits of which the last is not zero are those of the number that they stand for. -/
theorem ofNat_value {ds : List Nat} (hb : 2 ≤ base) (hlt : ∀ d ∈ ds, d < base) (hne : ds ≠ [])
    (hlast : ds.getLast hne ≠ 0) : ofNat base (value base ds) = ds := by
  have hdigits : Nat.digits base (value base ds) = ds := by
    rw [value_eq_ofDigits]
    exact Nat.digits_ofDigits base hb ds hlt fun _ => hlast
  have hpos : value base ds ≠ 0 := by
    intro hz
    rw [hz, Nat.digits_zero] at hdigits
    exact hne hdigits.symm
  rw [ofNat_eq_digits hb hpos, hdigits]

end IdMint.Digits
