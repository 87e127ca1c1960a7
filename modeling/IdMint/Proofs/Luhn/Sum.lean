import IdMint.Luhn
import Mathlib.Logic.Function.Iterate

/-! The weighted sum as a number. It is kept to 32 bits, which loses nothing of as many digits as
anyone writes, and a digit is a check digit when it fills the sum up to a multiple of ten. -/
namespace IdMint.Luhn

variable {b : Bool} {d : Nat} {ds : List Nat}

def total (doubled : Bool) : List Nat → Nat
  | [] => 0
  | d :: ds => weight doubled d + total (!doubled) ds

/-- The most digits whose weighted sum takes 32 bits at most, whatever they are. -/
def capacity : Nat := 477218588

theorem weight_le (b : Bool) (h : d < 10) : weight b d ≤ 9 := by
  rw [weight]
  split
  · split <;> omega
  · omega

theorem toNat_sum (b : Bool) (ds : List Nat) : (sum b ds).toNat = total b ds % UInt32.size := by
  induction ds generalizing b with
  | nil => rfl
  | cons d ds ih =>
    rw [sum, total, UInt32.toNat_add, ih, UInt32.toNat_ofNat']
    exact (Nat.add_mod _ _ _).symm

theorem total_le (h : ∀ d ∈ ds, d < 10) : total b ds ≤ 9 * ds.length := by
  induction ds generalizing b with
  | nil => exact Nat.le_refl 0
  | cons d ds ih =>
    obtain ⟨hd, hds⟩ := List.forall_mem_cons.mp h
    have hweight := weight_le b hd
    have hrest := ih (b := !b) hds
    rw [total, List.length_cons]
    omega

/-- The sum of that many digits is not cut. -/
theorem toNat_sum_of_length_le (h : ∀ d ∈ ds, d < 10) (hlength : ds.length ≤ capacity) :
    (sum b ds).toNat = total b ds := by
  have hle := total_le (b := b) h
  have hroom : 9 * capacity < UInt32.size := by decide
  rw [toNat_sum, Nat.mod_eq_of_lt (by omega)]

theorem total_append (b : Bool) (ds es : List Nat) :
    total b (ds ++ es) = total b ds + total (not^[ds.length] b) es := by
  induction ds generalizing b with
  | nil => exact (Nat.zero_add _).symm
  | cons d ds ih =>
    rw [List.cons_append, total, total, ih, Nat.add_assoc]
    rfl

theorem total_zeros (b : Bool) (k : Nat) : total b (List.replicate k 0) = 0 := by
  induction k generalizing b with
  | zero => rfl
  | succ k ih =>
    rw [List.replicate_succ, total, ih]
    cases b <;> rfl

theorem checkDigits_lt (ds : List Nat) : checkDigits ds < 10 := Nat.mod_lt _ (by decide)

/-- The most significant digits may be zeros. -/
theorem checkDigits_append_zeros (ds : List Nat) (k : Nat) :
    checkDigits (ds ++ List.replicate k 0) = checkDigits ds := by
  rw [checkDigits, checkDigits, toNat_sum, toNat_sum, total_append, total_zeros, Nat.add_zero]

/-- A check digit counts with its own value, and makes the sum a multiple of ten. -/
theorem checkDigits_eq_iff (h : ∀ d ∈ ds, d < 10) (hlength : ds.length ≤ capacity) (hd : d < 10) :
    checkDigits ds = d ↔ total false (d :: ds) % 10 = 0 := by
  have htotal : total false (d :: ds) = d + total true ds := rfl
  rw [htotal, checkDigits, toNat_sum_of_length_le h hlength]
  omega

end IdMint.Luhn
