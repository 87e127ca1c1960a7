/-! Seeded permutations. A linear congruential sequence picks, at each step, which element leaves
the pool next, so equal seeds give equal orders and nothing is lost or repeated. -/
namespace IdMint.Shuffle

variable {α : Type}

def modulus : UInt64 := 233280

/-- The state after `seed`; the product wraps at 64 bits before it is reduced. -/
def next (seed : UInt64) : UInt64 := (seed * 9301 + 49297) % modulus

theorem next_lt (seed : UInt64) : (next seed).toNat < 233280 := by
  simp only [next, modulus, UInt64.toNat_mod]
  exact Nat.mod_lt _ (by decide)

/-- The place in a pool of `remaining` elements that `seed` picks. The product is a word as well. -/
def pick (seed : UInt64) (remaining : Nat) : Nat :=
  (seed * UInt64.ofNat remaining / modulus).toNat

/-- A product that wrapped would only pick an earlier place. -/
theorem pick_next_lt {seed : UInt64} {remaining : Nat} (h : 0 < remaining) :
    pick (next seed) remaining < remaining := by
  have hmodulus : modulus.toNat = 233280 := rfl
  have hremaining : (UInt64.ofNat remaining).toNat ≤ remaining := by
    rw [UInt64.toNat_ofNat']
    exact Nat.mod_le ..
  rw [pick, UInt64.toNat_div, UInt64.toNat_mul, hmodulus, Nat.div_lt_iff_lt_mul (by decide),
    Nat.mul_comm remaining]
  apply Nat.lt_of_le_of_lt (Nat.mod_le ..)
  exact Nat.lt_of_le_of_lt (Nat.mul_le_mul_left _ hremaining)
    (Nat.mul_lt_mul_of_pos_right (next_lt seed) h)

/-- Moves picked elements from the pool to the front until one is left, which comes last. -/
def shuffle (pool : List α) (seed : UInt64) : List α :=
  if h : 1 < pool.length then
    have hi : pick (next seed) pool.length < pool.length := pick_next_lt (by omega)
    pool[pick (next seed) pool.length] ::
      shuffle (pool.eraseIdx (pick (next seed) pool.length)) (next seed)
  else pool
termination_by pool.length
decreasing_by rw [List.length_eraseIdx_of_lt hi]; omega

/-- Taking an element out and putting it first only reorders. -/
theorem cons_eraseIdx_perm {pool : List α} {i : Nat} (h : i < pool.length) :
    (pool[i] :: pool.eraseIdx i).Perm pool := by
  induction pool generalizing i with
  | nil => exact absurd h (Nat.not_lt_zero _)
  | cons x xs ih =>
    cases i with
    | zero => exact .refl _
    | succ i => exact (List.Perm.swap x _ _).trans ((ih (Nat.lt_of_succ_lt_succ h)).cons x)

/-- Shuffling only reorders. -/
theorem shuffle_perm (pool : List α) (seed : UInt64) : (shuffle pool seed).Perm pool := by
  fun_induction shuffle pool seed with
  | case1 pool seed _ hi ih => exact (ih.cons _).trans (cons_eraseIdx_perm hi)
  | case2 => exact .refl _

def text (s : String) (seed : UInt64) : String := String.ofList (shuffle s.toList seed)

end IdMint.Shuffle
