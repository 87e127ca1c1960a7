/-! Positional digits of a natural number, least significant first, and the number they stand for.
-/
namespace IdMint.Digits

variable {base n d : Nat}

/-- The digits of `n` in `base`, least significant first. There is always at least one digit, and
the last is zero only when `n` is. -/
def ofNat (base n : Nat) : List Nat :=
  if _ : 2 ≤ base ∧ base ≤ n then n % base :: ofNat base (n / base) else [n]
termination_by n
decreasing_by exact Nat.div_lt_self (by omega) (by omega)

/-- The number that digits written least significant first stand for. -/
def value (base : Nat) : List Nat → Nat
  | [] => 0
  | d :: ds => d + base * value base ds

theorem ofNat_of_lt (h : n < base) : ofNat base n = [n] := by
  rw [ofNat, dif_neg (by omega)]

theorem ofNat_of_le (hb : 2 ≤ base) (h : base ≤ n) :
    ofNat base n = n % base :: ofNat base (n / base) := by
  rw [ofNat, dif_pos ⟨hb, h⟩]

theorem ofNat_ne_nil : ofNat base n ≠ [] := by
  rw [ofNat]
  split <;> simp

@[simp] theorem value_ofNat : value base (ofNat base n) = n := by
  induction n using Nat.strongRecOn with
  | _ n ih =>
    rw [ofNat]
    split
    · rename_i h
      have := ih (n / base) (Nat.div_lt_self (by omega) (by omega))
      rw [value, this, Nat.mod_add_div]
    · simp [value]

theorem lt_of_mem_ofNat (hb : 2 ≤ base) (hd : d ∈ ofNat base n) : d < base := by
  induction n using Nat.strongRecOn with
  | _ n ih =>
    rw [ofNat] at hd
    split at hd
    · rcases List.mem_cons.1 hd with rfl | hd
      · exact Nat.mod_lt _ (by omega)
      · exact ih (n / base) (Nat.div_lt_self (by omega) (by omega)) hd
    · simp at hd
      omega

end IdMint.Digits
