import IdMint.Proofs.TimeId.Rendering
import Mathlib.Data.Prod.Lex

/-! Identifiers of one precision sort by their fields. The order of words is the order of
timestamps, sequence numbers and nodes, and since a tick tells its instant, sorted words are sorted
by time. -/
namespace IdMint.TimeId

variable {a b : TimeId} {ids sorted : List TimeId}

/-- The fields by weight, of which the first that differs decides. -/
def place (a : TimeId) : ℕ ×ₗ ℕ ×ₗ ℕ := toLex (a.timestamp, toLex (a.sequence, a.node))

/-- The same with the instant of the tick in place of the timestamp. -/
def clockPlace (a : TimeId) : ℕ ×ₗ ℕ ×ₗ ℕ := toLex (a.unixMillis, toLex (a.sequence, a.node))

theorem lt_iff_place (hp : a.precision = b.precision) : a < b ↔ a.place < b.place := by
  simp only [place, Prod.Lex.toLex_lt_toLex]
  exact lt_iff_fields hp

theorem le_iff_not_lt : a ≤ b ↔ ¬ b < a := UInt64.not_lt.symm

theorem le_iff_place (hp : a.precision = b.precision) : a ≤ b ↔ a.place ≤ b.place := by
  rw [le_iff_not_lt, lt_iff_place hp.symm, not_lt]

/-- Ticks of one precision are in the order of their instants. -/
theorem unixMillis_lt_iff (hp : a.precision = b.precision) :
    a.unixMillis < b.unixMillis ↔ a.timestamp < b.timestamp := by
  have hpos : 0 < b.precision.tickMillis := by cases b.precision <;> decide
  rw [unixMillis, unixMillis, Nat.add_lt_add_iff_left, a.elapsedMillis_eq.1,
    b.elapsedMillis_eq.1, hp]
  exact Nat.mul_lt_mul_right hpos

theorem unixMillis_eq_iff (hp : a.precision = b.precision) :
    a.unixMillis = b.unixMillis ↔ a.timestamp = b.timestamp := by
  have hlt := unixMillis_lt_iff hp
  have hgt := unixMillis_lt_iff hp.symm
  omega

theorem le_iff_clockPlace (hp : a.precision = b.precision) :
    a ≤ b ↔ a.clockPlace ≤ b.clockPlace := by
  rw [le_iff_place hp]
  simp only [place, clockPlace, Prod.Lex.toLex_le_toLex, unixMillis_lt_iff hp, unixMillis_eq_iff hp]

theorem pairwise_mergeSort_le (ids : List TimeId) : (ids.mergeSort (· ≤ ·)).Pairwise (· ≤ ·) := by
  have htrans : ∀ a b c : TimeId, decide (a ≤ b) = true → decide (b ≤ c) = true →
      decide (a ≤ c) = true := by
    intro a b c hab hbc
    simp only [decide_eq_true_eq] at hab hbc ⊢
    exact UInt64.le_trans hab hbc
  have htotal : ∀ a b : TimeId, (decide (a ≤ b) || decide (b ≤ a)) = true := by
    intro a b
    simp only [Bool.or_eq_true, decide_eq_true_eq]
    exact UInt64.le_total a.raw b.raw
  exact (List.pairwise_mergeSort htrans htotal ids).imp of_decide_eq_true

theorem eq_mergeSort_iff (hperm : sorted.Perm ids) :
    sorted = ids.mergeSort (· ≤ ·) ↔ sorted.Pairwise (· ≤ ·) := by
  constructor
  · rintro rfl
    exact pairwise_mergeSort_le ids
  · intro h
    refine List.Perm.eq_of_pairwise ?_ h (pairwise_mergeSort_le ids)
      (hperm.trans (List.mergeSort_perm ids _).symm)
    intro a b _ _ hab hba
    exact congrArg TimeId.mk (UInt64.le_antisymm hab hba)

/-- Among identifiers of one precision the order is that of the fields, and to sort them is to sort
them by their instants, then by sequence number, and then by node. -/
theorem order_by_fields :
    (∀ a b : TimeId, a.precision = b.precision →
      (a < b ↔ a.place < b.place) ∧ (a ≤ b ↔ a.place ≤ b.place) ∧ (a = b ↔ a.place = b.place)) ∧
    ∀ (p : Precision) (ids : List TimeId), (∀ a ∈ ids, a.precision = p) →
      ∀ sorted, sorted.Perm ids → (sorted = ids.mergeSort (· ≤ ·) ↔
        sorted.Pairwise fun a b => a.clockPlace ≤ b.clockPlace) := by
  constructor
  · intro a b hp
    refine ⟨lt_iff_place hp, le_iff_place hp, ?_⟩
    constructor
    · rintro rfl
      rfl
    · intro h
      have hab := (le_iff_place hp).mpr h.le
      have hba := (le_iff_place hp.symm).mpr h.ge
      exact congrArg TimeId.mk (UInt64.le_antisymm hab hba)
  · intro p ids hp sorted hperm
    rw [eq_mergeSort_iff hperm]
    have hsame {a b : TimeId} (ha : a ∈ sorted) (hb : b ∈ sorted) : a.precision = b.precision :=
      (hp a (hperm.mem_iff.mp ha)).trans (hp b (hperm.mem_iff.mp hb)).symm
    constructor
    · intro h
      exact h.imp_of_mem fun ha hb hab => (le_iff_clockPlace (hsame ha hb)).mp hab
    · intro h
      exact h.imp_of_mem fun ha hb hab => (le_iff_clockPlace (hsame ha hb)).mpr hab

/-- Two identifiers of one tick with its last sequence number, and one of the tick that follows. -/
def extremes : List TimeId :=
  [.ofFields .millisecond 4398046511103 0 0, .ofFields .millisecond 4398046511102 2047 1023,
    .ofFields .millisecond 4398046511102 2047 1022]

theorem extremes_by_fields :
    (∀ a ∈ extremes, a.precision = .millisecond) ∧
    ofFields .millisecond 4398046511102 2047 1023 < ofFields .millisecond 4398046511103 0 0 ∧
    (extremes.reverse.Pairwise fun a b => a.clockPlace ≤ b.clockPlace) ∧
    extremes.reverse = extremes.mergeSort (· ≤ ·) := by
  obtain ⟨hpairs, hlists⟩ := order_by_fields
  have hp : ∀ a ∈ extremes, a.precision = .millisecond := by decide +kernel
  have hsorted : extremes.reverse.Pairwise fun a b => a.clockPlace ≤ b.clockPlace := by
    decide +kernel
  refine ⟨hp, ?_, hsorted, (hlists _ _ hp _ (List.reverse_perm _)).mpr hsorted⟩
  exact (hpairs _ _ (by decide +kernel)).1.mpr (by decide +kernel)

end IdMint.TimeId
