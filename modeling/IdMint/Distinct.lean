/-! Repeated elements: the first one of a list, and texts without any. -/
namespace IdMint.Distinct

variable {α : Type} [DecidableEq α]

/-- The first element that also occurs before itself, where `seen` has gone before. -/
def firstRepeatAfter (seen : List α) : List α → Option α
  | [] => none
  | x :: xs => if x ∈ seen then some x else firstRepeatAfter (x :: seen) xs

/-- The first element that also occurs before itself. -/
def firstRepeat (xs : List α) : Option α := firstRepeatAfter [] xs

theorem nodup_of_firstRepeatAfter {seen xs : List α}
    (h : firstRepeatAfter seen xs = none) : xs.Nodup ∧ ∀ x ∈ xs, x ∉ seen := by
  induction xs generalizing seen with
  | nil => simp
  | cons x xs ih =>
    rw [firstRepeatAfter] at h
    split at h
    · simp at h
    · rename_i hx
      obtain ⟨hn, hm⟩ := ih h
      refine ⟨List.nodup_cons.2 ⟨fun hx => hm x hx (by simp), hn⟩, ?_⟩
      intro y hy
      rcases List.mem_cons.1 hy with rfl | hy
      · exact hx
      · exact fun hs => hm y hy (by simp [hs])

theorem nodup_of_firstRepeat {xs : List α} (h : firstRepeat xs = none) :
    xs.Nodup := (nodup_of_firstRepeatAfter h).1

def isUnique (s : String) : Bool := (firstRepeat s.toList).isNone

end IdMint.Distinct
