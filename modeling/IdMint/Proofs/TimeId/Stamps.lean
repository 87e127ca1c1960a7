import IdMint.Proofs.Cell
import IdMint.TimeId.Issuer

/-! One step of the state, and the stamps of many steps. The stamp of a step carries the sequence
number that is due at its tick, so a succession of stamps skips no number of a tick and repeats
none. -/
namespace IdMint.TimeId

variable {p : Precision} {now t : Nat} {last : State} {b s : Stamp} {ss : List Stamp}

/-- An earlier tick, or an earlier sequence number within one tick. -/
def Stamp.Before (s t : Stamp) : Prop :=
  s.tick < t.tick ∨ s.tick = t.tick ∧ s.sequence < t.sequence

/-- The sequence number that comes next at a tick which the state has not passed. -/
def State.due : State → Nat → Nat
  | none, _ => 0
  | some s, tick => if s.tick = tick then s.sequence + 1 else 0

/-- The state has not passed a tick. -/
def State.Reached (last : State) (tick : Nat) : Prop := ∀ s ∈ last, s.tick ≤ tick

theorem Stamp.Before.trans {a b c : Stamp} (hab : a.Before b) (hbc : b.Before c) : a.Before c := by
  unfold Before at *
  omega

theorem Stamp.Before.ne {a b : Stamp} (h : a.Before b) : a ≠ b := by
  rintro rfl
  unfold Before at h
  omega

theorem advance_of_late (h : p.maxTimestamp < now) (last : State) :
    advance p now last = ⟨.error (.timeExhausted now p.maxTimestamp), last,
      [.timestampsExhausted now p.maxTimestamp]⟩ := by
  unfold advance
  rw [if_pos h]

theorem advance_of_behind (h : now ≤ p.maxTimestamp) (hb : now < b.tick) :
    advance p now (some b) = ⟨.error (.clockRolledBack b.tick now), some b,
      [.rollbackRefused b.tick now]⟩ := by
  simp only [advance]
  rw [if_neg (by omega), if_neg (by omega), if_pos hb]

theorem advance_of_reached (h : now ≤ p.maxTimestamp) (hr : last.Reached now) :
    advance p now last =
      if p.maxSequence < last.due now then
        ⟨.error (.sequenceExhausted now), last, [.tickExhausted now]⟩
      else ⟨.ok ⟨now, last.due now⟩, some ⟨now, last.due now⟩, []⟩ := by
  cases last with
  | none => simp [advance, State.due, Nat.not_lt.mpr h]
  | some b =>
    have hb : b.tick ≤ now := hr b rfl
    by_cases he : now = b.tick
    · subst he
      simp only [advance, State.due, Nat.not_lt.mpr h, if_false, if_true, Nat.lt_succ_iff]
    · have hd : State.due (some b) now = 0 := if_neg fun he' => he he'.symm
      simp only [advance, hd]
      rw [if_neg (by omega), if_neg he, if_neg (by omega), if_neg (by omega)]

/-- The tick is judged before it is compared with the last one, and the number due at it last. -/
theorem advance_cases (p : Precision) (now : Nat) (last : State) :
    (p.maxTimestamp < now ∧ advance p now last =
      ⟨.error (.timeExhausted now p.maxTimestamp), last,
        [.timestampsExhausted now p.maxTimestamp]⟩) ∨
    (∃ b, now ≤ p.maxTimestamp ∧ last = some b ∧ now < b.tick ∧ advance p now last =
      ⟨.error (.clockRolledBack b.tick now), last, [.rollbackRefused b.tick now]⟩) ∨
    (now ≤ p.maxTimestamp ∧ last.Reached now ∧ p.maxSequence < last.due now ∧
      advance p now last = ⟨.error (.sequenceExhausted now), last, [.tickExhausted now]⟩) ∨
    (now ≤ p.maxTimestamp ∧ last.Reached now ∧ last.due now ≤ p.maxSequence ∧
      advance p now last = ⟨.ok ⟨now, last.due now⟩, some ⟨now, last.due now⟩, []⟩) := by
  by_cases h : p.maxTimestamp < now
  · exact Or.inl ⟨h, advance_of_late h last⟩
  · have hle : now ≤ p.maxTimestamp := Nat.not_lt.mp h
    right
    by_cases hr : last.Reached now
    · right
      have ha := advance_of_reached hle hr
      by_cases hd : p.maxSequence < last.due now
      · exact Or.inl ⟨hle, hr, hd, ha.trans (if_pos hd)⟩
      · exact Or.inr ⟨hle, hr, Nat.not_lt.mp hd, ha.trans (if_neg hd)⟩
    · left
      cases last with
      | none => simp [State.Reached] at hr
      | some b =>
        have hb : now < b.tick := by simpa [State.Reached] using hr
        exact ⟨b, hle, rfl, hb, advance_of_behind hle hb⟩

/-- A refusal leaves the state as it was. -/
theorem advance_restrained (p : Precision) : Restrained (advance p) := by
  intro now last cause h
  rcases advance_cases p now last with ⟨_, ha⟩ | ⟨_, _, _, _, ha⟩ | ⟨_, _, _, ha⟩ | ⟨_, _, _, ha⟩
  · rw [ha]
  · rw [ha]
  · rw [ha]
  · rw [ha] at h
    cases h

theorem update_restrained (g : Issuer) : Restrained g.update := by
  apply restrained_map
  exact fun ms => advance_restrained g.precision (g.precision.tickOfMillis ms)

/-- A step succeeds exactly with the number due at a tick that the state has not passed, provided
that both can be written. -/
theorem advance_eq_ok_iff :
    (advance p now last).result = .ok s ↔ s.tick = now ∧ last.Reached s.tick ∧
      s.sequence = last.due s.tick ∧ s.tick ≤ p.maxTimestamp ∧ s.sequence ≤ p.maxSequence := by
  constructor
  · intro h
    rcases advance_cases p now last with
      ⟨_, ha⟩ | ⟨b, _, _, _, ha⟩ | ⟨_, _, _, ha⟩ | ⟨hle, hr, hd, ha⟩ <;> rw [ha] at h <;> cases h
    exact ⟨rfl, hr, rfl, hle, hd⟩
  · rintro ⟨rfl, hr, hd, hle, hseq⟩
    rw [advance_of_reached hle hr, ← hd, if_neg (Nat.not_lt.mpr hseq)]

/-- A step moves on to the stamp that it gives. -/
theorem advance_of_ok (h : (advance p now last).result = .ok s) :
    advance p now last = ⟨.ok s, some s, []⟩ := by
  rcases advance_cases p now last with
    ⟨_, ha⟩ | ⟨_, _, _, _, ha⟩ | ⟨_, _, _, ha⟩ | ⟨_, _, _, ha⟩ <;>
    rw [ha] at h ⊢ <;> cases h
  rfl

/-- Every number of a tick that the state has not passed is used up. -/
def State.Spent (p : Precision) (tick : Nat) (last : State) : Prop :=
  last.Reached tick ∧ p.maxSequence < last.due tick

theorem spent_of_advance (h : (advance p now last).result = .error (.sequenceExhausted t)) :
    t = now ∧ last.Spent p t := by
  rcases advance_cases p now last with
    ⟨_, ha⟩ | ⟨b, _, _, _, ha⟩ | ⟨_, hr, hd, ha⟩ | ⟨_, _, _, ha⟩ <;> rw [ha] at h <;> cases h
  exact ⟨rfl, hr, hd⟩

/-- A tick is only used up while it is the last one. -/
theorem tick_of_spent (h : last.Spent p t) : ∃ b, last = some b ∧ b.tick = t := by
  obtain ⟨_, hd⟩ := h
  cases last with
  | none => exact absurd hd (Nat.not_lt_zero _)
  | some b =>
    by_cases he : b.tick = t
    · exact ⟨b, rfl, he⟩
    · rw [State.due, if_neg he] at hd
      exact absurd hd (Nat.not_lt_zero _)

/-- Once a tick is used up, nothing is issued until a later tick that can be written. -/
theorem not_advance_of_spent (h : last.Spent p t) (hn : now ≤ t ∨ p.maxTimestamp < now) :
    (advance p now last).result ≠ .ok s := by
  intro ha
  obtain ⟨rfl, hr, hd, hmax, hseq⟩ := advance_eq_ok_iff.mp ha
  obtain ⟨b, rfl, rfl⟩ := tick_of_spent h
  have hb : b.tick ≤ s.tick := hr b rfl
  have he : s.tick = b.tick := by omega
  rw [he] at hd
  have := h.2
  omega

def State.after (last : State) (ss : List Stamp) : State := ss.getLast?.or last

/-- Each stamp carries the number due at its tick, and no tick is behind the one before. -/
def Succession : State → List Stamp → Prop
  | _, [] => True
  | last, s :: ss => last.Reached s.tick ∧ s.sequence = last.due s.tick ∧ Succession (some s) ss

theorem before_of_due (hr : State.Reached (some b) s.tick)
    (hs : s.sequence = State.due (some b) s.tick) : b.Before s := by
  have hb : b.tick ≤ s.tick := hr b rfl
  by_cases he : b.tick = s.tick
  · rw [State.due, if_pos he] at hs
    exact Or.inr ⟨he, by omega⟩
  · exact Or.inl (by omega)

theorem succession_before (h : Succession last ss) (hb : b ∈ last) (hs : s ∈ ss) : b.Before s := by
  obtain rfl : last = some b := hb
  induction ss generalizing b with
  | nil => simp at hs
  | cons a ss ih =>
    obtain ⟨hr, hd, ht⟩ := h
    have hba := before_of_due hr hd
    rcases List.mem_cons.mp hs with rfl | hs
    · exact hba
    · exact hba.trans (ih hs ht)

theorem succession_pairwise (h : Succession last ss) : ss.Pairwise Stamp.Before := by
  induction ss generalizing last with
  | nil => exact .nil
  | cons a ss ih =>
    obtain ⟨_, _, ht⟩ := h
    exact .cons (fun s hs => succession_before ht rfl hs) (ih ht)

/-- The numbers given at a tick run on from the number that was due there. -/
theorem succession_numbers (h : Succession last ss) (t : Nat) :
    (ss.filter (·.tick = t)).map Stamp.sequence =
      List.range' (last.due t) (ss.countP (·.tick = t)) := by
  induction ss generalizing last with
  | nil => rfl
  | cons s ss ih =>
    obtain ⟨hr, hd, ht⟩ := h
    by_cases hs : s.tick = t
    · subst hs
      have hdue : State.due (some s) s.tick = last.due s.tick + 1 := by
        rw [State.due, if_pos rfl, hd]
      rw [List.filter_cons_of_pos (by simp), List.countP_cons_of_pos (by simp), List.map_cons,
        ih ht, List.range'_succ, hdue, hd]
    · have hdue : State.due (some s) t = 0 := if_neg hs
      rw [List.filter_cons_of_neg (by simpa using hs), List.countP_cons_of_neg (by simpa using hs),
        ih ht, hdue]
      cases last with
      | none => rfl
      | some b =>
        by_cases hb : b.tick = t
        · have hlt : t < s.tick := by
            have := hr b rfl
            omega
          have hz : ss.countP (·.tick = t) = 0 := by
            rw [List.countP_eq_zero]
            intro c hc
            have hbc := succession_before ht rfl hc
            unfold Stamp.Before at hbc
            simp only [decide_eq_true_eq]
            omega
          rw [hz]
          rfl
        · rw [State.due, if_neg hb]

theorem after_cons (last : State) (s : Stamp) (ss : List Stamp) :
    last.after (s :: ss) = State.after (some s) ss := by
  cases ss with
  | nil => rfl
  | cons a ss => simp [State.after, List.getLast?_cons]

theorem reached_of_after (h : Succession last ss) (hr : (last.after ss).Reached t) :
    last.Reached t := by
  induction ss generalizing last with
  | nil => exact hr
  | cons s ss ih =>
    obtain ⟨hs, _, ht⟩ := h
    rw [after_cons] at hr
    have hst : s.tick ≤ t := ih ht hr s rfl
    intro b hb
    exact Nat.le_trans (hs b hb) hst

/-- A succession goes on with the stamp that is due after it. -/
theorem succession_append (h : Succession last ss) (hr : (last.after ss).Reached s.tick)
    (hs : s.sequence = (last.after ss).due s.tick) : Succession last (ss ++ [s]) := by
  induction ss generalizing last with
  | nil => exact ⟨hr, hs, trivial⟩
  | cons b ss ih =>
    obtain ⟨hb, hd, ht⟩ := h
    rw [after_cons] at hr hs
    exact ⟨hb, hd, ih ht hr hs⟩

/-- At a tick not yet passed, the number due has grown by the number of stamps given there. -/
theorem due_after (h : Succession last ss) (hr : (last.after ss).Reached t) :
    (last.after ss).due t = last.due t + ss.countP (·.tick = t) := by
  induction ss generalizing last with
  | nil => rfl
  | cons s ss ih =>
    obtain ⟨hs, hd, ht⟩ := h
    rw [after_cons] at hr ⊢
    rw [ih ht hr]
    have hst : s.tick ≤ t := reached_of_after ht hr s rfl
    by_cases he : s.tick = t
    · rw [List.countP_cons_of_pos (by simpa using he), State.due, if_pos he, hd, he]
      omega
    · rw [List.countP_cons_of_neg (by simpa using he), State.due, if_neg he]
      cases last with
      | none => rfl
      | some b =>
        have hb : b.tick ≤ s.tick := hs b rfl
        rw [State.due, if_neg (by omega)]

end IdMint.TimeId
