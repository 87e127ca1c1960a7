import IdMint.Proofs.ShortId.History
import IdMint.Proofs.TimeId.History

/-! Denied calls leave no trace. None of them moves a state or poisons a cell, so any of them can be
left out of a run and the other calls are answered as before. -/
namespace IdMint

variable {σ ρ ω α β : Type}

/-- A call that was denied. One who asked is told the cause. One who demanded is brought down by it,
while the clock worked. -/
inductive Denied : Clock.Reading → Bool → Outcome α → Prop where
  | told (reading : Clock.Reading) (cause : Refusal) : Denied reading false (.refused cause)
  | broughtDown (ms : Nat) (cause : Refusal) :
      Denied (.millis ms) true (.crashed ("failed to generate id: " ++ cause.message))

theorem Outcome.map_id (o : Outcome α) : o.map id = o := by
  cases o <;> rfl

/-- A call that its caller finds denied left the cell as it was. -/
theorem Cell.call_of_denied {c : Cell σ} {reading : Clock.Reading} {demanded : Bool}
    {update : Nat → σ → Update σ α} (hu : Restrained update) {f : α → β}
    (h : Denied reading demanded (if demanded then ((c.call reading update).outcome.map f).demand
      else (c.call reading update).outcome.map f)) :
    (c.call reading update).cell = c ∧ (c.call reading update).outcome.value? = none := by
  rcases c.call_cases reading update with
    ⟨_, hc⟩ | ⟨_, _, rfl, hc⟩ | ⟨_, _, _, _, _, hc⟩ | ⟨ms, cause, hp, _, hr, hc⟩
  · rw [hc]
    exact ⟨rfl, rfl⟩
  · rw [hc] at h
    cases demanded <;> cases h
  · rw [hc] at h
    cases demanded <;> cases h
  · rw [hc, hu ms c.state cause hr, ← hp]
    exact ⟨rfl, rfl⟩

/-- The elements of a list that are marked to be kept. -/
def kept (marks : List Bool) (xs : List α) : List α := ((marks.zip xs).filter Prod.fst).map Prod.snd

/-- Requests served one after the other: the answers, and the state in the end. -/
def serve (turn : σ → ρ → ω × σ) (s : σ) : List ρ → List ω × σ
  | [] => ([], s)
  | r :: rs =>
    ((turn s r).1 :: (serve turn (turn s r).2 rs).1, (serve turn (turn s r).2 rs).2)

/-- Requests that change nothing can be left out. -/
theorem serve_kept {turn : σ → ρ → ω × σ} {P : ρ → ω → Prop}
    (hP : ∀ s r, P r (turn s r).1 → (turn s r).2 = s) {s : σ} {rs : List ρ}
    {marks : List Bool} (hlen : marks.length = rs.length)
    (h : ∀ e ∈ marks.zip (rs.zip (serve turn s rs).1), e.1 = false → P e.2.1 e.2.2) :
    serve turn s (kept marks rs) = (kept marks (serve turn s rs).1, (serve turn s rs).2) := by
  induction rs generalizing s marks with
  | nil =>
    obtain rfl := List.length_eq_zero_iff.mp hlen
    rfl
  | cons r rs ih =>
    obtain ⟨mark, marks, rfl⟩ := List.exists_cons_of_length_eq_add_one hlen
    have hrest := ih (s := (turn s r).2) (Nat.succ.inj hlen) fun e he =>
      h e (List.mem_cons_of_mem _ he)
    cases mark with
    | true =>
      change serve turn s (r :: kept marks rs) = _
      rw [serve, hrest]
      rfl
    | false =>
      have hs := hP s r (h _ (List.mem_cons_self ..) rfl)
      rw [hs] at hrest
      rw [serve, hs]
      exact hrest

namespace TimeId.Fleet

theorem set_cell (f : Fleet) (k : Nat) : f.cells.set k (f.cell k) = f.cells := by
  rw [cell]
  by_cases hk : k < f.cells.length
  · simp [hk]
  · exact List.set_eq_of_length_le (Nat.le_of_not_lt hk)

theorem turn_of_denied {f : Fleet} {r : Request}
    (h : Denied r.reading r.demanded (f.turn r).outcome) : (f.turn r).fleet = f := by
  rw [turn, ← Outcome.map_id (r.member.issuer.issue _ _).outcome] at h
  have hcell := (Cell.call_of_denied (update_restrained r.member.issuer) h).1
  simp only [turn, Issuer.issue, hcell, set_cell]

theorem run_eq_serve (f : Fleet) (rs : List Request) :
    f.run rs = serve (fun f r => ((f.turn r).outcome, (f.turn r).fleet)) f rs := by
  induction rs generalizing f with
  | nil => rfl
  | cons r rs ih => rw [run, ih, serve]

end TimeId.Fleet

namespace ShortId.Station

theorem drawnBy_of_not_issued {o : Outcome Minted} (h : o.value? = none) : drawnBy o = 0 := by
  cases o with
  | issued m => cases h
  | refused cause => rfl
  | crashed words => rfl

theorem turn_of_denied {s : Station} {source : Nat → UInt64} {r : Request}
    (h : Denied r.reading r.demanded (s.turn source r).outcome) :
    (s.turn source r).station = s := by
  obtain ⟨hcell, hvalue⟩ := Cell.call_of_denied (update_restrained s.issuer _) h
  simp only [turn, Issuer.issue, hcell, drawnBy_of_not_issued hvalue, Nat.add_zero]

theorem run_eq_serve (s : Station) (source : Nat → UInt64) (rs : List Request) :
    s.run source rs = (serve (fun s r => (s.turn source r, (s.turn source r).station)) s rs).1 := by
  induction rs generalizing s with
  | nil => rfl
  | cons r rs ih => rw [run, ih, serve]

end ShortId.Station

/-- A denied call leaves all cells as they were, and the place in the random words too. Whichever of
them are left out of a run, the other calls are answered as before. -/
theorem denied_calls_leave_no_trace :
    (∀ (f : TimeId.Fleet) (r : TimeId.Request),
      Denied r.reading r.demanded (f.turn r).outcome → (f.turn r).fleet = f) ∧
    (∀ (f : TimeId.Fleet) (rs : List TimeId.Request) (marks : List Bool),
      marks.length = rs.length →
      (∀ e ∈ marks.zip (rs.zip (f.run rs).1), e.1 = false →
        Denied e.2.1.reading e.2.1.demanded e.2.2) →
      f.run (kept marks rs) = (kept marks (f.run rs).1, (f.run rs).2)) ∧
    (∀ (s : ShortId.Station) (source : Nat → UInt64) (r : ShortId.Request),
      Denied r.reading r.demanded (s.turn source r).outcome → (s.turn source r).station = s) ∧
    (∀ (s : ShortId.Station) (source : Nat → UInt64) (rs : List ShortId.Request)
      (marks : List Bool), marks.length = rs.length →
      (∀ e ∈ marks.zip (rs.zip (s.run source rs)), e.1 = false →
        Denied e.2.1.reading e.2.1.demanded e.2.2.outcome) →
      s.run source (kept marks rs) = kept marks (s.run source rs)) := by
  refine ⟨fun f r => TimeId.Fleet.turn_of_denied, ?_, fun s source r =>
    ShortId.Station.turn_of_denied, ?_⟩
  · intro f rs marks hlen h
    simp only [TimeId.Fleet.run_eq_serve] at h ⊢
    refine serve_kept (P := fun r o => Denied r.reading r.demanded o) ?_ hlen h
    exact fun f r => TimeId.Fleet.turn_of_denied
  · intro s source rs marks hlen h
    simp only [ShortId.Station.run_eq_serve] at h ⊢
    rw [serve_kept (P := fun r t => Denied r.reading r.demanded t.outcome) ?_ hlen h]
    exact fun s r => ShortId.Station.turn_of_denied

/-- Requests to one cell of which the second and the third find the clock behind. -/
def lateRequests : List TimeId.Request :=
  [⟨⟨.standard, 0⟩, .millis 5000, false⟩, ⟨⟨.standard, 0⟩, .millis 4000, false⟩,
    ⟨⟨.standard, 0⟩, .millis 4000, true⟩, ⟨⟨.standard, 0⟩, .millis 5000, true⟩]

/-- Requests of one millisecond, with a reading too late for any identifier in between. -/
def blockRequests : List ShortId.Request :=
  [⟨.millis 5, false⟩, ⟨.millis 1099511627776, true⟩, ⟨.millis 5, false⟩]

theorem late_calls_left_out :
    (TimeId.Fleet.trio.run lateRequests).1.length = 4 ∧
    TimeId.Fleet.trio.run (kept [true, false, false, true] lateRequests) =
      (kept [true, false, false, true] (TimeId.Fleet.trio.run lateRequests).1,
        (TimeId.Fleet.trio.run lateRequests).2) ∧
    ∀ source, (ShortId.Station.ofIssuer ⟨1, .standard, by decide⟩).run source
        (kept [true, false, true] blockRequests) =
      kept [true, false, true]
        ((ShortId.Station.ofIssuer ⟨1, .standard, by decide⟩).run source blockRequests) := by
  obtain ⟨_, hfleet, _, hstation⟩ := denied_calls_leave_no_trace
  refine ⟨rfl, ?_, ?_⟩
  · have hrun : (TimeId.Fleet.trio.run lateRequests).1 =
        [.issued (.ofFields .second 5 0 0), .refused (.clockRolledBack 5 4),
          .crashed ("failed to generate id: " ++ (Refusal.clockRolledBack 5 4).message),
          .issued (.ofFields .second 5 1 0)] := rfl
    refine hfleet _ _ _ rfl ?_
    rw [hrun]
    refine List.forall_mem_cons.mpr ⟨nofun, List.forall_mem_cons.mpr ⟨?_, ?_⟩⟩
    · exact fun _ => .told _ _
    · refine List.forall_mem_cons.mpr ⟨fun _ => .broughtDown _ _, ?_⟩
      exact List.forall_mem_cons.mpr ⟨nofun, List.forall_mem_nil _⟩
  · intro source
    refine hstation _ _ _ _ rfl ?_
    refine List.forall_mem_cons.mpr ⟨nofun, List.forall_mem_cons.mpr ⟨?_, ?_⟩⟩
    · exact fun _ => .broughtDown _ _
    · exact List.forall_mem_cons.mpr ⟨nofun, List.forall_mem_nil _⟩

end IdMint
