import IdMint.Proofs.ShortId.History

/-! Beats in succession. While the clock does not move back, the counters of one millisecond run on
from the one that is due there, and none comes again before all words have been used. -/
namespace IdMint.ShortId

variable {source : Nat → UInt64} {rs : List Request} {last : State} {b : Beat} {bs : List Beat}

/-- The last beat is not ahead of a clock. -/
def State.Reached (last : State) (now : Nat) : Prop := ∀ b ∈ last, b.millis ≤ now

/-- Each beat is the one due after the beat before it, which is not ahead of it. -/
def Succession : State → List Beat → Prop
  | _, [] => True
  | last, b :: bs => last.Reached b.millis ∧ b = State.due b.millis last ∧ Succession (some b) bs

theorem succession_millis_le (h : Succession last bs) (hb : b ∈ last) :
    ∀ c ∈ bs, b.millis ≤ c.millis := by
  obtain rfl : last = some b := hb
  induction bs generalizing b with
  | nil => exact fun c hc => absurd hc List.not_mem_nil
  | cons d bs ih =>
    obtain ⟨hr, _, ht⟩ := h
    have hbd : b.millis ≤ d.millis := hr b rfl
    intro c hc
    rcases List.mem_cons.mp hc with rfl | hc
    · exact hbd
    · exact Nat.le_trans hbd (ih ht c hc)

theorem succession_sorted (h : Succession last bs) : bs.Pairwise (·.millis ≤ ·.millis) := by
  induction bs generalizing last with
  | nil => exact .nil
  | cons b bs ih =>
    obtain ⟨_, _, ht⟩ := h
    exact .cons (succession_millis_le ht rfl) (ih ht)

theorem add_ofNat_succ (start : UInt64) (i : Nat) :
    start + UInt64.ofNat (i + 1) = start + 1 + UInt64.ofNat i := by
  rw [UInt64.ofNat_add, UInt64.add_assoc, UInt64.add_comm (UInt64.ofNat i)]
  rfl

/-- The counters of a millisecond run on from the counter that is due there. -/
theorem succession_counters (h : Succession last bs) (t : Nat) :
    (bs.filter (·.millis = t)).map Beat.counter =
      (List.range (bs.countP (·.millis = t))).map fun i =>
        (State.due t last).counter + UInt64.ofNat i := by
  induction bs generalizing last with
  | nil => rfl
  | cons b bs ih =>
    obtain ⟨hr, hd, ht⟩ := h
    by_cases hb : b.millis = t
    · subst hb
      have hnext : (State.due b.millis (some b)).counter = b.counter + 1 := by
        rw [State.due, if_pos rfl]
      rw [List.filter_cons_of_pos (by simp), List.countP_cons_of_pos (by simp), List.map_cons,
        ih ht, List.range_succ_eq_map, List.map_cons, List.map_map, ← hd, hnext]
      congr 1
      · exact (UInt64.add_zero _).symm
      · exact List.map_congr_left fun i _ => (add_ofNat_succ _ i).symm
    · have hnext : (State.due t (some b)).counter = 0 := by
        rw [State.due, if_neg hb]
      rw [List.filter_cons_of_neg (by simpa using hb), List.countP_cons_of_neg (by simpa using hb),
        ih ht, hnext]
      cases last with
      | none => rfl
      | some c =>
        by_cases hc : c.millis = t
        · have hcb : c.millis ≤ b.millis := hr c rfl
          have hz : bs.countP (·.millis = t) = 0 := by
            rw [List.countP_eq_zero]
            intro d hmem
            have hbd : b.millis ≤ d.millis := succession_millis_le ht rfl d hmem
            simp only [decide_eq_true_eq]
            omega
          rw [hz]
          rfl
        · rw [State.due, if_neg hc]

/-- As many words in a row differ as there are words. -/
theorem nodup_map_add_ofNat (start : UInt64) (n : Nat) :
    ((List.range n).map fun i => start + UInt64.ofNat i).Nodup ↔ n ≤ UInt64.size := by
  constructor
  · intro h
    by_contra hn
    have hround : start + UInt64.ofNat 0 = start + UInt64.ofNat UInt64.size := rfl
    have hzero := List.inj_on_of_nodup_map h (List.mem_range.mpr (by omega))
      (List.mem_range.mpr (by omega)) hround
    exact absurd hzero (by decide)
  · intro hn
    refine List.nodup_range.map_on fun i hi j hj hij => ?_
    have hilt := List.mem_range.mp hi
    have hjlt := List.mem_range.mp hj
    have hword := congrArg UInt64.toNat ((UInt64.add_right_inj start).mp hij)
    rwa [UInt64.toNat_ofNat_of_lt' (by omega), UInt64.toNat_ofNat_of_lt' (by omega)] at hword

/-- No beat of a succession comes twice just when no counter comes round. -/
theorem succession_nodup_iff (h : Succession last bs) :
    bs.Nodup ↔ ∀ t, bs.countP (·.millis = t) ≤ UInt64.size := by
  constructor
  · intro hbs t
    rw [← nodup_map_add_ofNat (State.due t last).counter, ← succession_counters h t]
    refine (hbs.filter _).map_on ?_
    rintro ⟨m, i⟩ hb ⟨n, j⟩ hc rfl
    have hm := (List.mem_filter.mp hb).2
    have hn := (List.mem_filter.mp hc).2
    simp only [decide_eq_true_eq] at hm hn
    rw [hm, hn]
  · intro ht
    rw [List.nodup_iff_sublist]
    intro b hb
    have hnodup := (nodup_map_add_ofNat (State.due b.millis last).counter _).mpr (ht b.millis)
    rw [← succession_counters h] at hnodup
    have htwice : [b.counter, b.counter].Sublist
        ((bs.filter (·.millis = b.millis)).map Beat.counter) := by
      simpa using (hb.filter (·.millis = b.millis)).map Beat.counter
    exact List.nodup_iff_sublist.mp hnodup b.counter htwice

/-- From the start, the counters of a millisecond are counted from zero. -/
theorem succession_numbers (h : Succession none bs) {t : Nat}
    (ht : bs.countP (·.millis = t) ≤ UInt64.size) :
    (bs.filter (·.millis = t)).map (fun b => b.counter.toNat) =
      List.range (bs.countP (·.millis = t)) := by
  have hmap : (bs.filter (·.millis = t)).map (fun b => b.counter.toNat) =
      ((bs.filter (·.millis = t)).map Beat.counter).map UInt64.toNat := by
    rw [List.map_map]
    rfl
  rw [hmap, succession_counters h, List.map_map]
  refine (List.map_congr_left fun i hi => ?_).trans (List.map_id _)
  have hlt := List.mem_range.mp hi
  change (0 + UInt64.ofNat i).toNat = i
  rw [UInt64.zero_add, UInt64.toNat_ofNat_of_lt' (by omega)]

/-- From the start and until a counter comes round, each beat comes after those before it. -/
theorem succession_pairwise (h : Succession none bs)
    (ht : ∀ t, bs.countP (·.millis = t) ≤ UInt64.size) : bs.Pairwise Beat.Before := by
  rw [List.pairwise_iff_forall_sublist]
  intro b c hbc
  have hle := List.pairwise_iff_forall_sublist.mp (succession_sorted h) hbc
  rcases Nat.lt_or_eq_of_le hle with hlt | heq
  · exact Or.inl hlt
  · have hnumbers := succession_numbers h (ht c.millis)
    have hpair : [b.counter.toNat, c.counter.toNat].Sublist
        ((bs.filter (·.millis = c.millis)).map fun b => b.counter.toNat) := by
      simpa [heq] using (hbc.filter (·.millis = c.millis)).map fun b => b.counter.toNat
    rw [hnumbers] at hpair
    have hlt := List.pairwise_iff_forall_sublist.mp List.pairwise_lt_range hpair
    exact Or.inr ⟨heq, UInt64.lt_iff_toNat_lt.mpr hlt⟩

/-- A clock that never moves back gives a succession. -/
theorem Station.beats_succession {s : Station} (hs : Steady rs)
    (h : ∀ r ∈ rs, ∀ now, r.reading = .millis now → s.cell.state.Reached now) :
    Succession s.cell.state (beats (s.run source rs)) := by
  induction rs generalizing s with
  | nil => trivial
  | cons r rs ih =>
    obtain ⟨hlow, hrest⟩ := List.pairwise_cons.mp hs
    rw [beats_run_cons]
    rcases call_advance_cases s.cell r.reading with ⟨now, _, hr, _, hout, hcell⟩ | ⟨hout, hstate⟩
    · have hnext : (s.turn source r).station.cell.state = some (State.due now s.cell.state) := by
        simp [hcell]
      have ht := ih (s := (s.turn source r).station) hrest fun q hq m hm => by
        rw [hnext]
        rintro b ⟨⟩
        simpa using hlow q hq now m hr hm
      rw [hnext] at ht
      rw [hout]
      refine ⟨?_, ?_, ht⟩
      · simpa using h r (List.mem_cons_self ..) now hr
      · simp
    · have hnext : (s.turn source r).station.cell.state = s.cell.state := by
        simp [hstate]
      have ht := ih (s := (s.turn source r).station) hrest fun q hq m hm => by
        rw [hnext]
        exact h q (List.mem_cons_of_mem r hq) m hm
      rw [hnext] at ht
      rwa [hout]

end IdMint.ShortId
