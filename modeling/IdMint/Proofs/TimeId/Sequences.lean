import IdMint.Proofs.TimeId.History

/-! Members that share a cell and a precision use the numbers of each tick from zero without a gap,
and how a call ends can be told from the identifiers issued before it. -/
namespace IdMint.TimeId.Fleet

variable {f : Fleet} {rs : List Request} {k t : Nat} {p : Precision}

def issuesOf (f : Fleet) (k : Nat) (rs : List Request) (t : Nat) : List Issue :=
  (f.issuesAt k rs).filter (·.id.timestamp = t)

/-- How a call at the tick `t` ends, told from what was issued before: all of `past`, and `used`
identifiers of the tick itself. -/
structure Foretold (p : Precision) (node : Nat) (past : List Issue) (used t : Nat)
    (outcome : Outcome TimeId) : Prop where
  late : outcome = .refused (.timeExhausted t p.maxTimestamp) ↔ p.maxTimestamp < t
  behind : t ≤ p.maxTimestamp → ∀ last, outcome = .refused (.clockRolledBack last t) ↔
    (past.getLast?.map fun e => e.id.timestamp) = some last ∧ t < last
  full : t ≤ p.maxTimestamp → (∀ e ∈ past.getLast?, e.id.timestamp ≤ t) →
    (outcome = .refused (.sequenceExhausted t) ↔ used = p.maxSequence + 1)
  issued : t ≤ p.maxTimestamp → (∀ e ∈ past.getLast?, e.id.timestamp ≤ t) →
    used ≠ p.maxSequence + 1 → ∃ id, outcome = .issued id ∧ id.timestamp = t ∧
      id.sequence = used ∧ id.node = node ∧ id.precision = p

/-- The number due at a tick not yet passed counts the identifiers of that tick. -/
theorem due_eq_length (h : Assembled f) (hr : ∀ r ∈ rs, r.member ∈ f.members)
    (hreached : ((f.run rs).2.cell k).state.Reached t) :
    ((f.run rs).2.cell k).state.due t = (f.issuesOf k rs t).length := by
  have hin : ∀ r ∈ rs, r.member.cell < f.cells.length :=
    fun r hmem => assembled_member h _ (hr r hmem)
  have hs := stampsAt_succession hin k
  rw [run_state hin] at hreached ⊢
  rw [due_after hs hreached, assembled_cell h, stampsAt, List.countP_map, issuesOf,
    List.countP_eq_length_filter]
  simp only [Cell.state_fresh, State.due, Nat.zero_add]
  rfl

/-- The numbers of a tick are given in order, from zero and without a gap. -/
theorem issuesOf_numbers (h : Assembled f) (hr : ∀ r ∈ rs, r.member ∈ f.members) (k t : Nat) :
    (f.issuesOf k rs t).map (fun e => e.id.sequence) = List.range (f.issuesOf k rs t).length := by
  have hs := stampsAt_succession (fun r hmem => assembled_member h _ (hr r hmem)) k
  have hn := succession_numbers hs t
  rw [assembled_cell h, stampsAt, List.filter_map, List.map_map, List.countP_map,
    List.countP_eq_length_filter] at hn
  rw [List.range_eq_range']
  exact hn

theorem length_issuesOf_le (h : Assembled f) (hr : ∀ r ∈ rs, r.member ∈ f.members)
    (hp : ∀ m ∈ f.members, m.cell = k → m.issuer.precision = p) (t : Nat) :
    (f.issuesOf k rs t).length ≤ p.maxSequence + 1 := by
  by_cases hle : (f.issuesOf k rs t).length ≤ p.maxSequence + 1
  · exact hle
  · have hmem : p.maxSequence + 1 ∈ (f.issuesOf k rs t).map fun e => e.id.sequence := by
      rw [issuesOf_numbers h hr, List.mem_range]
      omega
    obtain ⟨e, he, hseq⟩ := List.mem_map.mp hmem
    obtain ⟨hat, hcell⟩ := List.mem_filter.mp (List.mem_filter.mp he).1
    obtain ⟨⟨r, hrs, hm⟩, _, hprec⟩ := mem_issues hat
    have hbound := e.id.sequence_le
    rw [hprec, hp e.member (hm ▸ hr r hrs) (of_decide_eq_true hcell), hseq] at hbound
    omega

section Foretold

variable {past : List Issue} {e : Issue} {used node : Nat}

theorem foretold_of_late (ht : p.maxTimestamp < t) :
    Foretold p node past used t (.refused (.timeExhausted t p.maxTimestamp)) := by
  have hno : ¬ t ≤ p.maxTimestamp := Nat.not_le.mpr ht
  constructor
  · exact iff_of_true rfl ht
  · exact fun hle => absurd hle hno
  · exact fun hle => absurd hle hno
  · exact fun hle => absurd hle hno

theorem foretold_of_behind (ht : t ≤ p.maxTimestamp) (he : past.getLast? = some e)
    (hlt : t < e.id.timestamp) :
    Foretold p node past used t (.refused (.clockRolledBack e.id.timestamp t)) := by
  have hno : ¬ ∀ e ∈ past.getLast?, e.id.timestamp ≤ t := by
    intro h
    exact absurd (h e he) (Nat.not_le.mpr hlt)
  constructor
  · simp [Nat.not_lt.mpr ht]
  · intro _ last
    simp only [he, Outcome.refused.injEq, Refusal.clockRolledBack.injEq, and_true,
      Option.map_some, Option.some.injEq]
    constructor
    · rintro rfl
      exact ⟨rfl, hlt⟩
    · exact fun h => h.1
  · exact fun _ h => absurd h hno
  · exact fun _ h => absurd h hno

/-- A clock that is not behind the last identifier has not moved back. -/
theorem not_behind (hpast : ∀ e ∈ past.getLast?, e.id.timestamp ≤ t) (last : Nat) :
    ¬ ((past.getLast?.map fun e => e.id.timestamp) = some last ∧ t < last) := by
  rintro ⟨hlast, hlt⟩
  obtain ⟨e, he, rfl⟩ := Option.map_eq_some_iff.mp hlast
  exact absurd (hpast e he) (Nat.not_le.mpr hlt)

theorem foretold_of_full (ht : t ≤ p.maxTimestamp)
    (hpast : ∀ e ∈ past.getLast?, e.id.timestamp ≤ t) (hfull : used = p.maxSequence + 1) :
    Foretold p node past used t (.refused (.sequenceExhausted t)) := by
  constructor
  · simp [Nat.not_lt.mpr ht]
  · intro _ last
    simpa only [Outcome.refused.injEq, reduceCtorEq, false_iff] using not_behind hpast last
  · exact fun _ _ => iff_of_true rfl hfull
  · exact fun _ _ hne => absurd hfull hne

theorem foretold_of_issued {g : Issuer} (ht : t ≤ g.precision.maxTimestamp)
    (hpast : ∀ e ∈ past.getLast?, e.id.timestamp ≤ t) (hused : used ≤ g.precision.maxSequence) :
    Foretold g.precision g.node past used t (.issued (g.stamped ⟨t, used⟩)) := by
  constructor
  · simp [Nat.not_lt.mpr ht]
  · intro _ last
    simpa only [reduceCtorEq, false_iff] using not_behind hpast last
  · intro _ _
    simp only [reduceCtorEq, false_iff]
    omega
  · intro _ _ _
    have hstamp := stamp_stamped (g := g) (s := ⟨t, used⟩) ht hused
    exact ⟨_, rfl, congrArg Stamp.tick hstamp, congrArg Stamp.sequence hstamp, by simp, by simp⟩

/-- What the state decides, the identifiers issued so far decide. -/
theorem foretold_advance {g : Issuer} {last : State}
    (hlast : last = past.getLast?.map fun e => e.id.stamp)
    (hused : used ≤ g.precision.maxSequence + 1) (hdue : last.Reached t → last.due t = used) :
    Foretold g.precision g.node past used t
      (.ofResult ((advance g.precision t last).result.map g.stamped)) := by
  have hreached : last.Reached t → ∀ e ∈ past.getLast?, e.id.timestamp ≤ t := by
    intro hr e he
    exact hr e.id.stamp (by rw [hlast, Option.mem_def.mp he]; rfl)
  rcases advance_cases g.precision t last with
    ⟨ht, ha⟩ | ⟨b, ht, hb, hlt, ha⟩ | ⟨ht, hr, hd, ha⟩ | ⟨ht, hr, hd, ha⟩
  · rw [ha]
    exact foretold_of_late ht
  · rw [hlast] at hb
    obtain ⟨e, he, rfl⟩ := Option.map_eq_some_iff.mp hb
    rw [ha]
    exact foretold_of_behind ht he hlt
  · rw [hdue hr] at hd
    rw [ha]
    exact foretold_of_full ht (hreached hr) (by omega)
  · rw [hdue hr] at hd ha
    rw [ha]
    exact foretold_of_issued ht (hreached hr) hd

end Foretold

/-- On a cell that is not poisoned, a request ends as the state advances. -/
theorem turn_outcome {m : Member} (h : (f.cell m.cell).poisoned = false) (ms : Nat) :
    (f.turn ⟨m, .millis ms, false⟩).outcome = .ofResult ((advance m.issuer.precision
      (m.issuer.precision.tickOfMillis ms) (f.cell m.cell).state).result.map m.issuer.stamped) := by
  simp only [turn, issue_millis h, Bool.false_eq_true, if_false]

/-- The outcome of a call is told by the identifiers issued before it. -/
theorem turn_foretold (h : Assembled f) (hr : ∀ r ∈ rs, r.member ∈ f.members)
    (hp : ∀ m ∈ f.members, m.cell = k → m.issuer.precision = p)
    (hc : ∀ r ∈ rs, r.member.cell = k → ∃ ms, r.reading = .millis ms)
    {m : Member} (hm : m ∈ f.members) (hk : m.cell = k) (ms : Nat) :
    Foretold p m.issuer.node (f.issuesAt k rs) (f.issuesOf k rs (p.tickOfMillis ms)).length
      (p.tickOfMillis ms) ((f.run rs).2.turn ⟨m, .millis ms, false⟩).outcome := by
  subst hk
  have hle := length_issuesOf_le h hr hp (p.tickOfMillis ms)
  obtain rfl := hp m hm rfl
  have hclean := run_unpoisoned (fun r hmem => assembled_member h _ (hr r hmem)) hc
    (by simp [assembled_cell h])
  rw [turn_outcome hclean]
  exact foretold_advance (state_eq_getLast h hr m.cell) hle fun hreached =>
    due_eq_length h hr hreached

/-- A request reads a clock at a tick that is no later than `t` or cannot be written. -/
def Idle (p : Precision) (t : Nat) (r : Request) : Prop :=
  ∃ ms, r.reading = .millis ms ∧ (p.tickOfMillis ms ≤ t ∨ p.maxTimestamp < p.tickOfMillis ms)

theorem turn_state_of_spent {r : Request} (h : r.member.cell < f.cells.length)
    (hp : r.member.cell = k → r.member.issuer.precision = p)
    (hidle : r.member.cell = k → Idle p t r) (hs : (f.cell k).state.Spent p t) :
    ((f.turn r).fleet.cell k).state = (f.cell k).state := by
  by_cases hk : r.member.cell = k
  · subst hk
    obtain rfl := hp rfl
    obtain ⟨ms, hms, hlate⟩ := hidle rfl
    rw [turn_cell h]
    rcases issue_cases r.member.issuer (f.cell r.member.cell) r.reading with
      ⟨ms', s, _, hms', ha, _⟩ | ⟨_, hstate⟩
    · obtain rfl : ms = ms' := by simpa [hms] using hms'
      exact absurd ha (not_advance_of_spent hs hlate)
    · exact hstate
  · simp [hk]

/-- A used-up tick stays the last one until a clock shows a later tick that can be written. -/
theorem run_state_of_spent (h : ∀ r ∈ rs, r.member.cell < f.cells.length)
    (hp : ∀ r ∈ rs, r.member.cell = k → r.member.issuer.precision = p)
    (hidle : ∀ r ∈ rs, r.member.cell = k → Idle p t r) (hs : (f.cell k).state.Spent p t) :
    ((f.run rs).2.cell k).state = (f.cell k).state := by
  induction rs generalizing f with
  | nil => rfl
  | cons r rs ih =>
    have hr := turn_state_of_spent (h r (by simp)) (hp r (by simp)) (hidle r (by simp)) hs
    rw [run_cons, ih (cells_turn h), hr]
    · exact fun a ha => hp a (by simp [ha])
    · exact fun a ha => hidle a (by simp [ha])
    · rwa [hr]

/-- The first call at a tick after a used-up one gets number zero. -/
theorem turn_after_spent {m : Member} (hk : m.cell = k) (hp : m.issuer.precision = p)
    (hc : (f.cell k).poisoned = false) (hs : (f.cell k).state.Spent p t) {ms : Nat}
    (hlt : t < p.tickOfMillis ms) (hle : p.tickOfMillis ms ≤ p.maxTimestamp) (demanded : Bool) :
    ∃ id, (f.turn ⟨m, .millis ms, demanded⟩).outcome = .issued id ∧
      id.timestamp = p.tickOfMillis ms ∧ id.sequence = 0 := by
  subst hk hp
  obtain ⟨b, hb, rfl⟩ := tick_of_spent hs
  have hreached : State.Reached (some b) (m.issuer.precision.tickOfMillis ms) := by
    intro s hmem
    obtain rfl : b = s := by simpa using hmem
    exact Nat.le_of_lt hlt
  have hdue : State.due (some b) (m.issuer.precision.tickOfMillis ms) = 0 :=
    if_neg (Nat.ne_of_lt hlt)
  have ho := turn_outcome hc ms
  rw [hb, advance_of_reached hle hreached, hdue, if_neg (Nat.not_lt_zero _)] at ho
  have hstamp := stamp_stamped (g := m.issuer) (s := ⟨_, 0⟩) hle (Nat.zero_le _)
  refine ⟨_, ?_, congrArg Stamp.tick hstamp, congrArg Stamp.sequence hstamp⟩
  cases demanded with
  | false => exact ho
  | true => exact congrArg Outcome.demand ho

/-- A call that finds no number left shows that its tick is used up. -/
theorem spent_of_outcome {m : Member} (hk : m.cell = k) (hp : m.issuer.precision = p)
    (hc : (f.cell k).poisoned = false) {ms : Nat}
    (ho : (f.turn ⟨m, .millis ms, false⟩).outcome = .refused (.sequenceExhausted t)) :
    t = p.tickOfMillis ms ∧ (f.cell k).state.Spent p t := by
  subst hk hp
  rw [turn_outcome hc] at ho
  apply spent_of_advance
  cases ha : (advance m.issuer.precision (m.issuer.precision.tickOfMillis ms)
      (f.cell m.cell).state).result with
  | ok s =>
    rw [ha] at ho
    cases ho
  | error cause =>
    rw [ha] at ho
    cases ho
    rfl

/-- Calls that stay at the used-up tick do not keep the next tick from starting at zero. -/
theorem turn_after_idle {m : Member} {ms : Nat}
    (h : ∀ r ∈ rs, r.member.cell < f.cells.length)
    (hp : ∀ r ∈ rs, r.member.cell = k → r.member.issuer.precision = p)
    (hidle : ∀ r ∈ rs, r.member.cell = k → Idle p t r)
    (hc : (f.cell k).poisoned = false) (hs : (f.cell k).state.Spent p t)
    (hk : m.cell = k) (hpm : m.issuer.precision = p) (hlt : t < p.tickOfMillis ms)
    (hle : p.tickOfMillis ms ≤ p.maxTimestamp) (demanded : Bool) :
    ∃ id, ((f.run rs).2.turn ⟨m, .millis ms, demanded⟩).outcome = .issued id ∧
      id.timestamp = p.tickOfMillis ms ∧ id.sequence = 0 := by
  refine turn_after_spent hk hpm (run_unpoisoned h ?_ hc) ?_ hlt hle demanded
  · intro r hr hcell
    obtain ⟨ms, hms, _⟩ := hidle r hr hcell
    exact ⟨ms, hms⟩
  · rwa [run_state_of_spent h hp hidle hs]

/-- Members of one cell and one precision number each tick from zero without a gap; the identifiers
issued so far decide every further call; and once a tick is used up, the first call at a later tick
that can be written gets number zero. -/
theorem numbers_complete (h : Assembled f) (hr : ∀ r ∈ rs, r.member ∈ f.members)
    (hp : ∀ m ∈ f.members, m.cell = k → m.issuer.precision = p)
    (hc : ∀ r ∈ rs, r.member.cell = k → ∃ ms, r.reading = .millis ms) :
    (∀ t, ∃ n, n ≤ p.maxSequence + 1 ∧
      (f.issuesOf k rs t).map (fun e => e.id.sequence) = List.range n) ∧
    (∀ m ∈ f.members, m.cell = k → ∀ ms,
      Foretold p m.issuer.node (f.issuesAt k rs) (f.issuesOf k rs (p.tickOfMillis ms)).length
        (p.tickOfMillis ms) ((f.run rs).2.turn ⟨m, .millis ms, false⟩).outcome) ∧
    (∀ m ∈ f.members, m.cell = k → ∀ ms t,
      ((f.run rs).2.turn ⟨m, .millis ms, false⟩).outcome = .refused (.sequenceExhausted t) →
      ∀ demanded between, (∀ r ∈ between, r.member ∈ f.members) →
      (∀ r ∈ between, r.member.cell = k → Idle p t r) →
      ∀ m' ∈ f.members, m'.cell = k → ∀ ms', t < p.tickOfMillis ms' →
      p.tickOfMillis ms' ≤ p.maxTimestamp → ∀ demanded', ∃ id,
        ((f.run (rs ++ ⟨m, .millis ms, demanded⟩ :: between)).2.turn
          ⟨m', .millis ms', demanded'⟩).outcome = .issued id ∧
        id.timestamp = p.tickOfMillis ms' ∧ id.sequence = 0) := by
  refine ⟨?_, ?_, ?_⟩
  · exact fun t => ⟨_, length_issuesOf_le h hr hp t, issuesOf_numbers h hr k t⟩
  · exact fun m hm hk ms => turn_foretold h hr hp hc hm hk ms
  · intro m hm hk ms t ho demanded between hbr hbi m' hm' hk' ms' hlt hle demanded'
    have hclean := run_unpoisoned (fun r hmem => assembled_member h _ (hr r hmem)) hc
      (by simp [assembled_cell h])
    obtain ⟨ht, hs⟩ := spent_of_outcome hk (hp m hm hk) hclean ho
    have hmem : ∀ r ∈ ⟨m, .millis ms, demanded⟩ :: between, r.member ∈ f.members := by
      rintro r hr
      rcases List.mem_cons.mp hr with rfl | hr
      · exact hm
      · exact hbr r hr
    rw [run_append]
    refine turn_after_idle ?_ ?_ ?_ hclean hs hk' (hp m' hm' hk') hlt hle demanded'
    · intro r hr
      simpa using assembled_member h _ (hmem r hr)
    · exact fun r hr => hp r.member (hmem r hr)
    · intro r hr hcell
      rcases List.mem_cons.mp hr with rfl | hr
      · exact ⟨ms, rfl, Or.inl (Nat.le_of_eq ht.symm)⟩
      · exact hbi r hr hcell

theorem trio_numbers :
    Assembled trio ∧ (∀ r ∈ trioRequests, r.member ∈ trio.members) ∧
    (∀ m ∈ trio.members, m.cell = 1 → m.issuer.precision = .millisecond) ∧
    (∀ r ∈ trioRequests, r.member.cell = 1 → ∃ ms, r.reading = .millis ms) ∧
    (∃ n, n ≤ 2048 ∧
      (trio.issuesOf 1 trioRequests 5).map (fun e => e.id.sequence) = List.range n) ∧
    ((trio.run trioRequests).2.turn
      ⟨⟨⟨0, .millisecond, Nat.zero_le _⟩, 1⟩, .millis 3, false⟩).outcome =
        .refused (.clockRolledBack 5 3) := by
  have hr : ∀ r ∈ trioRequests, r.member ∈ trio.members := by decide
  have hc : ∀ r ∈ trioRequests, r.member.cell = 1 → ∃ ms, r.reading = .millis ms := by
    simp [trioRequests]
  obtain ⟨hn, hf, _⟩ := numbers_complete (k := 1) (p := .millisecond) trio_assembled hr
    (by decide) hc
  refine ⟨trio_assembled, hr, by decide, hc, hn 5, ?_⟩
  exact ((hf _ (by decide) rfl 3).behind (by decide) 5).mpr (by decide)

end IdMint.TimeId.Fleet
