import IdMint.Proofs.TimeId.Poisoning
import IdMint.Proofs.TimeId.Rendering

/-! What an identifier tells of the call that issued it. Nodes are checked when an issuer is made,
and ticks and sequence numbers before they are packed, so nothing that is packed is cut, whatever
members of another precision have left in the cell. -/
namespace IdMint.TimeId

/-- The identifier tells who issued it and at which tick of the clock, all in full. -/
structure Carries (id : TimeId) (g : Issuer) (ms : Nat) : Prop where
  precision : id.precision = g.precision
  node : id.node = g.node
  timestamp : id.timestamp = g.precision.tickOfMillis ms
  timestamp_le : id.timestamp ≤ g.precision.maxTimestamp
  sequence_le : id.sequence ≤ g.precision.maxSequence
  elapsed : id.elapsedMillis = ms - ms % g.precision.tickMillis
  elapsed_le : id.elapsedMillis ≤ ms

variable {id : TimeId} {g : Issuer} {s : Stamp} {ms : Nat}

theorem Issuer.ofNode_eq_ok_iff {node : Nat} {p : Precision} :
    Issuer.ofNode node p = .ok g ↔ g.node = node ∧ g.precision = p := by
  rw [Issuer.ofNode]
  constructor
  · intro h
    split at h
    · cases h
      exact ⟨rfl, rfl⟩
    · cases h
  · rintro ⟨rfl, rfl⟩
    exact dif_pos g.node_le

/-- A tick starts at the last whole unit. -/
theorem tickOfMillis_mul_tickMillis (p : Precision) (ms : Nat) :
    p.tickOfMillis ms * p.tickMillis = ms - ms % p.tickMillis := by
  cases p with
  | second =>
    simp only [Precision.tickOfMillis, Precision.tickMillis]
    omega
  | millisecond =>
    simp only [Precision.tickOfMillis, Precision.tickMillis]
    omega

/-- The stamp that a state advances to is carried in full. -/
theorem carries_stamped {last : State}
    (h : (advance g.precision (g.precision.tickOfMillis ms) last).result = .ok s) :
    Carries (g.stamped s) g ms ∧ (g.stamped s).stamp = s := by
  obtain ⟨htick, _, _, hmax, hseq⟩ := advance_eq_ok_iff.mp h
  have hstamp := stamp_stamped hmax hseq
  have htimestamp : (g.stamped s).timestamp = s.tick := congrArg Stamp.tick hstamp
  have hsequence : (g.stamped s).sequence = s.sequence := congrArg Stamp.sequence hstamp
  have helapsed : (g.stamped s).elapsedMillis = ms - ms % g.precision.tickMillis := by
    rw [(g.stamped s).elapsedMillis_eq.1, precision_stamped, htimestamp, htick,
      tickOfMillis_mul_tickMillis]
  refine ⟨⟨by simp, by simp, htimestamp.trans htick, ?_, ?_, helapsed, ?_⟩, hstamp⟩
  · rw [htimestamp]
    exact hmax
  · rw [hsequence]
    exact hseq
  · rw [helapsed]
    exact Nat.sub_le ms _

namespace Fleet

variable {f : Fleet} {r : Request} {as : List Action} {e : Request × Outcome TimeId}

/-- What a turn issues tells of its request, and the stamp is the one that the cell is left with. -/
theorem turn_issued (hr : r.member.cell < f.cells.length) (h : (f.turn r).outcome = .issued id) :
    ∃ ms, r.reading = .millis ms ∧ Carries id r.member.issuer ms ∧
      ((f.turn r).fleet.cell r.member.cell).state = some ⟨id.timestamp, id.sequence⟩ := by
  have hvalue : (r.member.issuer.issue (f.cell r.member.cell) r.reading).outcome.value? =
      some id := by
    rw [← turn_value?, h]
    rfl
  rw [turn_cell hr]
  rcases issue_cases r.member.issuer (f.cell r.member.cell) r.reading with
    ⟨ms, s, _, hreading, hadvance, hissue⟩ | ⟨hnone, _⟩
  · rw [hissue] at hvalue ⊢
    obtain rfl : r.member.issuer.stamped s = id := Option.some.inj hvalue
    obtain ⟨hcarries, hstamp⟩ := carries_stamped hadvance
    exact ⟨ms, hreading, hcarries, congrArg some hstamp.symm⟩
  · rw [hnone] at hvalue
    cases hvalue

/-- Each call that is logged was a turn of the fleet as it was then. -/
theorem turn_of_mem_log (he : e ∈ f.log as) : ∃ past rest,
    as = past ++ .call e.1 :: rest ∧ ((f.after past).turn e.1).outcome = e.2 := by
  induction as generalizing f with
  | nil => cases he
  | cons a as ih =>
    cases a with
    | found g =>
      obtain ⟨past, rest, rfl, hout⟩ := ih he
      exact ⟨.found g :: past, rest, rfl, hout⟩
    | join g other =>
      obtain ⟨past, rest, rfl, hout⟩ := ih he
      exact ⟨.join g other :: past, rest, rfl, hout⟩
    | call r =>
      rcases List.mem_cons.mp he with rfl | he
      · exact ⟨[], as, rfl, rfl⟩
      · obtain ⟨past, rest, rfl, hout⟩ := ih he
        exact ⟨.call r :: past, rest, rfl, hout⟩

/-- Whatever happens to a fleet, an identifier that is issued tells the node and the precision of
the member, the tick of the clock then, and the sequence number that the cell is left with. An
issuer is made for any node and precision that there is room for, and the milliseconds of a tick are
always a word. -/
theorem issued_in_full (h : Possible empty as) :
    (∀ e ∈ empty.log as, ∀ id, e.2 = .issued id → ∃ ms past rest,
      as = past ++ .call e.1 :: rest ∧ ((empty.after past).turn e.1).outcome = .issued id ∧
      e.1.reading = .millis ms ∧ Carries id e.1.member.issuer ms ∧
      (((empty.after past).turn e.1).fleet.cell e.1.member.cell).state =
        some ⟨id.timestamp, id.sequence⟩) ∧
    (∀ node p g, Issuer.ofNode node p = .ok g ↔ g.node = node ∧ g.precision = p) ∧
    ∀ id : TimeId, id.timestamp * id.precision.tickMillis < UInt64.size ∧
      id.precision.millisOfTick id.timestamp = id.timestamp * id.precision.tickMillis := by
  refine ⟨?_, fun _ _ _ => Issuer.ofNode_eq_ok_iff, ?_⟩
  · rintro e he id hid
    obtain ⟨past, rest, rfl, hout⟩ := turn_of_mem_log he
    obtain ⟨hpast, hcall, _⟩ := possible_append.mp h
    rw [hid] at hout
    have hhoused := housed_after (assembled_member .empty) hpast
    obtain ⟨ms, hreading, hcarries, hstate⟩ := turn_issued (hhoused _ hcall) hout
    exact ⟨ms, past, rest, rfl, hout, hreading, hcarries, hstate⟩
  · intro id
    obtain ⟨helapsed, hlt⟩ := id.elapsedMillis_eq
    refine ⟨?_, helapsed⟩
    rw [← helapsed]
    exact Nat.lt_trans hlt (by decide)

/-- A member of a high number that counts milliseconds. -/
def late : Issuer := ⟨1000, .millisecond, by decide⟩

/-- A member that counts seconds, and one that counts milliseconds and joins it at the same tick. -/
def mixed : List Action :=
  [.found .standard, .call ⟨⟨.standard, 0⟩, .millis 5999, false⟩, .join late ⟨.standard, 0⟩,
    .call ⟨⟨late, 0⟩, .millis 5, true⟩]

theorem mixed_in_full :
    Possible empty mixed ∧
    empty.log mixed =
      [(⟨⟨.standard, 0⟩, .millis 5999, false⟩, .issued (.ofFields .second 5 0 0)),
        (⟨⟨late, 0⟩, .millis 5, true⟩, .issued (.ofFields .millisecond 5 1 1000))] ∧
    Carries (.ofFields .second 5 0 0) .standard 5999 ∧
    Carries (.ofFields .millisecond 5 1 1000) late 5 := by
  have hpossible : Possible empty mixed := by decide
  have hlog : empty.log mixed =
      [(⟨⟨.standard, 0⟩, .millis 5999, false⟩, .issued (.ofFields .second 5 0 0)),
        (⟨⟨late, 0⟩, .millis 5, true⟩, .issued (.ofFields .millisecond 5 1 1000))] := by
    decide +kernel
  obtain ⟨hissued, _⟩ := issued_in_full hpossible
  rw [hlog] at hissued
  obtain ⟨_, _, _, _, _, hfirst, hcarries, _⟩ := hissued _ (List.mem_cons_self ..) _ rfl
  obtain ⟨_, _, _, _, _, hsecond, hjoined, _⟩ :=
    hissued _ (List.mem_cons_of_mem _ (List.mem_cons_self ..)) _ rfl
  cases hfirst
  cases hsecond
  exact ⟨hpossible, hlog, hcarries, hjoined⟩

end Fleet

end IdMint.TimeId
