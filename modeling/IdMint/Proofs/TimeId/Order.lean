import IdMint.Proofs.TimeId.History

/-! Identifiers from one cell come in the order of their stamps, and among those of one precision in
the order of their words. The state shows the tick of the last one. -/
namespace IdMint.TimeId.Fleet

variable {f : Fleet} {rs : List Request}

theorem lt_of_stamp_before {a b : Issue} (ha : a ∈ f.issues rs) (hb : b ∈ f.issues rs)
    (hp : a.member.issuer.precision = b.member.issuer.precision)
    (h : a.id.stamp.Before b.id.stamp) : a.id < b.id := by
  obtain ⟨_, _, hpa⟩ := mem_issues ha
  obtain ⟨_, _, hpb⟩ := mem_issues hb
  exact lt_of_timestamp_sequence (hpa.trans (hp.trans hpb.symm)) h

theorem lastTick_eq (h : Assembled f) (hr : ∀ r ∈ rs, r.member ∈ f.members) (k : Nat) :
    ((f.run rs).2.cell k).state.lastTick =
      (f.issuesAt k rs).getLast?.map fun e => e.id.timestamp := by
  rw [state_eq_getLast h hr, State.lastTick, Option.map_map]
  rfl

/-- Issue order is the order of stamps and, for each precision, the numeric order; and after any
number of requests the state shows the tick of the last identifier, or none if there is none. -/
theorem issuesAt_in_order (h : Assembled f) (hr : ∀ r ∈ rs, r.member ∈ f.members) (k : Nat) :
    ((f.issuesAt k rs).Pairwise fun a b => a.id.timestamp < b.id.timestamp ∨
      a.id.timestamp = b.id.timestamp ∧ a.id.sequence < b.id.sequence) ∧
    (∀ p, ((f.issuesAt k rs).filter (·.member.issuer.precision = p)).Pairwise
      fun a b => a.id.raw < b.id.raw) ∧
    ∀ past, past <+: rs →
      (((f.run past).2.cell k).state.lastTick = none ↔ f.issuesAt k past = []) ∧
      ∀ e, (f.issuesAt k past).getLast? = some e →
        ((f.run past).2.cell k).state.lastTick = some e.id.timestamp := by
  have hp := issuesAt_pairwise (fun r hmem => assembled_member h _ (hr r hmem)) k
  refine ⟨hp, ?_, ?_⟩
  · intro p
    refine (hp.filter _).imp_of_mem ?_
    intro a b ha hb hab
    obtain ⟨ha, hpa⟩ := List.mem_filter.mp ha
    obtain ⟨hb, hpb⟩ := List.mem_filter.mp hb
    have he := (of_decide_eq_true hpa).trans (of_decide_eq_true hpb).symm
    exact lt_of_stamp_before (List.mem_filter.mp ha).1 (List.mem_filter.mp hb).1 he hab
  · intro past hpast
    have hl := lastTick_eq h (fun r hmem => hr r (hpast.subset hmem)) k
    rw [hl]
    constructor
    · rw [Option.map_eq_none_iff, List.getLast?_eq_none_iff]
    · intro e he
      rw [he]
      rfl

theorem trio_in_order :
    Assembled trio ∧ (∀ r ∈ trioRequests, r.member ∈ trio.members) ∧
    ((trio.issuesAt 0 trioRequests).map fun e => e.id.stamp) = [⟨5, 0⟩, ⟨5, 1⟩, ⟨6, 0⟩] ∧
    ((trio.issuesAt 0 trioRequests).Pairwise fun a b => a.id.timestamp < b.id.timestamp ∨
      a.id.timestamp = b.id.timestamp ∧ a.id.sequence < b.id.sequence) ∧
    ((trio.run trioRequests).2.cell 0).state.lastTick = some 6 := by
  have hr : ∀ r ∈ trioRequests, r.member ∈ trio.members := by decide
  obtain ⟨hp, _, hl⟩ := issuesAt_in_order trio_assembled hr 0
  refine ⟨trio_assembled, hr, by decide, hp, ?_⟩
  exact (hl trioRequests (List.prefix_refl _)).2 ⟨⟨.standard, 0⟩, ⟨25769803776⟩⟩ (by decide)

end IdMint.TimeId.Fleet
