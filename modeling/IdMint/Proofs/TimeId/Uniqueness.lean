import IdMint.Proofs.TimeId.History

/-! No fleet issues one word twice, provided that members of different cells differ in node or
precision. Inside a cell the stamps keep identifiers apart, between cells the issuers do. -/
namespace IdMint.TimeId.Fleet

variable {f : Fleet} {rs : List Request}

/-- Members of different cells differ in node or precision; those of one cell may agree in both. -/
def Separate (f : Fleet) : Prop :=
  ∀ m ∈ f.members, ∀ n ∈ f.members, m.cell ≠ n.cell →
    (m.issuer.node, m.issuer.precision) ≠ (n.issuer.node, n.issuer.precision)

instance (f : Fleet) : Decidable (Separate f) :=
  inferInstanceAs (Decidable (∀ m ∈ f.members, ∀ n ∈ f.members, m.cell ≠ n.cell →
    (m.issuer.node, m.issuer.precision) ≠ (n.issuer.node, n.issuer.precision)))

/-- The stamps of one cell are in order also where identifiers of other cells lie between. -/
theorem issues_pairwise (h : ∀ r ∈ rs, r.member.cell < f.cells.length) :
    (f.issues rs).Pairwise fun a b =>
      a.member.cell = b.member.cell → a.id.stamp.Before b.id.stamp := by
  rw [List.pairwise_iff_forall_sublist]
  intro a b hab hcell
  have hat : [a, b].Sublist (f.issuesAt a.member.cell rs) := by
    simpa [issuesAt, hcell] using hab.filter (·.member.cell = a.member.cell)
  exact List.pairwise_iff_forall_sublist.mp (issuesAt_pairwise h a.member.cell) hat

theorem issue_ne_of_separate (hs : Separate f) (hr : ∀ r ∈ rs, r.member ∈ f.members)
    {a b : Issue} (ha : a ∈ f.issues rs) (hb : b ∈ f.issues rs)
    (hcell : a.member.cell ≠ b.member.cell) : a.id ≠ b.id := by
  obtain ⟨⟨q, hq, hqm⟩, hna, hpa⟩ := mem_issues ha
  obtain ⟨⟨r, hrs, hrm⟩, hnb, hpb⟩ := mem_issues hb
  have hne := hs a.member (hqm ▸ hr q hq) b.member (hrm ▸ hr r hrs) hcell
  intro he
  apply hne
  rw [← hna, ← hpa, ← hnb, ← hpb, he]

/-- Every word that the fleet issues is new, in every order of requests and for all readings. -/
theorem run_words_nodup (h : Assembled f) (hs : Separate f)
    (hr : ∀ r ∈ rs, r.member ∈ f.members) :
    (((f.run rs).1.filterMap Outcome.value?).map TimeId.raw).Nodup := by
  rw [← map_id_issues, List.map_map, List.nodup_iff_pairwise_ne, List.pairwise_map]
  have hp := issues_pairwise (f := f) fun r hmem => assembled_member h _ (hr r hmem)
  refine hp.imp_of_mem ?_
  intro a b ha hb hstamp hraw
  have he : a.id = b.id := congrArg TimeId.mk hraw
  by_cases hcell : a.member.cell = b.member.cell
  · exact (hstamp hcell).ne (congrArg stamp he)
  · exact issue_ne_of_separate hs hr ha hb hcell he

theorem trio_words_nodup :
    Assembled trio ∧ Separate trio ∧ (∀ r ∈ trioRequests, r.member ∈ trio.members) ∧
      ((trio.run trioRequests).1.filterMap Outcome.value?).length = 5 ∧
      (((trio.run trioRequests).1.filterMap Outcome.value?).map TimeId.raw).Nodup :=
  ⟨trio_assembled, by decide, by decide, by decide,
    run_words_nodup trio_assembled (by decide) (by decide)⟩

end IdMint.TimeId.Fleet
