import IdMint.Proofs.Cell
import IdMint.Proofs.TimeId.Layout
import IdMint.Proofs.TimeId.Stamps
import IdMint.TimeId.Fleet

/-! What a fleet issues. The stamps issued from one cell are a succession that starts at its state
and ends in its next state, whatever the other cells do. -/
namespace IdMint.TimeId

variable {g : Issuer} {s : Stamp} {f : Fleet} {r : Request} {rs : List Request} {k : Nat}

def stamp (id : TimeId) : Stamp := ⟨id.timestamp, id.sequence⟩

@[simp] theorem precision_stamped (g : Issuer) (s : Stamp) :
    (g.stamped s).precision = g.precision :=
  (fields_ofFields g.precision s.tick s.sequence g.node).1

@[simp] theorem node_stamped (g : Issuer) (s : Stamp) : (g.stamped s).node = g.node := by
  have hn := (fields_ofFields g.precision s.tick s.sequence g.node).2.2.2
  rw [Nat.mod_eq_of_lt (Nat.lt_succ_of_le g.node_le)] at hn
  exact hn

/-- A stamp within the bounds of the precision is not cut. -/
theorem stamp_stamped (ht : s.tick ≤ g.precision.maxTimestamp)
    (hs : s.sequence ≤ g.precision.maxSequence) : (g.stamped s).stamp = s := by
  obtain ⟨_, htick, hseq, _⟩ := fields_ofFields g.precision s.tick s.sequence g.node
  rw [Nat.mod_eq_of_lt (Nat.lt_succ_of_le ht)] at htick
  rw [Nat.mod_eq_of_lt (Nat.lt_succ_of_le hs)] at hseq
  simp only [stamp, Issuer.stamped, htick, hseq]

/-- A call issues the stamp that the state advances to, or leaves the state where it was. -/
theorem issue_cases (g : Issuer) (c : Cell State) (reading : Clock.Reading) :
    (∃ ms s, c.poisoned = false ∧ reading = .millis ms ∧
      (advance g.precision (g.precision.tickOfMillis ms) c.state).result = .ok s ∧
      g.issue c reading = ⟨.issued (g.stamped s), ⟨some s, false⟩, []⟩) ∨
    ((g.issue c reading).outcome.value? = none ∧ (g.issue c reading).cell.state = c.state) := by
  rcases Cell.issued_cases (update_restrained g) c reading with ⟨ms, id, hp, hr, hu, h⟩ | hleft
  · left
    rw [Issuer.issue, h]
    cases ha : (advance g.precision (g.precision.tickOfMillis ms) c.state).result with
    | error cause => simp [Issuer.update, Update.map, ha, Except.map] at hu
    | ok s =>
      simp only [Issuer.update, advance_of_ok ha] at hu ⊢
      cases hu
      exact ⟨ms, s, hp, hr, ha, rfl⟩
  · exact Or.inr hleft

/-- On a cell that is not poisoned, a call ends as the state advances. -/
theorem issue_millis {c : Cell State} (hc : c.poisoned = false) (g : Issuer) (ms : Nat) :
    g.issue c (.millis ms) =
      let u := advance g.precision (g.precision.tickOfMillis ms) c.state
      ⟨.ofResult (u.result.map g.stamped), ⟨u.state, false⟩, u.events⟩ := by
  rw [Issuer.issue, Cell.call_of_millis hc]
  rfl

namespace Fleet

/-- Fleets before the first call: each member has been founded with a cell of its own or has joined
a member that was there before it. -/
inductive Assembled : Fleet → Prop where
  | empty : Assembled empty
  | found {f : Fleet} (h : Assembled f) (g : Issuer) : Assembled (f.found g)
  | join {f : Fleet} (h : Assembled f) (g : Issuer) {other : Member} (ho : other ∈ f.members) :
      Assembled (f.join g other)

/-- Every member draws from a cell that there is. -/
def Housed (f : Fleet) : Prop := ∀ m ∈ f.members, m.cell < f.cells.length

theorem housed_found (h : Housed f) (g : Issuer) : Housed (f.found g) := by
  intro m hm
  simp only [found, List.mem_append, List.mem_singleton, List.length_append,
    List.length_singleton] at hm ⊢
  rcases hm with hm | rfl
  · exact Nat.lt_succ_of_lt (h m hm)
  · exact Nat.lt_succ_self _

theorem housed_join {other : Member} (h : Housed f) (g : Issuer) (ho : other ∈ f.members) :
    Housed (f.join g other) := by
  intro m hm
  simp only [join, List.mem_append, List.mem_singleton] at hm ⊢
  rcases hm with hm | rfl
  · exact h m hm
  · exact h other ho

/-- A founded member changes no cell: its own is as good as new. -/
@[simp] theorem cell_found (f : Fleet) (g : Issuer) (k : Nat) : (f.found g).cell k = f.cell k := by
  rw [cell, cell, found]
  by_cases hk : k < f.cells.length
  · rw [List.getElem?_append_left hk]
  · have hle := Nat.le_of_not_lt hk
    rw [List.getElem?_append_right hle, List.getElem?_eq_none hle]
    cases k - f.cells.length <;> rfl

@[simp] theorem cell_join (f : Fleet) (g : Issuer) (other : Member) (k : Nat) :
    (f.join g other).cell k = f.cell k := rfl

theorem assembled_member (h : Assembled f) : Housed f := by
  induction h with
  | empty => simp [Housed, empty]
  | found _ g ih => exact housed_found ih g
  | join _ g ho ih => exact housed_join ih g ho

theorem assembled_cell (h : Assembled f) (k : Nat) : f.cell k = .fresh none := by
  induction h with
  | empty => rfl
  | found _ g ih => simpa using ih
  | join _ g _ ih => simpa using ih

/-- Two members that count seconds on one cell, and one that counts milliseconds on another. -/
def trio : Fleet :=
  ((empty.found .standard).join .standard ⟨.standard, 0⟩).found ⟨0, .millisecond, Nat.zero_le _⟩

theorem trio_assembled : Assembled trio :=
  .found (.join (.found .empty .standard) .standard (by decide)) _

/-- Requests to both cells. One clock moves back and one breaks down. -/
def trioRequests : List Request :=
  [⟨⟨.standard, 0⟩, .millis 5000, false⟩, ⟨⟨.standard, 0⟩, .millis 5999, true⟩,
    ⟨⟨⟨0, .millisecond, Nat.zero_le _⟩, 1⟩, .millis 5, false⟩,
    ⟨⟨.standard, 0⟩, .millis 4000, false⟩, ⟨⟨.standard, 0⟩, .millis 6000, false⟩,
    ⟨⟨.standard, 0⟩, .failed "clock failure", false⟩,
    ⟨⟨⟨0, .millisecond, Nat.zero_le _⟩, 1⟩, .millis 5, false⟩]

@[simp] theorem turn_length (f : Fleet) (r : Request) :
    (f.turn r).fleet.cells.length = f.cells.length := by
  simp [turn]

/-- The cells of the requests to come are still there after a turn. -/
theorem cells_turn (h : ∀ q ∈ r :: rs, q.member.cell < f.cells.length) :
    ∀ q ∈ rs, q.member.cell < (f.turn r).fleet.cells.length := by
  intro q hq
  simpa using h q (List.mem_cons_of_mem r hq)

@[simp] theorem turn_value? (f : Fleet) (r : Request) : (f.turn r).outcome.value? =
    (r.member.issuer.issue (f.cell r.member.cell) r.reading).outcome.value? := by
  simp only [turn]
  split
  · exact Outcome.value?_demand _
  · rfl

@[simp] theorem turn_cell (h : r.member.cell < f.cells.length) :
    (f.turn r).fleet.cell r.member.cell =
      (r.member.issuer.issue (f.cell r.member.cell) r.reading).cell := by
  simp [turn, cell, h]

@[simp] theorem turn_cell_of_ne (h : r.member.cell ≠ k) : (f.turn r).fleet.cell k = f.cell k := by
  simp [turn, cell, h]

theorem run_cons (f : Fleet) (r : Request) (rs : List Request) :
    f.run (r :: rs) = ((f.turn r).outcome :: ((f.turn r).fleet.run rs).1,
      ((f.turn r).fleet.run rs).2) := rfl

theorem run_append (f : Fleet) (rs qs : List Request) :
    (f.run (rs ++ qs)).2 = ((f.run rs).2.run qs).2 := by
  induction rs generalizing f with
  | nil => rfl
  | cons r rs ih =>
    rw [List.cons_append, run_cons, run_cons]
    exact ih _

@[simp] theorem run_length (f : Fleet) (rs : List Request) :
    (f.run rs).2.cells.length = f.cells.length := by
  induction rs generalizing f with
  | nil => rfl
  | cons r rs ih => simp [run_cons, ih]

/-- Only a clock that breaks down poisons a cell. -/
theorem turn_unpoisoned (h : r.member.cell < f.cells.length)
    (hc : r.member.cell = k → ∃ ms, r.reading = .millis ms) (hp : (f.cell k).poisoned = false) :
    ((f.turn r).fleet.cell k).poisoned = false := by
  by_cases hk : r.member.cell = k
  · subst hk
    obtain ⟨ms, hms⟩ := hc rfl
    rw [turn_cell h, hms, issue_millis hp]
  · simpa [hk] using hp

theorem run_unpoisoned (h : ∀ r ∈ rs, r.member.cell < f.cells.length)
    (hc : ∀ r ∈ rs, r.member.cell = k → ∃ ms, r.reading = .millis ms)
    (hp : (f.cell k).poisoned = false) : ((f.run rs).2.cell k).poisoned = false := by
  induction rs generalizing f with
  | nil => exact hp
  | cons r rs ih =>
    rw [run_cons]
    apply ih (cells_turn h)
    · exact fun a ha => hc a (by simp [ha])
    · exact turn_unpoisoned (h r (by simp)) (hc r (by simp)) hp

/-- An identifier and the member that it was issued to. -/
structure Issue where
  member : Member
  id : TimeId
deriving DecidableEq

/-- What requests are issued, in the order in which they are served. -/
def issues (f : Fleet) (rs : List Request) : List Issue :=
  (rs.zip (f.run rs).1).filterMap fun (r, o) => o.value?.map (Issue.mk r.member)

def issuesAt (f : Fleet) (k : Nat) (rs : List Request) : List Issue :=
  (f.issues rs).filter (·.member.cell = k)

theorem issues_cons (f : Fleet) (r : Request) (rs : List Request) : f.issues (r :: rs) =
    ((f.turn r).outcome.value?.map (Issue.mk r.member)).toList ++ (f.turn r).fleet.issues rs := by
  rw [issues, run_cons, List.zip_cons_cons]
  cases h : (f.turn r).outcome.value? with
  | none => rw [List.filterMap_cons_none (by simp [h])]; rfl
  | some id => rw [List.filterMap_cons_some (b := ⟨r.member, id⟩) (by simp [h])]; rfl

theorem map_id_issues (f : Fleet) (rs : List Request) :
    (f.issues rs).map Issue.id = (f.run rs).1.filterMap Outcome.value? := by
  induction rs generalizing f with
  | nil => rfl
  | cons r rs ih =>
    rw [issues_cons, run_cons, List.map_append, ih]
    cases h : (f.turn r).outcome.value? <;> simp [h]

/-- An identifier carries the node and the precision of the member that it was issued to. -/
theorem mem_issues {e : Issue} (he : e ∈ f.issues rs) :
    (∃ r ∈ rs, r.member = e.member) ∧ e.id.node = e.member.issuer.node ∧
      e.id.precision = e.member.issuer.precision := by
  induction rs generalizing f with
  | nil => cases he
  | cons r rs ih =>
    rw [issues_cons, List.mem_append, turn_value?] at he
    rcases he with he | he
    · rcases issue_cases r.member.issuer (f.cell r.member.cell) r.reading with
        ⟨_, s, _, _, _, hi⟩ | ⟨hv, _⟩
      · rw [hi] at he
        obtain rfl : e = ⟨r.member, r.member.issuer.stamped s⟩ := by simpa using he
        simp
      · simp [hv] at he
    · obtain ⟨⟨a, ha, hm⟩, hfields⟩ := ih he
      exact ⟨⟨a, by simp [ha], hm⟩, hfields⟩

theorem issuesAt_cons (f : Fleet) (k : Nat) (r : Request) (rs : List Request) :
    f.issuesAt k (r :: rs) =
      (if r.member.cell = k then
        ((f.turn r).outcome.value?.map (Issue.mk r.member)).toList
      else []) ++ (f.turn r).fleet.issuesAt k rs := by
  rw [issuesAt, issues_cons, List.filter_append]
  cases (f.turn r).outcome.value? with
  | none => simp [issuesAt]
  | some id => by_cases hk : r.member.cell = k <;> simp [issuesAt, hk]

def stampsAt (f : Fleet) (k : Nat) (rs : List Request) : List Stamp :=
  (f.issuesAt k rs).map fun e => e.id.stamp

/-- A request to a cell issues one stamp that the state of the cell advances to, or none. -/
theorem stampsAt_cons (h : r.member.cell < f.cells.length) (rs : List Request) :
    (∃ s, (f.cell r.member.cell).state.Reached s.tick ∧
      s.sequence = (f.cell r.member.cell).state.due s.tick ∧
      ((f.turn r).fleet.cell r.member.cell).state = some s ∧
      f.stampsAt r.member.cell (r :: rs) = s :: (f.turn r).fleet.stampsAt r.member.cell rs) ∨
    (((f.turn r).fleet.cell r.member.cell).state = (f.cell r.member.cell).state ∧
      f.stampsAt r.member.cell (r :: rs) = (f.turn r).fleet.stampsAt r.member.cell rs) := by
  rw [turn_cell h, stampsAt, issuesAt_cons, if_pos rfl, turn_value?, List.map_append]
  rcases issue_cases r.member.issuer (f.cell r.member.cell) r.reading with
    ⟨ms, s, _, _, ha, hi⟩ | ⟨hv, hs⟩
  · obtain ⟨_, hreached, hdue, ht, hseq⟩ := advance_eq_ok_iff.mp ha
    left
    refine ⟨s, hreached, hdue, by rw [hi], ?_⟩
    rw [hi]
    simp only [Outcome.value?_issued, Option.map_some, Option.toList_some, List.map_cons, List.map_nil,
      stamp_stamped ht hseq]
    rfl
  · right
    rw [hv]
    exact ⟨hs, rfl⟩

theorem stampsAt_cons_of_ne (h : r.member.cell ≠ k) (rs : List Request) :
    f.stampsAt k (r :: rs) = (f.turn r).fleet.stampsAt k rs := by
  rw [stampsAt, issuesAt_cons, if_neg h]
  rfl

/-- Whatever the clocks show and the other cells do, the stamps from a cell skip and repeat
nothing. -/
theorem stampsAt_succession (h : ∀ r ∈ rs, r.member.cell < f.cells.length) (k : Nat) :
    Succession (f.cell k).state (f.stampsAt k rs) := by
  induction rs generalizing f with
  | nil => trivial
  | cons r rs ih =>
    have hr := h r (by simp)
    have ht := ih (cells_turn h)
    by_cases hk : r.member.cell = k
    · subst hk
      rcases stampsAt_cons hr rs with ⟨s, hreached, hdue, hstate, hcons⟩ | ⟨hstate, hcons⟩
      · rw [hcons]
        rw [hstate] at ht
        exact ⟨hreached, hdue, ht⟩
      · rw [hcons]
        rwa [hstate] at ht
    · rw [stampsAt_cons_of_ne hk]
      simpa [hk] using ht

theorem run_state (h : ∀ r ∈ rs, r.member.cell < f.cells.length) (k : Nat) :
    ((f.run rs).2.cell k).state = (f.cell k).state.after (f.stampsAt k rs) := by
  induction rs generalizing f with
  | nil => rfl
  | cons r rs ih =>
    have hr := h r (by simp)
    have ht := ih (cells_turn h)
    rw [run_cons, ht]
    by_cases hk : r.member.cell = k
    · subst hk
      rcases stampsAt_cons hr rs with ⟨s, _, _, hstate, hcons⟩ | ⟨hstate, hcons⟩
      · rw [hcons, hstate, after_cons]
      · rw [hcons, hstate]
    · simp [stampsAt_cons_of_ne hk, hk]

/-- Of two identifiers issued from one cell, the earlier one carries the earlier stamp. -/
theorem issuesAt_pairwise (h : ∀ r ∈ rs, r.member.cell < f.cells.length) (k : Nat) :
    (f.issuesAt k rs).Pairwise fun a b => a.id.stamp.Before b.id.stamp := by
  have hp := succession_pairwise (stampsAt_succession h k)
  rwa [stampsAt, List.pairwise_map] at hp

/-- The state of a cell is the stamp of the last identifier issued from it. -/
theorem state_eq_getLast (h : Assembled f) (hr : ∀ r ∈ rs, r.member ∈ f.members) (k : Nat) :
    ((f.run rs).2.cell k).state = (f.issuesAt k rs).getLast?.map fun e => e.id.stamp := by
  rw [run_state (fun r hmem => assembled_member h _ (hr r hmem)), assembled_cell h]
  simp [State.after, stampsAt]

end Fleet

end IdMint.TimeId
