import IdMint.Proofs.Denied
import Mathlib.Data.List.Induction
import Mathlib.Tactic.ByContra

/-! Poisoned cells. A clock that breaks down inside a call poisons the cell of that call, and
nothing else poisons one. From then on the cell refuses every member, whoever joins meanwhile, and
no clock is looked at. The other cells do not notice. -/
namespace IdMint.TimeId.Fleet

/-- What happens to a fleet: a member is founded, a member joins another, or a member is called. A
copy of a member is one that joins it with the same issuer. -/
inductive Action where
  | found (g : Issuer)
  | join (g : Issuer) (other : Member)
  | call (r : Request)
deriving DecidableEq

def act (f : Fleet) : Action → Fleet
  | .found g => f.found g
  | .join g other => f.join g other
  | .call r => (f.turn r).fleet

def after (f : Fleet) (as : List Action) : Fleet := as.foldl act f

/-- The calls among things that happen, and how each of them ends. -/
def log (f : Fleet) : List Action → List (Request × Outcome TimeId)
  | [] => []
  | .call r :: as => (r, (f.turn r).outcome) :: log (f.turn r).fleet as
  | a :: as => log (f.act a) as

/-- Only a member can be joined or called. -/
def Action.Possible (f : Fleet) : Action → Prop
  | .found _ => True
  | .join _ other => other ∈ f.members
  | .call r => r.member ∈ f.members

instance (f : Fleet) : (a : Action) → Decidable (a.Possible f)
  | .found _ => inferInstanceAs (Decidable True)
  | .join _ other => inferInstanceAs (Decidable (other ∈ f.members))
  | .call r => inferInstanceAs (Decidable (r.member ∈ f.members))

/-- Things that can happen to a fleet one after the other. -/
def Possible (f : Fleet) : List Action → Prop
  | [] => True
  | a :: as => a.Possible f ∧ Possible (f.act a) as

instance decidablePossible (f : Fleet) : (as : List Action) → Decidable (Possible f as)
  | [] => inferInstanceAs (Decidable True)
  | a :: as =>
    have := decidablePossible (f.act a) as
    inferInstanceAs (Decidable (_ ∧ _))

def Action.callsOn (k : Nat) : Action → Bool
  | .call r => r.member.cell = k
  | _ => false

/-- A cell that turns everybody away: no call on it changes anything or looks at a clock. -/
structure Sealed (f : Fleet) (k : Nat) : Prop where
  refused : ∀ m : Member, m.cell = k → ∀ reading, f.turn ⟨m, reading, false⟩ =
    ⟨.refused .poisoned, f, []⟩
  crashed : ∀ m : Member, m.cell = k → ∀ reading, f.turn ⟨m, reading, true⟩ =
    ⟨.crashed "failed to generate id: generator lock poisoned", f, []⟩
  unread : ∀ m : Member, m.cell = k → ∀ {κ : Type} (look : κ → Clock.Reading × κ) (clock : κ),
    (f.cell k).callOn look clock m.issuer.update = (⟨.refused .poisoned, f.cell k, []⟩, clock)

variable {f g : Fleet} {r : Request} {a : Action} {as more : List Action} {k : Nat}
  {words : String}

theorem after_cons (f : Fleet) (a : Action) (as : List Action) :
    f.after (a :: as) = (f.act a).after as := rfl

theorem after_append (f : Fleet) (as more : List Action) :
    f.after (as ++ more) = (f.after as).after more := List.foldl_append ..

theorem sealed_of_poisoned (h : (f.cell k).poisoned = true) : Sealed f k := by
  refine ⟨?_, ?_, fun m _ κ look clock => Cell.callOn_of_poisoned h look clock _⟩
  all_goals
    rintro m rfl reading
    simp only [turn, Issuer.issue, Cell.call, Cell.callOn_of_poisoned h, set_cell]
    rfl

theorem turn_of_poisoned (h : (f.cell r.member.cell).poisoned = true) : (f.turn r).fleet = f := by
  obtain ⟨m, reading, demanded⟩ := r
  have hsealed := sealed_of_poisoned h
  cases demanded with
  | false => rw [hsealed.refused m rfl]
  | true => rw [hsealed.crashed m rfl]

/-- Nothing that happens changes a poisoned cell. -/
theorem act_of_poisoned (h : (f.cell k).poisoned = true) (a : Action) :
    (f.act a).cell k = f.cell k := by
  cases a with
  | found g => simp [act]
  | join g other => simp [act]
  | call r =>
    by_cases hk : r.member.cell = k
    · subst hk
      rw [act, turn_of_poisoned h]
    · simp [act, hk]

theorem after_of_poisoned (h : (f.cell k).poisoned = true) (as : List Action) :
    (f.after as).cell k = f.cell k := by
  induction as generalizing f with
  | nil => rfl
  | cons a as ih =>
    have hstep := act_of_poisoned h a
    rw [after_cons, ih (by rwa [hstep]), hstep]

theorem housed_act (h : Housed f) (ha : a.Possible f) : Housed (f.act a) := by
  cases a with
  | found g => exact housed_found h g
  | join g other => exact housed_join h g ha
  | call r =>
    intro m hm
    simpa [act] using h m hm

theorem housed_after (h : Housed f) (ha : Possible f as) : Housed (f.after as) := by
  induction as generalizing f with
  | nil => exact h
  | cons a as ih => exact ih (housed_act h ha.1) ha.2

/-- A clock that breaks down poisons the cell and leaves its state as it was. -/
theorem turn_of_failed (hr : r.member.cell < f.cells.length)
    (hp : (f.cell r.member.cell).poisoned = false) (hf : r.reading = .failed words) :
    (f.turn r).outcome = .crashed words ∧
      ∀ k, (f.turn r).fleet.cell k =
        if r.member.cell = k then ⟨(f.cell k).state, true⟩ else f.cell k := by
  have hissue : r.member.issuer.issue (f.cell r.member.cell) r.reading =
      ⟨.crashed words, ⟨(f.cell r.member.cell).state, true⟩, []⟩ := by
    rw [hf, Issuer.issue, Cell.call_of_failed hp]
  constructor
  · simp only [turn, hissue]
    cases r.demanded <;> rfl
  · intro k
    by_cases hk : r.member.cell = k
    · subst hk
      simp [hr, hissue]
    · simp [hk]

/-- One thing that happens poisons a cell only if it is a call whose clock breaks down. -/
theorem act_poisons_iff (h : Housed f) (ha : a.Possible f) (hp : (f.cell k).poisoned = false) :
    ((f.act a).cell k).poisoned = true ↔
      ∃ r words, a = .call r ∧ r.member.cell = k ∧ r.reading = .failed words := by
  constructor
  · intro hpoisoned
    cases a with
    | found g => simp [act, hp] at hpoisoned
    | join g other => simp [act, hp] at hpoisoned
    | call r =>
      by_contra hno
      have hworks : r.member.cell = k → ∃ ms, r.reading = .millis ms := by
        intro hk
        cases hr : r.reading with
        | millis ms => exact ⟨ms, rfl⟩
        | failed words => exact absurd ⟨r, words, rfl, hk, hr⟩ hno
      have hclean := turn_unpoisoned (h _ ha) hworks hp
      simp [act, hclean] at hpoisoned
  · rintro ⟨r, words, rfl, rfl, hr⟩
    rw [act, (turn_of_failed (h _ ha) hp hr).2, if_pos rfl]

theorem possible_append : Possible f (as ++ more) ↔ Possible f as ∧ Possible (f.after as) more := by
  induction as generalizing f with
  | nil => exact (and_iff_right trivial).symm
  | cons a as ih =>
    rw [List.cons_append, Possible, Possible, ih, and_assoc]
    rfl

/-- A cell is poisoned exactly when a clock has broken down in a call on it. -/
theorem after_poisoned_iff (h : Housed f) (hp : (f.cell k).poisoned = false)
    (ha : Possible f as) : ((f.after as).cell k).poisoned = true ↔
      ∃ past r rest words, as = past ++ .call r :: rest ∧ r.member.cell = k ∧
        r.reading = .failed words ∧ ((f.after past).cell k).poisoned = false := by
  constructor
  · intro hpoisoned
    induction as using List.reverseRecOn with
    | nil =>
      rw [after, List.foldl_nil, hp] at hpoisoned
      cases hpoisoned
    | append_singleton as a ih =>
      obtain ⟨hfirst, hlast, _⟩ := possible_append.mp ha
      cases hbefore : ((f.after as).cell k).poisoned with
      | true =>
        obtain ⟨past, r, rest, words, rfl, hr⟩ := ih hfirst hbefore
        exact ⟨past, r, rest ++ [a], words, by simp, hr⟩
      | false =>
        rw [after_append] at hpoisoned
        obtain ⟨r, words, rfl, hr⟩ :=
          (act_poisons_iff (housed_after h hfirst) hlast hbefore).mp hpoisoned
        exact ⟨as, r, [], words, rfl, hr.1, hr.2, hbefore⟩
  · rintro ⟨past, r, rest, words, rfl, hk, hr, hclean⟩
    obtain ⟨hfirst, hcall, _⟩ := possible_append.mp ha
    have hstep := (act_poisons_iff (housed_after h hfirst) hcall hclean).mpr
      ⟨r, words, rfl, hk, hr⟩
    rw [after_append, after_cons, after_of_poisoned hstep]
    exact hstep

/-- Two fleets with as many cells, which agree in all of them but one. -/
structure AgreeBut (k : Nat) (f g : Fleet) : Prop where
  length_eq : f.cells.length = g.cells.length
  cell_eq : ∀ j, j ≠ k → f.cell j = g.cell j

theorem agreeBut_found (h : AgreeBut k f g) (i : Issuer) :
    AgreeBut k (f.found i) (g.found i) := by
  refine ⟨by simp [found, h.length_eq], ?_⟩
  intro j hj
  simpa using h.cell_eq j hj

theorem agreeBut_join (h : AgreeBut k f g) (i : Issuer) (other : Member) :
    AgreeBut k (f.join i other) (g.join i other) := ⟨h.length_eq, h.cell_eq⟩

theorem agreeBut_turn (h : AgreeBut k f g) (hr : r.member.cell < f.cells.length) :
    AgreeBut k (f.turn r).fleet (g.turn r).fleet := by
  refine ⟨by simpa using h.length_eq, ?_⟩
  intro j hj
  by_cases hcell : r.member.cell = j
  · subst hcell
    have hg : r.member.cell < g.cells.length := h.length_eq ▸ hr
    simp [hr, hg, h.cell_eq _ hj]
  · simpa [hcell] using h.cell_eq j hj

theorem agreeBut_turn_left (h : AgreeBut k f g) (hr : r.member.cell = k) :
    AgreeBut k (f.turn r).fleet g := by
  refine ⟨by simpa using h.length_eq, ?_⟩
  intro j hj
  have hcell : r.member.cell ≠ j := fun he => hj (he.symm.trans hr)
  simpa [hcell] using h.cell_eq j hj

/-- Calls on one cell can be left out: the other calls end as before, and so do the other cells. -/
theorem log_filter (h : AgreeBut k f g) (hf : Housed f) (ha : Possible f as) :
    g.log (as.filter fun a => !a.callsOn k) =
      (f.log as).filter (fun e => e.1.member.cell ≠ k) ∧
    AgreeBut k (f.after as) (g.after (as.filter fun a => !a.callsOn k)) := by
  induction as generalizing f g with
  | nil => exact ⟨rfl, h⟩
  | cons a as ih =>
    have hrest := housed_act hf ha.1
    cases a with
    | found i => exact ih (agreeBut_found h i) hrest ha.2
    | join i other => exact ih (agreeBut_join h i other) hrest ha.2
    | call r =>
      by_cases hk : r.member.cell = k
      · have hnext := ih (agreeBut_turn_left h hk) hrest ha.2
        simpa [Action.callsOn, hk, log, after_cons, act] using hnext
      · have hnext := ih (agreeBut_turn h (hf _ ha.1)) hrest ha.2
        have hout : (g.turn r).outcome = (f.turn r).outcome := by
          simp only [turn, h.cell_eq _ hk]
        simpa [Action.callsOn, hk, log, after_cons, act, hout] using hnext

@[simp] theorem cell_empty (k : Nat) : empty.cell k = .fresh none := assembled_cell .empty k

/-- Whatever happens to a fleet, a clock that breaks down in a call poisons the cell of the call and
leaves its state, and a poisoned cell stays as it is and turns everybody away. Without the calls on
a cell the others are answered as before. Nothing but such a clock poisons a cell. -/
theorem poisoning_exact (h : Possible empty as) :
    (∀ m ∈ (empty.after as).members, ((empty.after as).cell m.cell).poisoned = false →
      ∀ words demanded,
        ((empty.after as).turn ⟨m, .failed words, demanded⟩).outcome = .crashed words ∧
        ∀ k, ((empty.after as).turn ⟨m, .failed words, demanded⟩).fleet.cell k =
          if m.cell = k then ⟨((empty.after as).cell k).state, true⟩
          else (empty.after as).cell k) ∧
    (∀ k, ((empty.after as).cell k).poisoned = true → ∀ more,
      (empty.after (as ++ more)).cell k = (empty.after as).cell k ∧
      Sealed (empty.after (as ++ more)) k) ∧
    (∀ k, empty.log (as.filter fun a => !a.callsOn k) =
        (empty.log as).filter (fun e => e.1.member.cell ≠ k) ∧
      ∀ j, j ≠ k →
        (empty.after as).cell j = (empty.after (as.filter fun a => !a.callsOn k)).cell j) ∧
    (∀ k, ((empty.after as).cell k).poisoned = true ↔
      ∃ past r rest words, as = past ++ .call r :: rest ∧ r.member.cell = k ∧
        r.reading = .failed words ∧ ((empty.after past).cell k).poisoned = false) := by
  have hempty := assembled_member .empty
  have hhoused := housed_after hempty h
  refine ⟨?_, ?_, ?_, ?_⟩
  · intro m hm hp words demanded
    exact turn_of_failed (hhoused m hm) hp rfl
  · intro k hp more
    have hsame : (empty.after (as ++ more)).cell k = (empty.after as).cell k := by
      rw [after_append, after_of_poisoned hp]
    exact ⟨hsame, sealed_of_poisoned (by rw [hsame, hp])⟩
  · intro k
    obtain ⟨hlog, hagree⟩ := log_filter ⟨rfl, fun _ _ => rfl⟩ hempty h
    exact ⟨hlog, hagree.cell_eq⟩
  · intro k
    exact after_poisoned_iff hempty (by simp) h

/-- Two cells with a member each. The clock of the first breaks down, which a member who joins it
later is told, and the second goes on. -/
def breakdown : List Action :=
  [.found .standard, .found ⟨0, .millisecond, Nat.zero_le _⟩,
    .call ⟨⟨.standard, 0⟩, .millis 5000, false⟩,
    .call ⟨⟨.standard, 0⟩, .failed "clock failure", true⟩, .join .standard ⟨.standard, 0⟩,
    .call ⟨⟨.standard, 0⟩, .millis 6000, false⟩,
    .call ⟨⟨⟨0, .millisecond, Nat.zero_le _⟩, 1⟩, .millis 5, false⟩]

theorem breakdown_exact :
    Possible empty breakdown ∧
    (empty.after breakdown).cell 0 = ⟨some ⟨5, 0⟩, true⟩ ∧
    Sealed (empty.after (breakdown ++ [.join .standard ⟨.standard, 0⟩])) 0 ∧
    ((empty.after breakdown).turn
      ⟨⟨⟨0, .millisecond, Nat.zero_le _⟩, 1⟩, .failed "stopped", false⟩).outcome =
        .crashed "stopped" ∧
    empty.log (breakdown.filter fun a => !a.callsOn 0) =
      (empty.log breakdown).filter (fun e => e.1.member.cell ≠ 0) ∧
    ∃ past r rest words, breakdown = past ++ .call r :: rest ∧ r.member.cell = 0 ∧
      r.reading = .failed words ∧ ((empty.after past).cell 0).poisoned = false := by
  have hpossible : Possible empty breakdown := by decide
  obtain ⟨hfails, hpoisoned, hothers, hcause⟩ := poisoning_exact hpossible
  refine ⟨hpossible, rfl, (hpoisoned 0 rfl _).2, ?_, (hothers 0).1, (hcause 0).mp rfl⟩
  exact (hfails ⟨⟨0, .millisecond, Nat.zero_le _⟩, 1⟩ (by decide) rfl "stopped" false).1

end IdMint.TimeId.Fleet
