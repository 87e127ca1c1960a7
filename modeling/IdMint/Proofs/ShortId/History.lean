import IdMint.Proofs.Cell
import IdMint.Proofs.ShortId.Packing
import IdMint.ShortId.Station

/-! The beats that a station issues, read off its turns: random words have no say in them, and the
texts carry their digits. -/
namespace IdMint.ShortId

variable {s t : Station} {source other : Nat → UInt64} {r : Request} {rs : List Request}
  {now : Nat} {last : State} {b c : Beat}

/-- The beat that a clock reading makes due. -/
def State.due (now : Nat) : State → Beat
  | none => ⟨now, 0⟩
  | some b => ⟨now, if b.millis = now then b.counter + 1 else 0⟩

@[simp] theorem State.due_millis : (State.due now last).millis = now := by
  cases last <;> rfl

theorem advance_of_late (h : maxMillis < now) (last : State) : advance now last =
    ⟨.error (.timeExhausted now maxMillis), last, [.shortTimesExhausted now]⟩ := by
  unfold advance
  rw [if_pos h]

/-- The beat due is issued unless the clock shows too many milliseconds. -/
theorem advance_of_le (h : now ≤ maxMillis) (last : State) :
    (advance now last).result = .ok (State.due now last) ∧
      (advance now last).state = some (State.due now last) := by
  have hnot : ¬ maxMillis < now := Nat.not_lt.mpr h
  cases last with
  | none => simp [advance, hnot, State.due]
  | some b =>
    by_cases he : b.millis = now
    · simp [advance, hnot, he, State.due]
    · by_cases hlt : now < b.millis <;> simp [advance, hnot, he, hlt, State.due]

/-- A refusal leaves the state as it was. -/
theorem advance_restrained : Restrained advance := by
  intro now last cause h
  rcases Nat.lt_or_ge maxMillis now with hlate | hle
  · rw [advance_of_late hlate]
  · rw [(advance_of_le hle last).1] at h
    cases h

theorem update_restrained (g : Issuer) (source : Nat → UInt64) : Restrained (g.update source) :=
  restrained_map advance_restrained (g.minted source)

/-- The clock has moved on, or the counter has. -/
def Beat.Before (b c : Beat) : Prop :=
  b.millis < c.millis ∨ b.millis = c.millis ∧ b.counter < c.counter

/-- Clock readings that never decrease. -/
def Steady (rs : List Request) : Prop :=
  rs.Pairwise fun q r => ∀ m n, q.reading = .millis m → r.reading = .millis n → m ≤ n

/-- A call for an identifier is a call for a beat, minted afterwards. -/
theorem issue_eq (g : Issuer) (source : Nat → UInt64) (c : Cell State) (reading : Clock.Reading) :
    g.issue source c reading = (c.call reading advance).map (g.minted source) :=
  c.call_map reading advance (g.minted source)

/-- A call issues the beat due, or it leaves the state as it was. -/
theorem call_advance_cases (c : Cell State) (reading : Clock.Reading) :
    (∃ now, c.poisoned = false ∧ reading = .millis now ∧ now ≤ maxMillis ∧
      (c.call reading advance).outcome = .issued (State.due now c.state) ∧
      (c.call reading advance).cell = ⟨some (State.due now c.state), false⟩) ∨
    ((c.call reading advance).outcome.value? = none ∧
      (c.call reading advance).cell.state = c.state) := by
  rcases Cell.issued_cases advance_restrained c reading with ⟨now, b, hp, hr, hu, h⟩ | hleft
  · left
    rcases Nat.lt_or_ge maxMillis now with hlate | hle
    · rw [advance_of_late hlate] at hu
      cases hu
    · obtain ⟨hresult, hstate⟩ := advance_of_le hle c.state
      rw [hresult] at hu
      cases hu
      rw [hstate] at h
      exact ⟨now, hp, hr, hle, by rw [h], by rw [h]⟩
  · exact Or.inr hleft

def Turn.beat? (t : Turn) : Option Beat := t.outcome.value?.bind fun _ => t.station.cell.state

def beats (turns : List Turn) : List Beat := turns.filterMap Turn.beat?

def texts (turns : List Turn) : List String := turns.filterMap (·.outcome.value?)

theorem beats_cons (t : Turn) (turns : List Turn) :
    beats (t :: turns) = t.beat?.toList ++ beats turns := by
  rw [beats, List.filterMap_cons]
  cases t.beat? <;> rfl

theorem length_beats_le (turns : List Turn) : (beats turns).length ≤ turns.length :=
  List.length_filterMap_le ..

namespace Station

@[simp] theorem turn_cell :
    (s.turn source r).station.cell = (s.cell.call r.reading advance).cell := by
  simp only [turn, issue_eq, Call.cell_map]

@[simp] theorem turn_events :
    (s.turn source r).events = (s.cell.call r.reading advance).events := by
  simp only [turn, issue_eq, Call.events_map]

theorem turn_outcome : (s.turn source r).outcome =
    if r.demanded then ((s.cell.call r.reading advance).outcome.map fun b =>
      (s.issuer.minted (fun k => source (s.drawn + k)) b).text).demand
    else (s.cell.call r.reading advance).outcome.map fun b =>
      (s.issuer.minted (fun k => source (s.drawn + k)) b).text := by
  simp only [turn, issue_eq, Call.outcome_map, Outcome.map_map]

@[simp] theorem turn_value? : (s.turn source r).outcome.value? =
    (s.cell.call r.reading advance).outcome.value?.map fun b =>
      (s.issuer.minted (fun k => source (s.drawn + k)) b).text := by
  rw [turn_outcome]
  split <;> simp

@[simp] theorem turn_beat? :
    (s.turn source r).beat? = (s.cell.call r.reading advance).outcome.value? := by
  rw [Turn.beat?, turn_value?, turn_cell]
  rcases call_advance_cases s.cell r.reading with ⟨now, _, _, _, hout, hcell⟩ | ⟨hout, _⟩
  · rw [hout, hcell]
    rfl
  · rw [hout]
    rfl

/-- Where the clock works, who takes a refusal gets a text or a refusal. -/
theorem turn_millis (s : Station) (source : Nat → UInt64) (ms : Nat) :
    s.turn source ⟨.millis ms, false⟩ = ⟨.ofResult (s.turnAt source ms).result,
      (s.turnAt source ms).state, (s.turnAt source ms).events⟩ := by
  simp [turn, turnAt, Issuer.issue, Cell.call_millis]

/-- A turn issues the beat due at the reading of its clock, if it issues. -/
theorem due_of_beat? (h : (s.turn source r).beat? = some c) :
    r.reading = .millis c.millis ∧ c.millis ≤ maxMillis ∧ c = State.due c.millis s.cell.state := by
  rw [turn_beat?] at h
  rcases call_advance_cases s.cell r.reading with ⟨now, _, hr, hle, hout, _⟩ | ⟨hout, _⟩
  · obtain rfl : State.due now s.cell.state = c := by simpa [hout] using h
    simpa using ⟨hr, hle⟩
  · simp [hout] at h

theorem beats_run_cons : beats (s.run source (r :: rs)) =
    (s.cell.call r.reading advance).outcome.value?.toList ++
      beats ((s.turn source r).station.run source rs) := by
  rw [run, beats_cons, turn_beat?]

theorem texts_run_cons : texts (s.run source (r :: rs)) =
    ((s.cell.call r.reading advance).outcome.value?.toList.map fun b =>
      (s.issuer.minted (fun k => source (s.drawn + k)) b).text) ++
      texts ((s.turn source r).station.run source rs) := by
  rw [run, texts, List.filterMap_cons, turn_value?]
  cases (s.cell.call r.reading advance).outcome.value? <;> rfl

/-- The beats of a run are up to the cell and the requests. -/
theorem beats_run_eq (h : s.cell = t.cell) :
    beats (s.run source rs) = beats (t.run other rs) := by
  induction rs generalizing s t with
  | nil => rfl
  | cons r rs ih =>
    have hnext : (s.turn source r).station.cell = (t.turn other r).station.cell := by
      simp [h]
    rw [beats_run_cons, beats_run_cons, h, ih hnext]

/-- The texts of a run carry the digits of its beats. -/
theorem map_digitsOf_texts (s : Station) (source : Nat → UInt64) (rs : List Request) :
    (texts (s.run source rs)).map (digitsOf s.issuer.alphabet) =
      (beats (s.run source rs)).map fun b =>
        (s.issuer.mark b).digits (1 <<< s.issuer.alphabet.dataBits) := by
  induction rs generalizing s with
  | nil => rfl
  | cons r rs ih =>
    have hrest := ih (s.turn source r).station
    rw [texts_run_cons, beats_run_cons, List.map_append, List.map_append, List.map_map]
    refine congr (congrArg _ (List.map_congr_left fun b _ => ?_)) hrest
    exact Issuer.digitsOf_minted

/-- With one word drawn over and over, a text is up to its beat. -/
theorem texts_run_const (s : Station) (word : UInt64) (rs : List Request) :
    texts (s.run (fun _ => word) rs) =
      (beats (s.run (fun _ => word) rs)).map fun b => (s.issuer.minted (fun _ => word) b).text := by
  induction rs generalizing s with
  | nil => rfl
  | cons r rs ih =>
    have hrest := ih (s.turn (fun _ => word) r).station
    rw [texts_run_cons, beats_run_cons, List.map_append]
    exact congrArg _ hrest

theorem mem_beats_run (hc : c ∈ beats (s.run source rs)) :
    c.millis ≤ maxMillis ∧ ∃ r ∈ rs, r.reading = .millis c.millis := by
  induction rs generalizing s with
  | nil => cases hc
  | cons r rs ih =>
    rw [run, beats_cons, List.mem_append, Option.mem_toList] at hc
    rcases hc with hc | hc
    · obtain ⟨hr, hle, _⟩ := due_of_beat? hc
      exact ⟨hle, r, List.mem_cons_self .., hr⟩
    · obtain ⟨hle, q, hq, hreading⟩ := ih hc
      exact ⟨hle, q, List.mem_cons_of_mem r hq, hreading⟩

@[simp] theorem length_run (s : Station) (source : Nat → UInt64) (rs : List Request) :
    (s.run source rs).length = rs.length := by
  induction rs generalizing s with
  | nil => rfl
  | cons r rs ih => simp [run, ih]

end Station

end IdMint.ShortId
