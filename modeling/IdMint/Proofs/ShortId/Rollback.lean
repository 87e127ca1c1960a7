import IdMint.Proofs.ShortId.Succession

/-! A clock that moves back is noted. A turn notes it just when it issues a beat behind the one that
was issued before. Between two such turns beats form a succession from the start, so that none comes
twice. -/
namespace IdMint.ShortId

variable {s : Station} {source : Nat → UInt64} {r : Request} {rs : List Request} {now : Nat}
  {last : State} {b c : Beat} {t u : Turn} {ts us : List Turn}

/-- It was noted that the clock had moved back. -/
def Turn.MovedBack (t : Turn) : Prop := ∃ last now, Event.rollbackAccepted last now ∈ t.events

theorem advance_notes : (∃ m n, Event.rollbackAccepted m n ∈ (advance now last).events) ↔
    now ≤ maxMillis ∧ ∃ b ∈ last, now < b.millis := by
  by_cases h : maxMillis < now
  · simp [advance, h]
  · have hle : now ≤ maxMillis := Nat.not_lt.mp h
    cases last with
    | none => simp [advance, h]
    | some b =>
      by_cases he : b.millis = now
      · simp [advance, h, he]
      · by_cases hlt : now < b.millis <;> simp [advance, h, hle, he, hlt]

/-- A call notes that the clock has moved back just when it issues a beat behind the last one. -/
theorem call_advance_notes (c : Cell State) (reading : Clock.Reading) :
    (∃ m n, Event.rollbackAccepted m n ∈ (c.call reading advance).events) ↔
      ∃ b ∈ c.state, ∃ d ∈ (c.call reading advance).outcome.value?, d.millis < b.millis := by
  rcases c.call_cases reading advance with
    ⟨_, h⟩ | ⟨words, _, _, h⟩ | ⟨now, b, _, _, hu, h⟩ | ⟨now, cause, _, _, hu, h⟩
  · simp [h]
  · simp [h]
  · rcases Nat.lt_or_ge maxMillis now with hlate | hle
    · rw [advance_of_late hlate] at hu
      cases hu
    · rw [(advance_of_le hle c.state).1] at hu
      cases hu
      rw [h]
      exact advance_notes.trans (by simp [hle])
  · rcases Nat.lt_or_ge maxMillis now with hlate | hle
    · rw [h, advance_of_late hlate]
      simp
    · rw [(advance_of_le hle c.state).1] at hu
      cases hu

/-- The state that a turn leaves behind is the beat that it issued, or else the one before. -/
theorem Station.turn_state :
    (s.turn source r).station.cell.state = (s.turn source r).beat?.or s.cell.state := by
  rw [turn_cell, turn_beat?]
  rcases call_advance_cases s.cell r.reading with ⟨now, _, _, _, hout, hcell⟩ | ⟨hout, hstate⟩
  · rw [hout, hcell]
    rfl
  · rw [hout, hstate]
    rfl

theorem Station.turn_movedBack_iff : (s.turn source r).MovedBack ↔
    ∃ b ∈ s.cell.state, ∃ c ∈ (s.turn source r).beat?, c.millis < b.millis := by
  rw [turn_beat?, ← call_advance_notes, Turn.MovedBack, turn_events]

/-- Turns that issue the beats due after `last` and note each time that the clock has moved back. -/
def Noted : State → List Turn → Prop
  | _, [] => True
  | last, t :: ts =>
    (t.MovedBack ↔ ∃ b ∈ last, ∃ c ∈ t.beat?, c.millis < b.millis) ∧
    (∀ c ∈ t.beat?, c = State.due c.millis last) ∧ Noted (t.beat?.or last) ts

theorem noted_run (s : Station) (source : Nat → UInt64) (rs : List Request) :
    Noted s.cell.state (s.run source rs) := by
  induction rs generalizing s with
  | nil => trivial
  | cons r rs ih =>
    have ht := ih (s.turn source r).station
    rw [Station.turn_state] at ht
    exact ⟨Station.turn_movedBack_iff, fun c hc => (Station.due_of_beat? hc).2.2, ht⟩

theorem noted_append (h : Noted last (ts ++ us)) :
    Noted last ts ∧ Noted ((beats ts).getLast?.or last) us := by
  induction ts generalizing last with
  | nil => exact ⟨trivial, h⟩
  | cons t ts ih =>
    obtain ⟨hback, hdue, ht⟩ := h
    obtain ⟨hts, hus⟩ := ih ht
    refine ⟨⟨hback, hdue, hts⟩, ?_⟩
    have hlast : t.beat?.toList.getLast? = t.beat? := by cases t.beat? <;> rfl
    rwa [beats_cons, List.getLast?_append, Option.or_assoc, hlast]

/-- While the clock does not move back, beats form a succession. -/
theorem noted_succession (h : Noted last ts) (hts : ∀ t ∈ ts, ¬ t.MovedBack) :
    Succession last (beats ts) := by
  induction ts generalizing last with
  | nil => trivial
  | cons t ts ih =>
    obtain ⟨hback, hdue, ht⟩ := h
    have hrest := ih ht fun u hu => hts u (List.mem_cons_of_mem t hu)
    have hnot := hts t (List.mem_cons_self ..)
    rw [hback] at hnot
    rw [beats_cons]
    cases hc : t.beat? with
    | none => rwa [hc] at hrest
    | some c =>
      rw [hc] at hrest hnot hdue
      refine ⟨fun b hb => ?_, hdue c rfl, hrest⟩
      exact Nat.not_lt.mp fun hlt => hnot ⟨b, hb, c, rfl, hlt⟩

/-- Where the clock has moved back, a succession starts anew. -/
theorem noted_restart (h : Noted last (t :: ts)) (ht : t.MovedBack)
    (hts : ∀ u ∈ ts, ¬ u.MovedBack) : Succession none (beats (t :: ts)) := by
  obtain ⟨hback, hdue, hrest⟩ := h
  obtain ⟨b, hb, c, hc, hlt⟩ := hback.mp ht
  rw [Option.mem_def] at hb hc
  rw [hc] at hrest hdue
  have hnew : c = State.due c.millis none := by
    have hdue := hdue c rfl
    rwa [hb, State.due, if_neg (by omega)] at hdue
  rw [beats_cons, hc]
  exact ⟨fun d hd => absurd hd (Option.not_mem_none d), hnew, noted_succession hrest hts⟩

/-- Turns of which none but the first moves the clock back issue a succession. -/
theorem succession_of_noted (h : Noted last (t :: ts)) (hts : ∀ u ∈ ts, ¬ u.MovedBack) :
    ∃ before, Succession before (beats (t :: ts)) := by
  by_cases ht : t.MovedBack
  · exact ⟨none, noted_restart h ht hts⟩
  · refine ⟨last, noted_succession h ?_⟩
    intro u hu
    rcases List.mem_cons.mp hu with rfl | hu
    · exact ht
    · exact hts u hu

/-- A stretch of turns from the start, or from where the clock has moved back, to where it moves
back again. -/
def Stretch (past stretch : List Turn) : Prop :=
  (past = [] ∨ ∃ t ∈ stretch.head?, t.MovedBack) ∧ ∀ t ∈ stretch.tail, ¬ t.MovedBack

theorem succession_of_stretch (h : Noted none (ts ++ us)) (hs : Stretch ts us) :
    Succession none (beats us) := by
  obtain ⟨hstart, hrest⟩ := hs
  cases us with
  | nil => trivial
  | cons u us =>
    obtain ⟨_, hus⟩ := noted_append h
    by_cases hu : u.MovedBack
    · exact noted_restart hus hu hrest
    · have hnil : ts = [] := by simpa [hu] using hstart
      subst hnil
      refine noted_succession hus fun v hv => ?_
      rcases List.mem_cons.mp hv with rfl | hv
      · exact hu
      · exact hrest v hv

theorem countP_beats_le (turns : List Turn) (p : Beat → Bool) :
    (beats turns).countP p ≤ turns.length :=
  List.countP_le_length.trans (length_beats_le turns)

/-- An identifier that was issued packs the reading of the clock. -/
theorem Station.mem_zip_run {e : Request × Turn} (he : e ∈ rs.zip (s.run source rs)) {text : String}
    (htext : e.2.outcome.value? = some text) : ∃ c words, e.2.beat? = some c ∧
      e.1.reading = .millis c.millis ∧ text = (s.issuer.minted words c).text := by
  induction rs generalizing s with
  | nil => cases he
  | cons r rs ih =>
    rcases List.mem_cons.mp he with rfl | he
    · rw [turn_value?, ← turn_beat?] at htext
      obtain ⟨c, hc, rfl⟩ := Option.map_eq_some_iff.mp htext
      exact ⟨c, _, hc, (due_of_beat? hc).1, rfl⟩
    · exact ih (s := (s.turn source r).station) he

/-- Equal beats have the clock move back between them, unless a counter comes round. -/
theorem movedBack_between {between : List Turn} (h : Noted last (t :: (between ++ [u])))
    (hlen : between.length + 2 ≤ UInt64.size) (ht : t.beat? = some b) (hu : u.beat? = some b) :
    ∃ v ∈ between ++ [u], v.MovedBack := by
  by_contra hno
  obtain ⟨before, hsucc⟩ := succession_of_noted h fun v hv hback => hno ⟨v, hv, hback⟩
  have hnodup := (succession_nodup_iff hsucc).mpr fun m => by
    have hle := countP_beats_le (t :: (between ++ [u])) (·.millis = m)
    simp only [List.length_cons, List.length_append, List.length_nil] at hle
    omega
  rw [beats_cons, ht] at hnodup
  have hmem : b ∈ beats (between ++ [u]) :=
    List.mem_filterMap.mpr ⟨u, List.mem_append_right _ (List.mem_singleton_self u), hu⟩
  exact (List.nodup_cons.mp hnodup).1 hmem

/-- As long as there are fewer requests than counters, a repetition is never silent. Identifiers
pack the readings of the clock. That it has moved back is noted by just those turns that issue at a
smaller reading than the turn that issued before. Until then millisecond and counter grow, and the
counters of a millisecond run from zero without a gap. So the same two are not issued again before
it has been noted that the clock moved back. -/
theorem Station.repeats_are_noted (g : Issuer) (source : Nat → UInt64)
    (hlen : rs.length < UInt64.size) :
    (∀ e ∈ rs.zip ((ofIssuer g).run source rs), ∀ text, e.2.outcome.value? = some text →
      ∃ c words, e.2.beat? = some c ∧ e.1.reading = .millis c.millis ∧
        text = (g.minted words c).text) ∧
    (∀ past t rest, (ofIssuer g).run source rs = past ++ t :: rest →
      (t.MovedBack ↔ ∃ b c, (beats past).getLast? = some b ∧ t.beat? = some c ∧
        c.millis < b.millis)) ∧
    (∀ past stretch rest, (ofIssuer g).run source rs = past ++ stretch ++ rest →
      Stretch past stretch → (beats stretch).Pairwise Beat.Before ∧
      ∀ m, ((beats stretch).filter (·.millis = m)).map (fun b => b.counter.toNat) =
        List.range ((beats stretch).countP (·.millis = m))) ∧
    (∀ past t between u rest b,
      (ofIssuer g).run source rs = past ++ t :: (between ++ u :: rest) →
      t.beat? = some b → u.beat? = some b → ∃ v ∈ between ++ [u], v.MovedBack) := by
  have hnoted : Noted none ((ofIssuer g).run source rs) := noted_run (ofIssuer g) source rs
  have hrun := length_run (ofIssuer g) source rs
  refine ⟨fun e he text => mem_zip_run he, ?_, ?_, ?_⟩
  · intro past t rest h
    rw [h] at hnoted
    obtain ⟨_, hback, _⟩ := noted_append hnoted
    rw [hback]
    simp only [Option.or_none, Option.mem_def]
    exact ⟨fun ⟨b, hb, c, hc, hlt⟩ => ⟨b, c, hb, hc, hlt⟩,
      fun ⟨b, c, hb, hc, hlt⟩ => ⟨b, hb, c, hc, hlt⟩⟩
  · intro past stretch rest h hs
    rw [h] at hnoted hrun
    have hsucc := succession_of_stretch (noted_append hnoted).1 hs
    have hcount (m : Nat) : (beats stretch).countP (·.millis = m) ≤ UInt64.size := by
      have hle := countP_beats_le stretch (·.millis = m)
      simp only [List.length_append] at hrun
      omega
    exact ⟨succession_pairwise hsucc hcount, fun m => succession_numbers hsucc (hcount m)⟩
  · intro past t between u rest b h ht hu
    rw [h] at hnoted hrun
    have hsplit : t :: (between ++ u :: rest) = (t :: (between ++ [u])) ++ rest := by simp
    have hlater := (noted_append hnoted).2
    rw [hsplit] at hlater
    refine movedBack_between (noted_append hlater).1 ?_ ht hu
    simp only [List.length_append, List.length_cons] at hrun
    omega

/-- Requests of which the fourth moves the clock back, after one that is too late. -/
def backAndForth : List Request :=
  [⟨.millis 50, false⟩, ⟨.millis 50, true⟩, ⟨.millis 1099511627776, false⟩, ⟨.millis 40, false⟩,
    ⟨.millis 50, false⟩]

/-- What the requests are served with. -/
def backAndForthTurns : List Turn :=
  (Station.ofIssuer ⟨1, .standard, by decide⟩).run (fun _ => 0) backAndForth

theorem backAndForth_noted :
    backAndForth.length < UInt64.size ∧
    beats backAndForthTurns = [⟨50, 0⟩, ⟨50, 1⟩, ⟨40, 0⟩, ⟨50, 0⟩] ∧
    ∃ v ∈ backAndForthTurns.tail, v.MovedBack := by
  have hlen : backAndForth.length < UInt64.size := by decide
  obtain ⟨_, _, _, hbetween⟩ :=
    Station.repeats_are_noted ⟨1, .standard, by decide⟩ (fun _ => 0) hlen
  refine ⟨hlen, by rfl, ?_⟩
  exact hbetween [] backAndForthTurns[0] [backAndForthTurns[1], backAndForthTurns[2],
    backAndForthTurns[3]] backAndForthTurns[4] [] ⟨50, 0⟩ rfl rfl rfl

end IdMint.ShortId
