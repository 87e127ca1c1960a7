import IdMint.CommandLine.Program
import IdMint.Proofs.Luhn
import IdMint.Proofs.TimeId.History
import IdMint.Proofs.TimeId.Parsing

/-! What the command that issues time-ordered identifiers writes. Whatever the clock shows, its
lines give back identifiers of one issuer in ascending order, and it stops early only where the
clock has moved back or too far ahead, or where there is no room for a check digit. -/
namespace IdMint.CommandLine

open TimeId

/-- A line gives an identifier back. With a check digit the line is valid, and the number without
its last digit is the identifier, also as text unless nothing is left of the text. -/
def LineForm.Tells (line : String) (id : TimeId) : LineForm → Prop
  | .decimal => TimeId.ofDecimal line = .ok id
  | .radix => TimeId.ofNumeral .standard line = .ok id
  | .luhn => Luhn.isValidText line = true ∧ (∃ m, Decimal.read line = .ok m ∧ m / 10 = id.raw) ∧
      (id.raw ≠ 0 → TimeId.ofDecimal (String.ofList line.toList.dropLast) = .ok id)

/-- Identifiers that one issuer has issued in a row. -/
structure Issued (g : Issuer) (ids : List TimeId) : Prop where
  fields : ∀ id ∈ ids, id.node = g.node ∧ id.precision = g.precision
  succession : Succession none (ids.map TimeId.stamp)

/-- The state that identifiers issued in a row leave behind. -/
def lastStamp (ids : List TimeId) : State := ids.getLast?.map TimeId.stamp

/-- Why no further line is written after those of `ids`, given what the clock has shown. -/
inductive Stop (g : Issuer) (form : LineForm) (past : List Nat) (ids : List TimeId) :
    Failure → Prop where
  /-- The clock has moved back behind the last line. -/
  | rolledBack {ms : Nat} {last : TimeId} (hms : ms ∈ past) (hlast : ids.getLast? = some last)
      (hbehind : g.precision.tickOfMillis ms < last.timestamp) : Stop g form past ids
        (.issuing (.clockRolledBack last.timestamp (g.precision.tickOfMillis ms)))
  /-- The clock has moved past the last tick that can be written. -/
  | late {ms : Nat} (hms : ms ∈ past)
      (hlate : g.precision.maxTimestamp < g.precision.tickOfMillis ms) : Stop g form past ids
        (.issuing (.timeExhausted (g.precision.tickOfMillis ms) g.precision.maxTimestamp))
  /-- The word of the identifier that comes next is too large for a check digit. -/
  | noCheckDigit {id : TimeId} (hform : form = .luhn) (hnext : Issued g (ids ++ [id]))
      (hlarge : UInt64.size ≤ 10 * id.raw.toNat + Luhn.checkDigit id.raw) :
      Stop g form past ids (.noCheckDigit id)

/-- What is left of a job that has written a line for each of `ids`, and how it has failed. -/
inductive Standing (g : Issuer) (form : LineForm) (count : Nat) (past : List Nat)
    (ids : List TimeId) : Option (Source × Nat) → Option Failure → Prop where
  | underWay (h : ids.length < count) : Standing g form count past ids
      (some (.sequential g form ⟨lastStamp ids, false⟩, count - ids.length)) none
  | finished (h : ids.length = count) : Standing g form count past ids none none
  | stopped {f : Failure} (h : ids.length < count) (hf : Stop g form past ids f) :
      Standing g form count past ids none (some f)

/-- A job that has written a line for each of `ids` at the readings of `past`. -/
structure Course (g : Issuer) (form : LineForm) (count : Nat) (past : List Nat) (ids : List TimeId)
    (j : Job) : Prop where
  lines : ids.map form.line? = j.lines.map some
  issued : Issued g ids
  standing : Standing g form count past ids j.left j.failure

variable {g : Issuer} {form : LineForm} {count ms : Nat} {past : List Nat} {ids : List TimeId}
  {id : TimeId} {line : String} {s : Stamp} {j : Job} {f : Failure}

namespace Report

theorem stdout_ofJob (j : Job) : (ofJob j).stdout = unlines j.lines := by
  rw [ofJob]
  cases j.failure <;> rfl

theorem unlines_eq_intercalate (lines : List String) :
    unlines lines = "\n".intercalate (lines ++ [""]) := by
  induction lines with
  | nil => rfl
  | cons line lines ih =>
    have hcons : unlines (line :: lines) = line ++ "\n" ++ unlines lines := String.join_cons
    rw [hcons, ih, List.cons_append, String.intercalate_cons_of_ne_nil (by simp)]

/-- Lines can be told apart in what is printed of them. -/
theorem split_unlines {lines : List String} (h : ∀ line ∈ lines, '\n' ∉ line.toList) :
    ((unlines lines).split '\n').toList.map (·.copy) = lines ++ [""] := by
  have hparts : ∀ part ∈ lines ++ [""], '\n' ∉ part.toList := by
    intro part hpart
    rcases List.mem_append.mp hpart with hpart | hpart
    · exact h part hpart
    · rw [List.mem_singleton.mp hpart]
      exact List.not_mem_nil
  have hsplit := String.toList_split_intercalate hparts
  rw [if_neg (by simp)] at hsplit
  rw [unlines_eq_intercalate]
  exact hsplit

end Report

theorem newline_not_mem_of_line? (h : LineForm.line? id form = some line) : '\n' ∉ line.toList := by
  apply Text.newline_not_mem_of_graphic
  cases form with
  | decimal =>
    cases h
    exact Decimal.graphic_text _
  | radix =>
    cases h
    exact Numerals.graphic_write _ _
  | luhn =>
    obtain ⟨m, _, rfl⟩ := Option.map_eq_some_iff.mp h
    exact Decimal.graphic_text _

theorem newline_not_mem_lines {lines : List String} (h : ids.map form.line? = lines.map some) :
    ∀ line ∈ lines, '\n' ∉ line.toList := by
  intro line hline
  have hmem : some line ∈ ids.map form.line? := by
    rw [h]
    exact List.mem_map_of_mem hline
  obtain ⟨id, _, hid⟩ := List.mem_map.mp hmem
  exact newline_not_mem_of_line? hid

theorem tells_of_line? (h : LineForm.line? id form = some line) : form.Tells line id := by
  cases form with
  | decimal =>
    cases h
    exact ofDecimal_decimal id
  | radix =>
    cases h
    exact ofNumeral_numeral .standard id
  | luhn =>
    obtain ⟨m, hm, rfl⟩ := Option.map_eq_some_iff.mp h
    refine ⟨Luhn.isValidText_append hm, ⟨m, ?_, Luhn.div_append hm⟩, ?_⟩
    · rw [Decimal.read_text m.toNat_lt, UInt64.ofNat_toNat]
    · intro hid
      rw [Luhn.toList_append hm hid, String.ofList_toList]
      exact ofDecimal_decimal id

theorem issued_nil (g : Issuer) : Issued g [] := ⟨by simp, trivial⟩

theorem after_map_stamp (ids : List TimeId) :
    State.after none (ids.map TimeId.stamp) = lastStamp ids := by
  rw [State.after, lastStamp, List.getLast?_map, Option.or_none]

/-- The identifier of the stamp that comes next can be issued as the next one. -/
theorem issued_concat {now : Nat} (h : Issued g ids)
    (ha : (advance g.precision now (lastStamp ids)).result = .ok s) :
    Issued g (ids ++ [g.stamped s]) := by
  obtain ⟨_, hreached, hdue, ht, hseq⟩ := advance_eq_ok_iff.mp ha
  constructor
  · intro id hid
    rcases List.mem_append.mp hid with hid | hid
    · exact h.fields id hid
    · obtain rfl := List.mem_singleton.mp hid
      simp
  · rw [List.map_append, List.map_singleton, stamp_stamped ht hseq]
    rw [← after_map_stamp] at hreached hdue
    exact succession_append h.succession hreached hdue

theorem issued_sorted (h : Issued g ids) : ids.Pairwise fun a b => a.raw < b.raw := by
  have hstamps := List.pairwise_map.mp (succession_pairwise h.succession)
  refine hstamps.imp_of_mem ?_
  intro a b ha hb hab
  exact lt_of_timestamp_sequence ((h.fields a ha).2.trans (h.fields b hb).2.symm) hab

section Attempt

variable {last : State} {cause : Refusal}

theorem attempt_line (ha : (advance g.precision (g.precision.tickOfMillis ms) last).result = .ok s)
    (hline : form.line? (g.stamped s) = some line) (word : Nat → UInt64) :
    Source.attempt word ms (.sequential g form ⟨last, false⟩) =
      .line line (.sequential g form ⟨some s, false⟩) := by
  simp [Source.attempt, Cell.callAt_fresh, Issuer.update, advance_of_ok ha, Except.map, hline]

theorem attempt_unwritable
    (ha : (advance g.precision (g.precision.tickOfMillis ms) last).result = .ok s)
    (hline : form.line? (g.stamped s) = none) (word : Nat → UInt64) :
    Source.attempt word ms (.sequential g form ⟨last, false⟩) =
      .failed (.noCheckDigit (g.stamped s)) := by
  simp [Source.attempt, Cell.callAt_fresh, Issuer.update, advance_of_ok ha, Except.map, hline]

theorem attempt_refused
    (ha : (advance g.precision (g.precision.tickOfMillis ms) last).result = .error cause)
    (form : LineForm) (word : Nat → UInt64) :
    Source.attempt word ms (.sequential g form ⟨last, false⟩) =
      .ofRefusal cause (.sequential g form ⟨last, false⟩) := by
  have hstate := advance_restrained _ _ _ _ ha
  simp [Source.attempt, Cell.callAt_fresh, Issuer.update, ha, hstate, Except.map]

end Attempt

/-- An exhausted tick leaves the job as it was, and any other refusal stops it. -/
theorem attempt_cases (h : Issued g ids) (word : Nat → UInt64) (ms : Nat) (form : LineForm)
    (past : List Nat) :
    (∃ s line, (advance g.precision (g.precision.tickOfMillis ms) (lastStamp ids)).result = .ok s ∧
      form.line? (g.stamped s) = some line ∧
      Source.attempt word ms (.sequential g form ⟨lastStamp ids, false⟩) =
        .line line (.sequential g form ⟨some s, false⟩)) ∨
    Source.attempt word ms (.sequential g form ⟨lastStamp ids, false⟩) =
      .again (.sequential g form ⟨lastStamp ids, false⟩) ∨
    ∃ f, Stop g form (past ++ [ms]) ids f ∧
      Source.attempt word ms (.sequential g form ⟨lastStamp ids, false⟩) = .failed f := by
  have hms : ms ∈ past ++ [ms] := List.mem_append_right _ (List.mem_singleton_self ms)
  rcases advance_cases g.precision (g.precision.tickOfMillis ms) (lastStamp ids) with
    ⟨hlate, ha⟩ | ⟨b, _, hb, hlt, ha⟩ | ⟨_, _, _, ha⟩ | ⟨_, _, _, ha⟩
  · right; right
    exact ⟨_, .late hms hlate, attempt_refused (congrArg Update.result ha) form word⟩
  · right; right
    obtain ⟨last, hlast, rfl⟩ := Option.map_eq_some_iff.mp hb
    exact ⟨_, .rolledBack hms hlast hlt, attempt_refused (congrArg Update.result ha) form word⟩
  · right; left
    exact attempt_refused (congrArg Update.result ha) form word
  · have hok := congrArg Update.result ha
    cases hline : form.line? (g.stamped ⟨_, (lastStamp ids).due _⟩) with
    | some line => exact Or.inl ⟨_, line, hok, hline, attempt_line hok hline word⟩
    | none =>
      right; right
      refine ⟨_, ?_, attempt_unwritable hok hline word⟩
      cases form with
      | decimal => cases hline
      | radix => cases hline
      | luhn =>
        have hlarge := Luhn.append_eq_none_iff.mp (Option.map_eq_none_iff.mp hline)
        exact .noCheckDigit rfl (issued_concat h hok) (by omega)

theorem stop_mono (h : Stop g form past ids f) (ms : Nat) : Stop g form (past ++ [ms]) ids f := by
  cases h with
  | rolledBack hms hlast hbehind =>
    exact .rolledBack (List.mem_append_left _ hms) hlast hbehind
  | late hms hlate => exact .late (List.mem_append_left _ hms) hlate
  | noCheckDigit hform hnext hlarge => exact .noCheckDigit hform hnext hlarge

/-- One more line. -/
theorem standing_concat (g : Issuer) (form : LineForm) (h : ids.length < count) (past : List Nat)
    (id : TimeId) :
    Standing g form count past (ids ++ [id])
      (if count - ids.length ≤ 1 then none
        else some (.sequential g form ⟨some id.stamp, false⟩, count - ids.length - 1)) none := by
  have hlast : lastStamp (ids ++ [id]) = some id.stamp := by simp [lastStamp]
  have hlength : (ids ++ [id]).length = ids.length + 1 := by simp
  by_cases hone : count - ids.length ≤ 1
  · rw [if_pos hone]
    exact .finished (by omega)
  · rw [if_neg hone, ← hlast, Nat.sub_sub, ← hlength]
    exact .underWay (by omega)

/-- One more reading writes one more line, or none. -/
theorem course_step (word : Nat → UInt64) (h : Course g form count past ids j) (ms : Nat) :
    ∃ ids, Course g form count (past ++ [ms]) ids (j.step word ms) := by
  obtain ⟨hlines, hissued, hstanding⟩ := h
  obtain ⟨written, left, failure⟩ := j
  simp only at hstanding
  cases hstanding with
  | finished hlength => exact ⟨ids, hlines, hissued, .finished hlength⟩
  | stopped hlength hf => exact ⟨ids, hlines, hissued, .stopped hlength (stop_mono hf ms)⟩
  | underWay hlength =>
    rcases attempt_cases hissued word ms form past with ⟨s, line, ha, hline, h⟩ | h | ⟨f, hf, h⟩
    · obtain ⟨_, _, _, ht, hseq⟩ := advance_eq_ok_iff.mp ha
      have hnext := standing_concat g form hlength (past ++ [ms]) (g.stamped s)
      rw [stamp_stamped ht hseq] at hnext
      refine ⟨ids ++ [g.stamped s], ?_, issued_concat hissued ha, ?_⟩
      · rw [List.map_append, hlines]
        simp only [Job.step, h, Job.lines, List.reverse_cons, List.map_append, List.map_singleton,
          hline]
      · simp only [Job.step, h]
        exact hnext
    · refine ⟨ids, ?_, hissued, ?_⟩
      · simpa only [Job.step, h, Job.lines] using hlines
      · simp only [Job.step, h]
        exact .underWay hlength
    · refine ⟨ids, ?_, hissued, ?_⟩
      · simpa only [Job.step, h, Job.lines] using hlines
      · simp only [Job.step, h]
        exact .stopped hlength hf

theorem course_run (word : Nat → UInt64) (g : Issuer) (form : LineForm) (hcount : 0 < count)
    (readings : List Nat) : ∃ ids, Course g form count readings ids
      ((Job.issuing (.sequential g form (.fresh none)) count).run word readings) := by
  induction readings using List.reverseRecOn with
  | nil =>
    refine ⟨[], rfl, issued_nil g, ?_⟩
    have hleft :
        Standing g form count [] [] (some (.sequential g form (.fresh none), count)) none :=
      .underWay hcount
    simpa only [Job.run, List.foldl_nil, Job.issuing, if_neg (Nat.ne_of_gt hcount)] using hleft
  | append_singleton past ms ih =>
    obtain ⟨ids, h⟩ := ih
    rw [Job.run, List.foldl_append]
    exact course_step word h ms

theorem tells_of_lines {lines : List String} (h : ids.map form.line? = lines.map some) :
    List.Forall₂ (fun line id => form.Tells line id) lines ids := by
  induction ids generalizing lines with
  | nil =>
    obtain rfl : lines = [] := List.map_eq_nil_iff.mp h.symm
    exact .nil
  | cons id ids ih =>
    cases lines with
    | nil => cases h
    | cons line lines =>
      obtain ⟨hline, hlines⟩ := List.cons.inj h
      exact .cons (tells_of_line? hline) (ih hlines)

/-- The lines of the command that issues time-ordered identifiers give back identifiers of the node
and the precision asked for, in ascending order. What is printed are these lines, each with a line
break. All of them are written exactly when the command succeeds; otherwise the clock has moved back
or too far ahead, or there is no room for a check digit. -/
theorem sequential_lines_exact {a : Arguments} {count : Nat} {radix luhn : Bool}
    (hnode : a.node ≤ maxNode) (hcommand : a.command = .sequential count radix luhn)
    (hcount : 0 < count) :
    ∃ plan, Plan.ofArguments a = .ok plan ∧
      ∀ word readings, ((Job.start plan).run word readings).isOver = true →
        ∃ ids : List TimeId,
          List.Forall₂ (fun line id => (LineForm.ofFlags radix luhn).Tells line id)
            ((Job.start plan).run word readings).lines ids ∧
          (Report.ofJob ((Job.start plan).run word readings)).stdout =
            Report.unlines ((Job.start plan).run word readings).lines ∧
          ((Report.ofJob ((Job.start plan).run word readings)).stdout.split '\n').toList.map
            (·.copy) = ((Job.start plan).run word readings).lines ++ [""] ∧
          ids.Pairwise (fun x y => x.raw < y.raw) ∧
          (∀ id ∈ ids, id.node = a.node ∧ id.precision = a.precision) ∧
          (((Job.start plan).run word readings).lines.length = count ↔
            (Report.ofJob ((Job.start plan).run word readings)).exit = 0) ∧
          ∀ f, ((Job.start plan).run word readings).failure = some f →
            Stop ⟨a.node, a.precision, hnode⟩ (LineForm.ofFlags radix luhn) readings ids f := by
  have hplan : Plan.ofArguments a =
      .ok ⟨⟨a.node, a.precision⟩, ⟨a.worker, a.alphabet, a.seed⟩, a.command⟩ := by
    simp only [Plan.ofArguments, hcommand, if_neg (Nat.not_lt.mpr hnode),
      if_neg (Nat.ne_of_gt hcount)]
  refine ⟨_, hplan, ?_⟩
  intro word readings hover
  have hstart : Job.start ⟨⟨a.node, a.precision⟩, ⟨a.worker, a.alphabet, a.seed⟩, a.command⟩ =
      .issuing (.sequential ⟨a.node, a.precision, hnode⟩ (.ofFlags radix luhn) (.fresh none))
        count := by
    simp only [Job.start, hcommand, Settings.issuer, Issuer.ofNode, dif_pos hnode]
  rw [hstart] at hover ⊢
  obtain ⟨ids, hlines, hissued, hstanding⟩ := course_run word ⟨a.node, a.precision, hnode⟩
    (.ofFlags radix luhn) hcount readings
  generalize (Job.issuing _ count).run word readings = j at *
  have htells := tells_of_lines hlines
  have hstdout := Report.stdout_ofJob j
  have hsplit := Report.split_unlines (newline_not_mem_lines hlines)
  rw [← hstdout] at hsplit
  refine ⟨ids, htells, hstdout, hsplit, issued_sorted hissued, hissued.fields, ?_⟩
  rw [htells.length_eq]
  obtain ⟨written, left, failure⟩ := j
  obtain rfl : left = none := Option.isNone_iff_eq_none.mp hover
  simp only at hstanding
  cases hstanding with
  | finished hlength =>
    refine ⟨⟨fun _ => rfl, fun _ => hlength⟩, ?_⟩
    intro f hf
    cases hf
  | stopped hlength hstop =>
    refine ⟨⟨fun h => absurd h (Nat.ne_of_lt hlength), fun h => ?_⟩, ?_⟩
    · cases h
    · rintro _ ⟨⟩
      exact hstop

/-- Three lines with check digits, asked for of node 7. -/
def threeOfSeven : Arguments :=
  .ofTexts (fun f => if f = .node then some "7" else none) (.sequential 3 false true)

/-- Two of three lines are written before the clock moves back. -/
theorem threeOfSeven_lines :
    (Report.ofJob ((Job.start ⟨⟨7, .second⟩, ⟨0, Alphabet.standardText, 1⟩,
      .sequential 3 false true⟩).run (fun _ => 0) [5000, 5000, 3000])).stdout =
        "214748364947\n214748385421\n" ∧
    ∃ ids : List TimeId,
    List.Forall₂ (fun line id => LineForm.luhn.Tells line id) ["214748364947", "214748385421"] ids ∧
    ids.Pairwise (fun x y => x.raw < y.raw) ∧
    (∀ id ∈ ids, id.node = 7 ∧ id.precision = .second) ∧
    Stop ⟨7, .second, by decide⟩ .luhn [5000, 5000, 3000] ids
      (.issuing (.clockRolledBack 5 3)) := by
  obtain ⟨plan, hplan, h⟩ := sequential_lines_exact (a := threeOfSeven) (by decide) rfl
    (by decide)
  have hseven : Plan.ofArguments threeOfSeven = .ok ⟨⟨7, .second⟩,
      ⟨0, Alphabet.standardText, 1⟩, .sequential 3 false true⟩ := rfl
  obtain rfl := Except.ok.inj (hplan.symm.trans hseven)
  have hrun := h (fun _ => 0) [5000, 5000, 3000] (by decide +kernel)
  obtain ⟨ids, hlines, hstdout, -, hsorted, hfields, -, hstop⟩ := hrun
  have htexts : ((Job.start ⟨⟨7, .second⟩, ⟨0, Alphabet.standardText, 1⟩,
      .sequential 3 false true⟩).run (fun _ => 0) [5000, 5000, 3000]).lines =
      ["214748364947", "214748385421"] := by decide +kernel
  rw [htexts] at hlines hstdout
  exact ⟨hstdout, ids, hlines, hsorted, hfields, hstop _ (by decide +kernel)⟩

end IdMint.CommandLine
