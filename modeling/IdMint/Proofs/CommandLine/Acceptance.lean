import IdMint.CommandLine.Job
import IdMint.Proofs.ShortId.History
import IdMint.Proofs.TimeId.History

/-! Which arguments are accepted. The check looks at an alphabet before it is shuffled and the
issuer after that, and still the two agree, so a job under way never fails over an issuer that
cannot be made. -/
namespace IdMint

/-- Nothing that a time-ordered issuer refuses has to do with its settings. -/
theorem TimeId.Issuer.callAt_refused {g : Issuer} {c : Cell State} {ms : Nat} {cause : Refusal}
    (h : (c.callAt ms g.update).result = .error cause) : cause.isConstruction = false := by
  have hcall : (c.call (.millis ms) g.update).outcome = .refused cause := by
    rw [Cell.call_millis, h]
    rfl
  obtain ⟨_, rfl | ⟨now, hu⟩⟩ := Cell.refused_cases (update_restrained g) hcall
  · rfl
  · simp only [update, Update.result_map] at hu
    rcases advance_cases g.precision (g.precision.tickOfMillis now) c.state with
      ⟨_, ha⟩ | ⟨_, _, _, _, ha⟩ | ⟨_, _, _, ha⟩ | ⟨_, _, _, ha⟩ <;>
      rw [ha] at hu <;> cases hu <;> rfl

/-- Nothing that a station refuses has to do with its settings. -/
theorem ShortId.Station.turnAt_refused {s : Station} {word : Nat → UInt64} {ms : Nat}
    {cause : Refusal} (h : (s.turnAt word ms).result = .error cause) :
    cause.isConstruction = false := by
  have hturn : (s.turn word ⟨.millis ms, false⟩).outcome = .refused cause := by
    rw [turn_millis, h]
    rfl
  have hcall : (s.cell.call (.millis ms) advance).outcome = .refused cause := by
    simp only [turn_outcome, Bool.false_eq_true, if_false] at hturn
    cases hc : (s.cell.call (.millis ms) advance).outcome <;> rw [hc] at hturn <;> cases hturn
    rfl
  obtain ⟨_, rfl | ⟨now, hu⟩⟩ := Cell.refused_cases advance_restrained hcall
  · rfl
  · rcases Nat.lt_or_ge maxMillis now with hlate | hle
    · rw [advance_of_late hlate] at hu
      cases hu
      rfl
    · rw [(advance_of_le hle _).1] at hu
      cases hu

namespace CommandLine

variable {a : Arguments} {f : Failure} {source : Source} {word : Nat → UInt64} {j : Job} {n : Nat}

/-- How many identifiers a command is to issue, if it issues any. -/
def Command.count? : Command → Option Nat
  | .sequential count _ _ | .short count => some count
  | .decode _ _ | .shuffle _ _ => none

/-- The settings and the command of arguments, whether they are accepted or not. -/
def Arguments.plan (a : Arguments) : Plan :=
  ⟨⟨a.node, a.precision⟩, ⟨a.worker, a.alphabet, a.seed⟩, a.command⟩

/-- The failure is that an issuer cannot be made. -/
def Failure.isConstruction : Failure → Bool
  | .nodeTooLarge _ | .badAlphabet _ | .workerTooLarge _ _ _ | .settings _ => true
  | .issuing cause => cause.isConstruction
  | _ => false

inductive Failure.Reports : Refusal → Failure → Prop where
  | alphabet (cause : Refusal) : Reports cause (.badAlphabet cause)
  | worker (worker size max : Nat) :
      Reports (.workerTooLarge worker max) (.workerTooLarge worker size max)

/-- The check accepts what the issuer accepts, and reports what it refuses. -/
theorem checkShort_cases (a : Arguments) :
    (∃ g, a.plan.short.issuer = .ok g ∧ Plan.checkShort a = .ok ()) ∨
    ∃ cause f, a.plan.short.issuer = .error cause ∧ Plan.checkShort a = .error f ∧
      Failure.Reports cause f := by
  cases hb : Alphabet.ofString a.alphabet with
  | error cause =>
    right
    refine ⟨cause, .badAlphabet cause, ShortId.Settings.issuer_of_refusal hb, ?_, .alphabet cause⟩
    simp only [Plan.checkShort, hb]
  | ok b =>
    have hissuer := ShortId.Settings.issuer_of_alphabet (s := a.plan.short) hb
    rcases Nat.lt_or_ge b.maxWorker a.worker with hlt | hle
    · right
      have hshuffled : (b.shuffled a.seed).maxWorker < a.worker := by simpa using hlt
      refine ⟨.workerTooLarge a.worker b.maxWorker, .workerTooLarge a.worker b.size b.maxWorker,
        ?_, ?_, .worker a.worker b.size b.maxWorker⟩
      · rw [hissuer, ← Alphabet.maxWorker_shuffled b a.seed]
        exact ShortId.Issuer.ofWorker_of_lt hshuffled
      · simp only [Plan.checkShort, hb, if_pos hlt]
    · left
      have hshuffled : a.worker ≤ (b.shuffled a.seed).maxWorker := by simpa using hle
      refine ⟨_, hissuer.trans (ShortId.Issuer.ofWorker_of_le hshuffled), ?_⟩
      simp only [Plan.checkShort, hb, if_neg (Nat.not_lt.mpr hle)]

theorem ofArguments_of_node (h : TimeId.maxNode < a.node) :
    Plan.ofArguments a = .error (.nodeTooLarge a.node) := by
  rw [Plan.ofArguments, if_pos h]

theorem ofArguments_short (hnode : a.node ≤ TimeId.maxNode) (hcommand : a.command = .short n)
    (hn : 0 < n) : Plan.ofArguments a = (Plan.checkShort a).map fun _ => a.plan := by
  simp only [Plan.ofArguments, if_neg (Nat.not_lt.mpr hnode), hcommand, if_neg hn.ne',
    Arguments.plan]

theorem ofArguments_other (hnode : a.node ≤ TimeId.maxNode) (hn : ∀ n ∈ a.command.count?, 0 < n)
    (hcommand : ∀ n, a.command ≠ .short n) : Plan.ofArguments a = .ok a.plan := by
  cases hc : a.command with
  | short n => exact absurd hc (hcommand n)
  | sequential n radix luhn =>
    have hpos : 0 < n := by simpa [hc, Command.count?] using hn
    simp only [Plan.ofArguments, if_neg (Nat.not_lt.mpr hnode), hc, if_neg hpos.ne',
      Arguments.plan]
  | decode id radix =>
    simp only [Plan.ofArguments, if_neg (Nat.not_lt.mpr hnode), hc, Arguments.plan]
  | shuffle alphabet seed =>
    simp only [Plan.ofArguments, if_neg (Nat.not_lt.mpr hnode), hc, Arguments.plan]

/-- Arguments are accepted as they are, or turned down over the node or over what the issuer of
short identifiers refuses. -/
theorem ofArguments_cases (hn : ∀ n ∈ a.command.count?, 0 < n) :
    (TimeId.maxNode < a.node ∧ Plan.ofArguments a = .error (.nodeTooLarge a.node)) ∨
    (a.node ≤ TimeId.maxNode ∧ (∀ n, a.command = .short n → ∃ g, a.plan.short.issuer = .ok g) ∧
      Plan.ofArguments a = .ok a.plan) ∨
    (a.node ≤ TimeId.maxNode ∧ (∃ n, a.command = .short n) ∧
      ∃ cause f, a.plan.short.issuer = .error cause ∧ Plan.ofArguments a = .error f ∧
        Failure.Reports cause f) := by
  rcases Nat.lt_or_ge TimeId.maxNode a.node with hlt | hnode
  · exact Or.inl ⟨hlt, ofArguments_of_node hlt⟩
  right
  by_cases hcommand : ∃ n, a.command = .short n
  · obtain ⟨n, hshort⟩ := hcommand
    have hcheck := ofArguments_short hnode hshort (hn n (by rw [hshort]; rfl))
    rcases checkShort_cases a with ⟨g, hg, hc⟩ | ⟨cause, f, hcause, hc, hf⟩
    · left
      rw [hc] at hcheck
      exact ⟨hnode, fun _ _ => ⟨g, hg⟩, hcheck⟩
    · right
      rw [hc] at hcheck
      exact ⟨hnode, ⟨n, hshort⟩, cause, f, hcause, hcheck, hf⟩
  · left
    have hother : ∀ n, a.command ≠ .short n := fun n h => hcommand ⟨n, h⟩
    exact ⟨hnode, fun n h => absurd h (hother n), ofArguments_other hnode hn hother⟩

theorem attempt_failed {ms : Nat} (h : source.attempt word ms = .failed f) :
    f.isConstruction = false := by
  have hretried : ∀ cause next, cause.isConstruction = false →
      Attempt.ofRefusal cause next = .failed f → f.isConstruction = false := by
    intro cause next hcause hf
    unfold Attempt.ofRefusal at hf
    split at hf <;> cases hf
    exact hcause
  cases source with
  | sequential g form cell =>
    simp only [Source.attempt] at h
    split at h
    · split at h <;> cases h
      rfl
    · next cause hresult => exact hretried cause _ (TimeId.Issuer.callAt_refused hresult) h
  | short station =>
    simp only [Source.attempt] at h
    split at h
    · cases h
    · next cause hresult => exact hretried cause _ (ShortId.Station.turnAt_refused hresult) h

/-- A reading of the clock never makes a job fail over an issuer that cannot be made. -/
theorem step_failure (h : ∀ f ∈ j.failure, f.isConstruction = false) (ms : Nat) :
    ∀ f ∈ (j.step word ms).failure, f.isConstruction = false := by
  unfold Job.step
  split
  · exact h
  · split
    · exact h
    · exact h
    · rename_i f hf
      rintro _ ⟨⟩
      exact attempt_failed hf

theorem run_failure (h : ∀ f ∈ j.failure, f.isConstruction = false) (readings : List Nat) :
    ∀ f ∈ (j.run word readings).failure, f.isConstruction = false := by
  induction readings generalizing j with
  | nil => exact h
  | cons ms readings ih => exact ih (step_failure h ms)

/-- Accepted arguments start a job with an issuer. -/
theorem start_issuing (hnode : a.node ≤ TimeId.maxNode)
    (hissuer : ∀ n, a.command = .short n → ∃ g, a.plan.short.issuer = .ok g)
    (hn : n ∈ a.command.count?) : ∃ source, Job.start a.plan = .issuing source n := by
  cases hc : a.command with
  | sequential count radix luhn =>
    obtain rfl : count = n := by simpa [hc, Command.count?] using hn
    refine ⟨.sequential ⟨a.node, a.precision, hnode⟩ (.ofFlags radix luhn) (.fresh none), ?_⟩
    simp only [Job.start, Arguments.plan, hc, TimeId.Settings.issuer, TimeId.Issuer.ofNode,
      dif_pos hnode]
  | short count =>
    obtain rfl : count = n := by simpa [hc, Command.count?] using hn
    obtain ⟨g, hg⟩ := hissuer count hc
    refine ⟨.short (.ofIssuer g), ?_⟩
    simp only [Arguments.plan] at hg
    simp only [Job.start, Arguments.plan, hc, hg]
  | decode id radix => simp [hc, Command.count?] at hn
  | shuffle alphabet seed => simp [hc, Command.count?] at hn

/-- Arguments that ask for at least one identifier, or for none at all, are accepted just when the
node fits and, where short identifiers are asked for, their issuer can be made of the worker, the
alphabet and the seed. Accepted, they start a job with an issuer, which never fails for want of one.
Where the node fits, a command for short identifiers is turned down only over what the issuer
refuses. -/
theorem checks_agree_with_issuers (hn : ∀ n ∈ a.command.count?, 0 < n) :
    ((∃ p, Plan.ofArguments a = .ok p) ↔ a.node ≤ TimeId.maxNode ∧
      ∀ n, a.command = .short n →
        ∃ g, ShortId.Settings.issuer ⟨a.worker, a.alphabet, a.seed⟩ = .ok g) ∧
    (∀ p, Plan.ofArguments a = .ok p → ∀ n ∈ a.command.count?,
      (∃ source, Job.start p = .issuing source n) ∧
      ∀ word readings, ∀ f ∈ ((Job.start p).run word readings).failure,
        f.isConstruction = false) ∧
    ∀ n f, a.command = .short n → a.node ≤ TimeId.maxNode → Plan.ofArguments a = .error f →
      ∃ cause, ShortId.Settings.issuer ⟨a.worker, a.alphabet, a.seed⟩ = .error cause ∧
        Failure.Reports cause f := by
  rcases ofArguments_cases hn with
    ⟨hlt, ha⟩ | ⟨hnode, hissuer, ha⟩ | ⟨hnode, ⟨n, hshort⟩, cause, f, hcause, ha, hf⟩
  · have hno : ¬ ∃ p, Plan.ofArguments a = .ok p := by simp [ha]
    refine ⟨iff_of_false hno ?_, fun p hp => absurd ⟨p, hp⟩ hno, ?_⟩
    · rintro ⟨hnode, _⟩
      omega
    · intro n f _ hnode
      omega
  · refine ⟨iff_of_true ⟨a.plan, ha⟩ ⟨hnode, hissuer⟩, ?_, ?_⟩
    · intro p hp n hcount
      obtain rfl : a.plan = p := Except.ok.inj (ha.symm.trans hp)
      obtain ⟨source, hstart⟩ := start_issuing hnode hissuer hcount
      refine ⟨⟨source, hstart⟩, fun word readings => run_failure ?_ readings⟩
      rw [hstart]
      exact fun f hf => absurd hf (Option.not_mem_none f)
    · intro n f _ _ hf
      cases ha.symm.trans hf
  · have hno : ¬ ∃ p, Plan.ofArguments a = .ok p := by simp [ha]
    refine ⟨iff_of_false hno ?_, fun p hp => absurd ⟨p, hp⟩ hno, ?_⟩
    · rintro ⟨_, hissuer⟩
      obtain ⟨g, hg⟩ := hissuer n hshort
      cases hcause.symm.trans hg
    · intro n g _ _ hg
      obtain rfl : f = g := Except.error.inj (ha.symm.trans hg)
      exact ⟨cause, hcause, hf⟩

/-- Short identifiers of a worker of 32 symbols. -/
def threeOfWorker (worker : Nat) : Arguments :=
  ⟨1023, .millisecond, Alphabet.base32Text, 7, worker, .short 3⟩

/-- Worker 15 is accepted and worker 16 is not, whatever the alphabet is shuffled with. -/
theorem threeOfWorker_checked : (∀ n ∈ (threeOfWorker 15).command.count?, 0 < n) ∧
    (∃ g, ShortId.Settings.issuer ⟨15, Alphabet.base32Text, 7⟩ = .ok g) ∧
    ∃ f, Plan.ofArguments (threeOfWorker 16) = .error f ∧ ∃ cause,
      ShortId.Settings.issuer ⟨16, Alphabet.base32Text, 7⟩ = .error cause ∧
        Failure.Reports cause f := by
  have hn : ∀ w, ∀ n ∈ (threeOfWorker w).command.count?, 0 < n := by
    simp [threeOfWorker, Command.count?]
  obtain ⟨hiff, _⟩ := checks_agree_with_issuers (hn 15)
  obtain ⟨_, _, hrefused⟩ := checks_agree_with_issuers (hn 16)
  have hlast : Plan.ofArguments (threeOfWorker 15) = .ok (threeOfWorker 15).plan := by
    decide +kernel
  have hpast : Plan.ofArguments (threeOfWorker 16) = .error (.workerTooLarge 16 32 15) := by
    decide +kernel
  refine ⟨hn 15, (hiff.mp ⟨_, hlast⟩).2 3 rfl, _, hpast, ?_⟩
  exact hrefused 3 _ rfl (by decide) hpast

end CommandLine

end IdMint
