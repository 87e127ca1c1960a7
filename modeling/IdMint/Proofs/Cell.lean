import IdMint.Cell

/-! Everything that a call can do to a cell. -/
namespace IdMint

variable {σ α β κ : Type}

section Maps

variable {γ : Type} (f : α → β) (g : β → γ)

namespace Outcome

variable (o : Outcome α)

@[simp] theorem value?_issued (a : α) : (issued a).value? = some a := rfl

@[simp] theorem value?_refused (cause : Refusal) :
    (refused cause : Outcome α).value? = none := rfl

@[simp] theorem value?_crashed (words : String) : (crashed words : Outcome α).value? = none := rfl

@[simp] theorem value?_demand : o.demand.value? = o.value? := by
  cases o <;> rfl

@[simp] theorem value?_map : (o.map f).value? = o.value?.map f := by
  cases o <;> rfl

@[simp] theorem map_map : (o.map f).map g = o.map fun a => g (f a) := by
  cases o <;> rfl

@[simp] theorem map_ofResult (r : Except Refusal α) : (ofResult r).map f = ofResult (r.map f) := by
  cases r <;> rfl

end Outcome

namespace Call

variable (c : Call σ α)

@[simp] theorem outcome_map : (c.map f).outcome = c.outcome.map f := rfl

@[simp] theorem cell_map : (c.map f).cell = c.cell := rfl

@[simp] theorem events_map : (c.map f).events = c.events := rfl

end Call

namespace Update

variable (u : Update σ α)

@[simp] theorem result_map : (u.map f).result = u.result.map f := rfl

@[simp] theorem state_map : (u.map f).state = u.state := rfl

@[simp] theorem events_map : (u.map f).events = u.events := rfl

end Update

end Maps

@[simp] theorem Cell.state_fresh (s : σ) : (Cell.fresh s).state = s := rfl

@[simp] theorem Cell.poisoned_fresh (s : σ) : (Cell.fresh s).poisoned = false := rfl

/-- An update that leaves the state as it was when it refuses. -/
def Restrained (update : Nat → σ → Update σ α) : Prop :=
  ∀ ms s cause, (update ms s).result = .error cause → (update ms s).state = s

theorem restrained_map {update : Nat → σ → Update σ α} (h : Restrained update) (f : α → β) :
    Restrained fun ms s => (update ms s).map f := by
  intro ms s cause hcause
  rw [Update.result_map] at hcause
  cases hu : (update ms s).result with
  | ok a =>
    rw [hu] at hcause
    cases hcause
  | error e => exact h ms s e hu

namespace Cell

theorem callOn_of_poisoned {c : Cell σ} (h : c.poisoned = true) (look : κ → Clock.Reading × κ)
    (clock : κ) (update : Nat → σ → Update σ α) :
    c.callOn look clock update = (⟨.refused .poisoned, c, []⟩, clock) := by
  rw [callOn, if_pos h]

theorem call_of_failed {c : Cell σ} (h : c.poisoned = false) (words : String)
    (update : Nat → σ → Update σ α) :
    c.call (.failed words) update = ⟨.crashed words, ⟨c.state, true⟩, []⟩ := by
  simp only [call, callOn, h, Bool.false_eq_true, if_false]

theorem call_of_millis {c : Cell σ} (h : c.poisoned = false) (ms : Nat)
    (update : Nat → σ → Update σ α) : c.call (.millis ms) update =
      ⟨.ofResult (update ms c.state).result, ⟨(update ms c.state).state, false⟩,
        (update ms c.state).events⟩ := by
  simp only [call, callOn, h, Bool.false_eq_true, if_false]

/-- Where the clock works, a call ends with a value or with a refusal. -/
theorem call_millis (c : Cell σ) (ms : Nat) (update : Nat → σ → Update σ α) :
    c.call (.millis ms) update = ⟨.ofResult (c.callAt ms update).result,
      (c.callAt ms update).state, (c.callAt ms update).events⟩ := by
  obtain ⟨state, poisoned⟩ := c
  cases poisoned <;> rfl

theorem callAt_fresh (state : σ) (ms : Nat) (update : Nat → σ → Update σ α) :
    (⟨state, false⟩ : Cell σ).callAt ms update =
      ⟨(update ms state).result, ⟨(update ms state).state, false⟩, (update ms state).events⟩ := rfl

/-- What is made of a value afterwards makes no difference to a call. -/
theorem call_map (c : Cell σ) (reading : Clock.Reading) (update : Nat → σ → Update σ α)
    (f : α → β) :
    c.call reading (fun ms s => (update ms s).map f) = (c.call reading update).map f := by
  obtain ⟨state, poisoned⟩ := c
  cases poisoned with
  | true => rfl
  | false =>
    cases reading with
    | failed words => rfl
    | millis ms =>
      simp [call_of_millis, Call.map]

/-- A call is refused by a poisoned cell, poisons the cell, or ends as the update does. -/
theorem call_cases (c : Cell σ) (reading : Clock.Reading) (update : Nat → σ → Update σ α) :
    (c.poisoned = true ∧ c.call reading update = ⟨.refused .poisoned, c, []⟩) ∨
    (∃ words, c.poisoned = false ∧ reading = .failed words ∧
      c.call reading update = ⟨.crashed words, ⟨c.state, true⟩, []⟩) ∨
    (∃ ms a, c.poisoned = false ∧ reading = .millis ms ∧ (update ms c.state).result = .ok a ∧
      c.call reading update =
        ⟨.issued a, ⟨(update ms c.state).state, false⟩, (update ms c.state).events⟩) ∨
    (∃ ms cause, c.poisoned = false ∧ reading = .millis ms ∧
      (update ms c.state).result = .error cause ∧
      c.call reading update =
        ⟨.refused cause, ⟨(update ms c.state).state, false⟩, (update ms c.state).events⟩) := by
  cases hc : c.poisoned with
  | true => exact Or.inl ⟨rfl, congrArg Prod.fst (callOn_of_poisoned hc _ () update)⟩
  | false =>
    right
    cases reading with
    | failed words => exact Or.inl ⟨words, rfl, rfl, call_of_failed hc words update⟩
    | millis ms =>
      right
      have hcall := call_of_millis hc ms update
      cases hu : (update ms c.state).result with
      | ok a =>
        rw [hu] at hcall
        exact Or.inl ⟨ms, a, rfl, rfl, hu, hcall⟩
      | error cause =>
        rw [hu] at hcall
        exact Or.inr ⟨ms, cause, rfl, rfl, hu, hcall⟩

variable {c : Cell σ} {reading : Clock.Reading} {update : Nat → σ → Update σ α} {cause : Refusal}

/-- A refusal comes from a poisoned cell or from the update, and leaves the cell as it was. -/
theorem refused_cases (hu : Restrained update)
    (h : (c.call reading update).outcome = .refused cause) :
    (c.call reading update).cell = c ∧
      (cause = .poisoned ∨ ∃ ms, (update ms c.state).result = .error cause) := by
  rcases c.call_cases reading update with
    ⟨_, hc⟩ | ⟨_, _, _, hc⟩ | ⟨_, _, _, _, _, hc⟩ | ⟨ms, _, hp, _, hr, hc⟩ <;>
    rw [hc] at h <;> cases h
  · exact ⟨by rw [hc], Or.inl rfl⟩
  · rw [hc, hu ms c.state cause hr, ← hp]
    exact ⟨rfl, Or.inr ⟨ms, hr⟩⟩

/-- A call issues what the update gives, or it leaves the state. -/
theorem issued_cases (hu : Restrained update) (c : Cell σ) (reading : Clock.Reading) :
    (∃ ms a, c.poisoned = false ∧ reading = .millis ms ∧ (update ms c.state).result = .ok a ∧
      c.call reading update =
        ⟨.issued a, ⟨(update ms c.state).state, false⟩, (update ms c.state).events⟩) ∨
    ((c.call reading update).outcome.value? = none ∧
      (c.call reading update).cell.state = c.state) := by
  rcases c.call_cases reading update with
    ⟨_, h⟩ | ⟨_, _, _, h⟩ | hissued | ⟨ms, _, _, _, hr, h⟩
  · exact Or.inr (by rw [h]; exact ⟨rfl, rfl⟩)
  · exact Or.inr (by rw [h]; exact ⟨rfl, rfl⟩)
  · exact Or.inl hissued
  · exact Or.inr (by rw [h]; exact ⟨rfl, hu ms c.state _ hr⟩)

end Cell

end IdMint
