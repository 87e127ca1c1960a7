import IdMint.Event
import IdMint.Refusal

/-! State behind a lock. A call reads its clock and updates the state in one step. A clock that
breaks down inside that step leaves the state as it was and poisons the cell for good. -/
namespace IdMint

inductive Outcome (α : Type) where
  | issued (value : α)
  | refused (cause : Refusal)
  /-- The caller was brought down, with these last words. -/
  | crashed (words : String)
deriving DecidableEq, Repr

namespace Outcome

variable {α β : Type}

def ofResult : Except Refusal α → Outcome α
  | .ok a => issued a
  | .error cause => refused cause

/-- The call of one who takes no refusal: it becomes a crash. -/
def demand : Outcome α → Outcome α
  | refused cause => crashed ("failed to generate id: " ++ cause.message)
  | outcome => outcome

def value? : Outcome α → Option α
  | issued a => some a
  | _ => none

def map (f : α → β) : Outcome α → Outcome β
  | issued a => issued (f a)
  | refused cause => refused cause
  | crashed words => crashed words

end Outcome

structure Cell (σ : Type) where
  state : σ
  poisoned : Bool
deriving DecidableEq, Repr

/-- What an update makes of a state: a value or a refusal, the next state, and what to log. -/
structure Update (σ α : Type) where
  result : Except Refusal α
  state : σ
  events : List Event

structure Call (σ α : Type) where
  outcome : Outcome α
  cell : Cell σ
  events : List Event

variable {σ α β κ : Type}

def Update.map (f : α → β) (u : Update σ α) : Update σ β :=
  ⟨u.result.map f, u.state, u.events⟩

def Call.map (f : α → β) (c : Call σ α) : Call σ β := ⟨c.outcome.map f, c.cell, c.events⟩

namespace Cell

def fresh (state : σ) : Cell σ := ⟨state, false⟩

/-- Calls on a cell. The clock is looked at in the course of the call, which may change it; a
poisoned cell refuses before that. -/
def callOn (c : Cell σ) (look : κ → Clock.Reading × κ) (clock : κ)
    (update : Nat → σ → Update σ α) : Call σ α × κ :=
  if c.poisoned then (⟨.refused .poisoned, c, []⟩, clock)
  else
    match look clock with
    | (.failed words, clock) => (⟨.crashed words, { c with poisoned := true }, []⟩, clock)
    | (.millis ms, clock) =>
      let u := update ms c.state
      (⟨.ofResult u.result, { c with state := u.state }, u.events⟩, clock)

/-- Calls on a cell at a clock that would show `reading`. -/
def call (c : Cell σ) (reading : Clock.Reading) (update : Nat → σ → Update σ α) : Call σ α :=
  (c.callOn (fun _ => (reading, ())) () update).1

/-- Calls on a cell at a clock that shows `ms`, which bring nobody down. -/
def callAt (c : Cell σ) (ms : Nat) (update : Nat → σ → Update σ α) : Update (Cell σ) α :=
  if c.poisoned then ⟨.error .poisoned, c, []⟩
  else
    let u := update ms c.state
    ⟨u.result, { c with state := u.state }, u.events⟩

end Cell

/-- Values issued in a row, how the row ended early if it did, and what was left. -/
structure Batch (σ α : Type) where
  issued : List α
  stopped : Option (Outcome α)
  state : σ
  events : List Event

/-- Goes on up to `n` times, until nothing is issued. The values from before are given newest first,
the events from before in order. -/
def Batch.collect (next : σ → Outcome α × σ × List Event) (before : List α) (noted : List Event) :
    (n : Nat) → σ → Batch σ α
  | 0, s => ⟨before.reverse, none, s, noted⟩
  | n + 1, s =>
    match next s with
    | (.issued a, s, events) => collect next (a :: before) (noted ++ events) n s
    | (outcome, s, events) => ⟨before.reverse, some outcome, s, noted ++ events⟩

end IdMint
