import IdMint.Cell
import IdMint.ShortId.Filler

/-! Issuing short identifiers: elapsed milliseconds, worker, and a counter unless it is zero, packed
over a shuffled alphabet. A clock that moves back is accepted, logged, and restarts the counter. -/
namespace IdMint.ShortId

/-- The largest number of milliseconds that a short identifier carries. -/
def maxMillis : Nat := (1 <<< 40) - 1

/-- A millisecond and how many identifiers it had before this one. -/
structure Beat where
  millis : Nat
  counter : UInt64
deriving DecidableEq, Repr

abbrev State : Type := Option Beat

/-- The beat after `last` when the clock shows `now` milliseconds. -/
def advance (now : Nat) (last : State) : Update State Beat :=
  if maxMillis < now then
    ⟨.error (.timeExhausted now maxMillis), last, [.shortTimesExhausted now]⟩
  else
    match last with
    | none => ⟨.ok ⟨now, 0⟩, some ⟨now, 0⟩, []⟩
    | some b =>
      if b.millis = now then ⟨.ok ⟨now, b.counter + 1⟩, some ⟨now, b.counter + 1⟩, []⟩
      else if now < b.millis then
        ⟨.ok ⟨now, 0⟩, some ⟨now, 0⟩, [.rollbackAccepted b.millis now]⟩
      else ⟨.ok ⟨now, 0⟩, some ⟨now, 0⟩, []⟩

/-- A worker and the shuffled alphabet that it writes with. -/
structure Issuer where
  worker : Nat
  alphabet : Alphabet
  worker_le : worker ≤ alphabet.maxWorker

/-- A short identifier, and how many random words went into it. -/
structure Minted where
  text : String
  drawn : Nat
deriving DecidableEq, Repr

namespace Issuer

/-- An issuer for a worker, whose number must fit one packed symbol. -/
def ofWorker (worker : Nat) (alphabet : Alphabet) : Except Refusal Issuer :=
  if h : worker ≤ alphabet.maxWorker then .ok ⟨worker, alphabet, h⟩
  else .error (.workerTooLarge worker alphabet.maxWorker)

theorem ofWorker_of_le {worker : Nat} {alphabet : Alphabet} (h : worker ≤ alphabet.maxWorker) :
    ofWorker worker alphabet = .ok ⟨worker, alphabet, h⟩ := dif_pos h

theorem ofWorker_of_lt {worker : Nat} {alphabet : Alphabet} (h : alphabet.maxWorker < worker) :
    ofWorker worker alphabet = .error (.workerTooLarge worker alphabet.maxWorker) :=
  dif_neg (Nat.not_le.2 h)

theorem ofWorker_eq_ok {worker : Nat} {alphabet : Alphabet} {g : Issuer}
    (h : ofWorker worker alphabet = .ok g) : g.worker = worker ∧ g.alphabet = alphabet := by
  rcases Nat.lt_or_ge alphabet.maxWorker worker with hlt | hle
  · rw [ofWorker_of_lt hlt] at h
    cases h
  · rw [ofWorker_of_le hle] at h
    cases h
    exact ⟨rfl, rfl⟩

def fields (g : Issuer) (b : Beat) : List Nat :=
  [b.millis, g.worker] ++ if b.counter = 0 then [] else [b.counter.toNat]

/-- The symbols of a beat and the filler that is left. -/
def packed (g : Issuer) (source : Nat → UInt64) (b : Beat) : List UInt8 × Filler :=
  (g.fields b).foldl (pack g.alphabet source) ([], .empty)

/-- The identifier of a beat. -/
def minted (g : Issuer) (source : Nat → UInt64) (b : Beat) : Minted :=
  let (symbols, filler) := g.packed source b
  ⟨Text.ofAscii symbols, filler.drawn⟩

def update (g : Issuer) (source : Nat → UInt64) (ms : Nat) (last : State) :
    Update State Minted :=
  (advance ms last).map (g.minted source)

def issue (g : Issuer) (source : Nat → UInt64) (c : Cell State) (reading : Clock.Reading) :
    Call State Minted :=
  c.call reading (g.update source)

end Issuer

end IdMint.ShortId
