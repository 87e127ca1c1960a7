import IdMint.CommandLine.Plan
import IdMint.Distinct
import IdMint.Luhn
import IdMint.ShortId.Station

/-! Carrying out a plan. A job writes lines, one clock reading at a time; an exhausted tick writes
nothing and is tried again at the next reading, and any other refusal ends the job. -/
namespace IdMint.CommandLine

inductive LineForm where
  | decimal
  | radix
  | luhn
deriving DecidableEq, Repr

def LineForm.ofFlags (radix luhn : Bool) : LineForm :=
  if radix then .radix else if luhn then .luhn else .decimal

/-- The line of an identifier; with a check digit not every word can be written. -/
def LineForm.line? (id : TimeId) : LineForm → Option String
  | .decimal => some id.decimal
  | .radix => some (id.numeral .standard)
  | .luhn => (Luhn.append id.raw).map fun n => Decimal.text n.toNat

inductive Source where
  | sequential (issuer : TimeId.Issuer) (form : LineForm) (cell : Cell TimeId.State)
  | short (station : ShortId.Station)

inductive Attempt where
  | line (text : String) (source : Source)
  | again (source : Source)
  | failed (failure : Failure)

/-- A refusal is retried if it passes by itself. -/
def Attempt.ofRefusal (cause : Refusal) (source : Source) : Attempt :=
  if cause.isTransient then .again source else .failed (.issuing cause)

def Source.attempt (word : Nat → UInt64) (ms : Nat) : Source → Attempt
  | sequential g form cell =>
    let u := cell.callAt ms g.update
    match u.result with
    | .ok id =>
      match form.line? id with
      | some text => .line text (.sequential g form u.state)
      | none => .failed (.noCheckDigit id)
    | .error cause => .ofRefusal cause (.sequential g form u.state)
  | short station =>
    let u := station.turnAt word ms
    match u.result with
    | .ok text => .line text (.short u.state)
    | .error cause => .ofRefusal cause (.short u.state)

/-- A job under way: the lines written, newest first, and what is left to do. -/
structure Job where
  written : List String
  left : Option (Source × Nat)
  failure : Option Failure

namespace Job

def done (lines : List String) : Job := ⟨lines.reverse, none, none⟩

def failed (f : Failure) : Job := ⟨[], none, some f⟩

def issuing (source : Source) (count : Nat) : Job :=
  ⟨[], if count = 0 then none else some (source, count), none⟩

/-- The lines that take an identifier apart. -/
def description (id : TimeId) : List String :=
  ["id:        " ++ id.decimal,
    "radix:     " ++ id.numeral .standard,
    "precision: " ++ id.precision.name,
    "timestamp: " ++ Decimal.text id.timestamp,
    "time:      " ++ id.dateTime.internet,
    "sequence:  " ++ Decimal.text id.sequence,
    "node:      " ++ Decimal.text id.node,
    "rendered:  " ++ id.render]

def start (p : Plan) : Job :=
  match p.command with
  | .sequential count radix luhn =>
    match p.sequential.issuer with
    | .ok g => issuing (.sequential g (.ofFlags radix luhn) (.fresh none)) count
    | .error cause => failed (.settings cause)
  | .short count =>
    match p.short.issuer with
    | .ok g => issuing (.short (.ofIssuer g)) count
    | .error cause => failed (.settings cause)
  | .decode text radix =>
    match if radix then TimeId.ofNumeral .standard text else TimeId.ofDecimal text with
    | .ok id => done (description id)
    | .error cause => failed (.undecodable text cause)
  | .shuffle alphabet seed =>
    if Distinct.isUnique alphabet then done [Shuffle.text alphabet seed]
    else failed .repeatedSymbol

def step (word : Nat → UInt64) (j : Job) (ms : Nat) : Job :=
  match j.left with
  | none => j
  | some (source, count) =>
    match source.attempt word ms with
    | .line text source =>
      { j with
        written := text :: j.written
        left := if count ≤ 1 then none else some (source, count - 1) }
    | .again source => { j with left := some (source, count) }
    | .failed f => { j with left := none, failure := some f }

def run (word : Nat → UInt64) (j : Job) (readings : List Nat) : Job := readings.foldl (step word) j

def isOver (j : Job) : Bool := j.left.isNone

def lines (j : Job) : List String := j.written.reverse

end Job

end IdMint.CommandLine
