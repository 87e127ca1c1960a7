import IdMint.ShortId.Issuer

/-! An issuer of short identifiers at work, with its cell and its place in a stream of random
words. -/
namespace IdMint.ShortId

/-- An issuer, its cell, and how many random words it has drawn. -/
structure Station where
  issuer : Issuer
  cell : Cell State
  drawn : Nat

/-- A call, what the clock shows then, and whether it takes no refusal. -/
structure Request where
  reading : Clock.Reading
  demanded : Bool
deriving DecidableEq

structure Turn where
  outcome : Outcome String
  station : Station
  events : List Event

namespace Station

def ofIssuer (g : Issuer) : Station := ⟨g, .fresh none, 0⟩

/-- How many random words a call drew: none unless it issued. -/
def drawnBy : Outcome Minted → Nat
  | .issued m => m.drawn
  | _ => 0

def turn (s : Station) (source : Nat → UInt64) (r : Request) : Turn :=
  let c := s.issuer.issue (fun k => source (s.drawn + k)) s.cell r.reading
  let outcome := c.outcome.map Minted.text
  { outcome := if r.demanded then outcome.demand else outcome
    station := { s with cell := c.cell, drawn := s.drawn + drawnBy c.outcome }
    events := c.events }

/-- Serves one who takes a refusal, at a clock that shows `ms`. -/
def turnAt (s : Station) (source : Nat → UInt64) (ms : Nat) : Update Station String :=
  let u := s.cell.callAt ms (s.issuer.update fun k => source (s.drawn + k))
  { result := u.result.map Minted.text
    state := { s with cell := u.state, drawn := s.drawn + drawnBy (.ofResult u.result) }
    events := u.events }

def run (s : Station) (source : Nat → UInt64) : List Request → List Turn
  | [] => []
  | r :: rs =>
    let t := s.turn source r
    t :: t.station.run source rs

def batch (s : Station) (source : Nat → UInt64) (r : Request) (n : Nat) : Batch Station String :=
  Batch.collect (fun s =>
    let t := s.turn source r
    (t.outcome, t.station, t.events)) [] [] n s

end Station

end IdMint.ShortId
