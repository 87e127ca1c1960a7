import IdMint.TimeId.Issuer

/-! Many issuers at work. Each member of a fleet holds an issuer and the number of the cell it
draws from, and members that draw from one cell share its stamps. -/
namespace IdMint.TimeId

/-- An issuer and the number of its cell. -/
structure Member where
  issuer : Issuer
  cell : Nat
deriving DecidableEq

/-- Members and the cells that they draw from. -/
structure Fleet where
  members : List Member
  cells : List (Cell State)

/-- A call by a member, what its clock shows then, and whether it takes no refusal. -/
structure Request where
  member : Member
  reading : Clock.Reading
  demanded : Bool
deriving DecidableEq

structure Turn where
  outcome : Outcome TimeId
  fleet : Fleet
  events : List Event

namespace Fleet

def empty : Fleet := ⟨[], []⟩

/-- The cell of a number; one that was never made is as good as new. -/
def cell (f : Fleet) (k : Nat) : Cell State := (f.cells[k]?).getD (.fresh none)

/-- Adds a member with a cell of its own. -/
def found (f : Fleet) (g : Issuer) : Fleet :=
  ⟨f.members ++ [⟨g, f.cells.length⟩], f.cells ++ [.fresh none]⟩

/-- Adds a member that shares the cell of another. -/
def join (f : Fleet) (g : Issuer) (other : Member) : Fleet :=
  { f with members := f.members ++ [⟨g, other.cell⟩] }

/-- Adds a member whose cell may or may not be there already. -/
def receive (f : Fleet) (m : Member) : Fleet :=
  ⟨f.members ++ [m],
    f.cells ++ List.replicate (m.cell + 1 - f.cells.length) (.fresh none)⟩

/-- Serves a request. The cell is read and written in one step. -/
def turn (f : Fleet) (r : Request) : Turn :=
  let c := r.member.issuer.issue (f.cell r.member.cell) r.reading
  { outcome := if r.demanded then c.outcome.demand else c.outcome
    fleet := { f with cells := f.cells.set r.member.cell c.cell }
    events := c.events }

def run (f : Fleet) : List Request → List (Outcome TimeId) × Fleet
  | [] => ([], f)
  | r :: rs =>
    let t := f.turn r
    let (outcomes, last) := t.fleet.run rs
    (t.outcome :: outcomes, last)

def batch (f : Fleet) (r : Request) (n : Nat) : Batch Fleet TimeId :=
  Batch.collect (fun f =>
    let t := f.turn r
    (t.outcome, t.fleet, t.events)) [] [] n f

end Fleet

end IdMint.TimeId
