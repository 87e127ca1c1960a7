import IdMint.Cell
import IdMint.TimeId

/-! Issuing time-ordered identifiers. The state is the tick and sequence number issued last; a call
moves it strictly forward or refuses. -/
namespace IdMint.TimeId

/-- A tick and a sequence number within it. -/
structure Stamp where
  tick : Nat
  sequence : Nat
deriving DecidableEq, Repr

abbrev State : Type := Option Stamp

/-- The tick issued last, if any was. -/
def State.lastTick (s : State) : Option Nat := s.map Stamp.tick

/-- The stamp after `last` when the clock shows the tick `now`. That a tick can be written is judged
before it is compared with the last one. -/
def advance (p : Precision) (now : Nat) (last : State) : Update State Stamp :=
  if p.maxTimestamp < now then
    ⟨.error (.timeExhausted now p.maxTimestamp), last, [.timestampsExhausted now p.maxTimestamp]⟩
  else
    match last with
    | none => ⟨.ok ⟨now, 0⟩, some ⟨now, 0⟩, []⟩
    | some s =>
      if now = s.tick then
        if p.maxSequence ≤ s.sequence then
          ⟨.error (.sequenceExhausted now), last, [.tickExhausted now]⟩
        else ⟨.ok ⟨now, s.sequence + 1⟩, some ⟨now, s.sequence + 1⟩, []⟩
      else if now < s.tick then
        ⟨.error (.clockRolledBack s.tick now), last, [.rollbackRefused s.tick now]⟩
      else ⟨.ok ⟨now, 0⟩, some ⟨now, 0⟩, []⟩

/-- Who issues: a node and the precision of its identifiers. -/
structure Issuer where
  node : Nat
  precision : Precision
  node_le : node ≤ TimeId.maxNode
deriving DecidableEq

namespace Issuer

def ofNode (node : Nat) (precision : Precision) : Except Refusal Issuer :=
  if h : node ≤ TimeId.maxNode then .ok ⟨node, precision, h⟩
  else .error (.workerTooLarge node TimeId.maxNode)

def standard : Issuer := ⟨0, .second, Nat.zero_le _⟩

def stamped (g : Issuer) (s : Stamp) : TimeId :=
  .ofFields g.precision s.tick s.sequence g.node

def update (g : Issuer) (ms : Nat) (last : State) : Update State TimeId :=
  (advance g.precision (g.precision.tickOfMillis ms) last).map g.stamped

def issue (g : Issuer) (c : Cell State) (reading : Clock.Reading) :
    Call State TimeId :=
  c.call reading g.update

end Issuer

end IdMint.TimeId
