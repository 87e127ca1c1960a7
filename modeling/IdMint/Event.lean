/-! Clocks, and what is worth noting in a log while identifiers are issued. An issuer reads
milliseconds since its epoch; a reading may fail, and a host clock before the epoch reads as zero.
-/
namespace IdMint

/-- A noteworthy moment, with the numbers that it shows. -/
inductive Event where
  /-- A clock behind the last tick was refused. -/
  | rollbackRefused (last now : Nat)
  /-- Every sequence number of a tick has been issued. -/
  | tickExhausted (tick : Nat)
  /-- Time has run past the timestamp field. -/
  | timestampsExhausted (elapsed max : Nat)
  /-- A clock behind the last short identifier was accepted. -/
  | rollbackAccepted (last now : Nat)
  /-- Time has run past what short identifiers carry. -/
  | shortTimesExhausted (elapsed : Nat)
  /-- The host clock is behind the epoch that time is counted from. -/
  | beforeEpoch (epochMillis : Nat)
deriving DecidableEq, Repr

namespace Event

def level : Event → String
  | rollbackRefused _ _ | rollbackAccepted _ _ | beforeEpoch _ => "WARN"
  | tickExhausted _ => "DEBUG"
  | timestampsExhausted _ _ | shortTimesExhausted _ => "ERROR"

def message : Event → String
  | rollbackRefused _ _ => "clock moved backwards, refusing to issue"
  | tickExhausted _ => "sequence exhausted"
  | timestampsExhausted _ _ => "timestamp budget exhausted, epoch must be redefined"
  | rollbackAccepted _ _ => "clock moved backwards"
  | shortTimesExhausted _ => "short id time budget exhausted, epoch must be redefined"
  | beforeEpoch _ => "system clock is before the configured epoch"

def fields : Event → List (String × Nat)
  | rollbackRefused last now | rollbackAccepted last now => [("last", last), ("now", now)]
  | tickExhausted tick => [("timestamp", tick)]
  | timestampsExhausted elapsed max => [("elapsed", elapsed), ("max", max)]
  | shortTimesExhausted elapsed => [("elapsed", elapsed)]
  | beforeEpoch epoch => [("epoch_ms", epoch)]

end Event

namespace Clock

inductive Reading where
  | millis (n : Nat)
  /-- The clock broke down, with the words that it left. -/
  | failed (words : String)
deriving DecidableEq, Repr

/-- Milliseconds since an epoch, given the host's milliseconds since 1970. -/
def sinceEpoch (epoch now : Nat) : Nat × List Event :=
  if epoch ≤ now then (min (now - epoch) (UInt64.size - 1), []) else (0, [.beforeEpoch epoch])

end Clock

end IdMint
