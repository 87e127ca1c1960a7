/-! The two precisions of a timestamp, and how wide each makes the fields of an identifier. -/
namespace IdMint

/-- The unit that timestamps count. -/
inductive Precision where
  | second
  | millisecond
deriving DecidableEq, Repr

namespace Precision

def ofBit (n : Nat) : Precision := if n % 2 = 0 then second else millisecond

def bit : Precision → Nat
  | second => 0
  | millisecond => 1

def sequenceBits : Precision → Nat
  | second => 21
  | millisecond => 11

def timestampBits : Precision → Nat
  | second => 32
  | millisecond => 42

def timestampShift (p : Precision) : Nat := 64 - p.timestampBits

def maxSequence (p : Precision) : Nat := (1 <<< p.sequenceBits) - 1

/-- The last tick that can be written. -/
def maxTimestamp (p : Precision) : Nat := (1 <<< p.timestampBits) - 1

def tickOfMillis : Precision → Nat → Nat
  | second, ms => ms / 1000
  | millisecond, ms => ms

/-- The milliseconds at which a tick starts, or the largest word if that is less. -/
def millisOfTick : Precision → Nat → Nat
  | second, t => min (t * 1000) (UInt64.size - 1)
  | millisecond, t => t

def name : Precision → String
  | second => "second"
  | millisecond => "millisecond"

/-- The name of a precision with a capital letter. -/
def title : Precision → String
  | second => "Second"
  | millisecond => "Millisecond"

def ofName? (s : String) : Option Precision :=
  if s = "second" then some second
  else if s = "millisecond" then some millisecond
  else none

end Precision

end IdMint
