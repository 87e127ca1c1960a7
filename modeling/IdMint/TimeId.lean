import IdMint.Calendar
import IdMint.Numerals
import IdMint.Precision

/-! Time-ordered identifiers of 64 bits. From the top: timestamp, sequence number, node, and a bit
for the precision, which decides how wide the first two are. -/
namespace IdMint

/-- Milliseconds from 1970 to the start of 2019, from which timestamps count. -/
def epochMillis : Nat := 1546300800000

/-- A time-ordered identifier. Every word is one. -/
structure TimeId where
  raw : UInt64
deriving DecidableEq, Repr

namespace TimeId

/-- Identifiers are ordered as their words are. -/
instance : LT TimeId := ⟨fun a b => a.raw < b.raw⟩

instance : LE TimeId := ⟨fun a b => a.raw ≤ b.raw⟩

instance (a b : TimeId) : Decidable (a < b) := inferInstanceAs (Decidable (a.raw < b.raw))

instance (a b : TimeId) : Decidable (a ≤ b) := inferInstanceAs (Decidable (a.raw ≤ b.raw))

def nodeBits : Nat := 10

def maxNode : Nat := (1 <<< nodeBits) - 1

def nodeShift : Nat := 1

def sequenceShift : Nat := 11

def nil : TimeId := ⟨0⟩

/-- Packs fields. Of a number wider than its field the low bits are kept. -/
def ofFields (p : Precision) (timestamp sequence node : Nat) : TimeId :=
  ⟨UInt64.ofNat ((timestamp % (1 <<< p.timestampBits)) <<< p.timestampShift
    + (sequence % (1 <<< p.sequenceBits)) <<< sequenceShift
    + (node % (1 <<< nodeBits)) <<< nodeShift + p.bit)⟩

variable (id : TimeId)

def precision : Precision := .ofBit id.raw.toNat

def timestamp : Nat := id.raw.toNat >>> id.precision.timestampShift

def sequence : Nat := (id.raw.toNat >>> sequenceShift) % (1 <<< id.precision.sequenceBits)

def node : Nat := (id.raw.toNat >>> nodeShift) % (1 <<< nodeBits)

/-- Milliseconds from the epoch to the tick. -/
def elapsedMillis : Nat := id.precision.millisOfTick id.timestamp

/-- Milliseconds from 1970 to the tick. -/
def unixMillis : Nat := epochMillis + id.elapsedMillis

def dateTime : Calendar.DateTime := .ofUnixMillis id.unixMillis

/-- The parts of the rendered form: date and time, milliseconds if the precision has them, then
sequence number, node and precision bit. -/
def renderParts : List String :=
  id.dateTime.parts
    ++ (match id.precision with
      | .second => []
      | .millisecond => [Decimal.padded 3 id.dateTime.milli])
    ++ [Decimal.text id.sequence, Decimal.text id.node, Decimal.text id.precision.bit]

def render : String := "-".intercalate id.renderParts

def decimal : String := Decimal.text id.raw.toNat

/-- All fields on one line. -/
def describe : String :=
  "SequentialId \x7b id: " ++ id.decimal ++ ", precision: " ++ id.precision.title
    ++ ", timestamp: " ++ Decimal.text id.timestamp ++ ", sequence: " ++ Decimal.text id.sequence
    ++ ", node_id: " ++ Decimal.text id.node ++ " \x7d"

def numeral (n : Numerals) : String := n.write id.raw

def ofNumeral (n : Numerals) (s : String) : Except Refusal TimeId :=
  (n.read s).map TimeId.mk

/-- Reads the decimal form. A text that is no number is blamed on its first byte that is no digit,
also when that byte is a leading sign. -/
def ofDecimal (s : String) : Except Refusal TimeId :=
  match Decimal.read s with
  | .ok word => .ok ⟨word⟩
  | .error .empty => .error .emptyInput
  | .error .overflow => .error .valueTooLarge
  | .error .notDigit =>
    let (byte, index) := (Decimal.firstNonDigit 0 (Text.bytes s)).getD (0, 0)
    .error (.invalidDigit byte index)

end TimeId

end IdMint
