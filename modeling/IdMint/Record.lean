import IdMint.Json.Double
import IdMint.Json.Forms
import IdMint.Text.Quoted

/-! A record whose only field is an identifier in its form over an alphabet. -/
namespace IdMint

open Json

structure Record where
  eventId : TimeId
deriving DecidableEq, Repr

/-- What stands where something else belongs. -/
def Json.Value.kindText : Value → String
  | .null => "null"
  | .bool b => "boolean " ++ (if b then "`true`" else "`false`")
  | .number n =>
    match n.kind with
    | .integer k => "integer `" ++ Decimal.signed k ++ "`"
    | .double f => "floating point `" ++ doubleText f ++ "`"
  | .string s => "string " ++ Text.quoted (s.getD "")
  | .array _ => "sequence"
  | .object _ => "map"

namespace Record

inductive Fault where
  /-- The string of the field is no identifier. -/
  | undecodable (cause : Refusal)
  /-- The field is no string. -/
  | fieldKind (found : Value)
  /-- The value is neither an object nor an array. -/
  | recordKind (found : Value)
  /-- The object lacks the field. -/
  | missing
  /-- The array is empty. -/
  | tooShort
  /-- The array has more than the field. -/
  | tooLong (length : Nat)

def Fault.message : Fault → String
  | undecodable cause => cause.message
  | fieldKind v => "invalid type: " ++ v.kindText ++ ", expected a radix encoded id"
  | recordKind v => "invalid type: " ++ v.kindText ++ ", expected struct Row"
  | missing => "missing field `event_id`"
  | tooShort => "invalid length 0, expected struct Row with 1 element"
  | tooLong n => "invalid length " ++ Decimal.text n ++ ", expected fewer elements in array"

variable (n : Numerals)

def toJson (r : Record) : Value := .record [("event_id", .text (r.eventId.numeral n))]

def fieldId (v : Value) : Except Fault TimeId :=
  match v with
  | .string (some s) =>
    match TimeId.ofNumeral n s with
    | .ok id => .ok id
    | .error cause => .error (.undecodable cause)
  | v => .error (.fieldKind v)

/-- The record in a value that is at hand as a whole: of members of one name the last counts, other
members are passed over, and an array is judged by its first item before its length. -/
def ofValue (v : Value) : Except Fault Record :=
  match v with
  | .object members =>
    match (members.filter fun m => m.1 == some "event_id").getLast? with
    | some (_, v) => (fieldId n v).map Record.mk
    | none => .error .missing
  | .array [] => .error .tooShort
  | .array (v :: rest) => do
    let id ← fieldId n v
    if rest = [] then return ⟨id⟩ else throw (.tooLong (rest.length + 1))
  | v => .error (.recordKind v)

/-- The record in text as it is read: the field must occur once, or be the only item of an array. -/
def ofJson? (v : Value) : Option Record := do
  match ← fields? ["event_id"] v with
  | [some v] => (fieldId n v).toOption.map Record.mk
  | _ => none

end Record

end IdMint
