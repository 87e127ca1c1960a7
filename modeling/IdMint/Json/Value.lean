import IdMint.Digits

/-! JSON values as they are written: members in order, numbers by their digits, and strings whose
escapes may name half of a surrogate pair. -/
namespace IdMint.Json

structure Number where
  /-- Whether a minus sign is written. -/
  negative : Bool
  /-- The digits before the point, most significant first. -/
  whole : List Nat
  /-- The digits after the point; none when there is no point. -/
  fraction : List Nat
  /-- The number after `e`, if there is one. -/
  exponent : Option Int
deriving DecidableEq, Repr

inductive Value where
  | null
  | bool (b : Bool)
  | number (n : Number)
  /-- A string, or nothing if an escape in it names an unpaired surrogate. -/
  | string (s : Option String)
  | array (items : List Value)
  | object (members : List (Option String × Value))
deriving Repr

namespace Number

/-- The number that decimal digits written most significant first stand for. -/
def ofDigits (ds : List Nat) : Nat := ds.foldl (fun n d => 10 * n + d) 0

/-- The natural number that a literal without sign, point and exponent stands for. -/
def natural? (n : Number) : Option Nat :=
  if n.negative = false ∧ n.fraction = [] ∧ n.exponent = none then some (ofDigits n.whole)
  else none

def ofNat (n : Nat) : Number := ⟨false, (Digits.ofNat 10 n).reverse, [], none⟩

end Number

namespace Value

def text (s : String) : Value := .string (some s)

def nat (n : Nat) : Value := .number (.ofNat n)

def record (members : List (String × Value)) : Value :=
  .object (members.map fun m => (some m.1, m.2))

end Value

end IdMint.Json
