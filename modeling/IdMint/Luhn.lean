import IdMint.Decimal
import IdMint.Refusal

/-! Check digits that make a weighted digit sum a multiple of ten. Counting from the right of the
payload, every other digit is doubled, starting with the first, and a doubled digit counts with its
digit sum. -/
namespace IdMint.Luhn

open Text

def weight (doubled : Bool) (d : Nat) : Nat :=
  if doubled then (if d * 2 > 9 then d * 2 - 9 else d * 2) else d

/-- The weighted sum of digits, least significant first, kept to 32 bits. -/
def sum (doubled : Bool) : List Nat → UInt32
  | [] => 0
  | d :: ds => UInt32.ofNat (weight doubled d) + sum (!doubled) ds

def checkDigits (ds : List Nat) : Nat := (10 - (sum true ds).toNat % 10) % 10

/-- The digits of a number, least significant first, taken off as long as something of it is left.
Zero has none. -/
def digitsOf (rest : Nat) : List Nat :=
  if _ : rest = 0 then [] else rest % 10 :: digitsOf (rest / 10)
termination_by rest
decreasing_by exact Nat.div_lt_self (by omega) (by decide)

def checkDigit (payload : UInt64) : Nat := checkDigits (digitsOf payload.toNat)

/-- The check digit of decimal text of any length. -/
def checkDigitText (payload : String) : Except Refusal Nat :=
  if payload = "" then .error .emptyInput
  else
    match Decimal.firstNonDigit 0 (bytes payload) with
    | some (byte, index) => .error (.invalidDigit byte index)
    | none => .ok (checkDigits ((bytes payload).reverse.map Decimal.digit))

def isValid (n : UInt64) : Bool := checkDigit (n / 10) == n.toNat % 10

/-- The text is all digits, and the last is the check digit of the rest. -/
def isValidText (s : String) : Bool :=
  match (bytes s).reverse with
  | [] => false
  | last :: payload =>
    isDigit last && payload.all isDigit &&
      checkDigits (payload.map Decimal.digit) == Decimal.digit last

def word? (n : Nat) : Option UInt64 := if n < UInt64.size then some (UInt64.ofNat n) else none

/-- The word with its check digit at the end, if there is room first for a digit and then for this
one. -/
def append (payload : UInt64) : Option UInt64 :=
  (word? (payload.toNat * 10)).bind fun tens => word? (tens.toNat + checkDigit payload)

end IdMint.Luhn
