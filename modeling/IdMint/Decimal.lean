import IdMint.Digits
import IdMint.Text.Bytes

/-! Decimal text of numbers, and reading 64-bit words from it. -/
namespace IdMint.Decimal

open Text

def digitChar (d : Nat) : Char := Char.ofNat (48 + d)

/-- The decimal text of a number, without leading zeros. -/
def text (n : Nat) : String := String.ofList ((Digits.ofNat 10 n).reverse.map digitChar)

/-- The decimal text of a number, with leading zeros up to a width. -/
def padded (width n : Nat) : String :=
  let digits := Digits.ofNat 10 n
  String.ofList ((digits ++ List.replicate (width - digits.length) 0).reverse.map digitChar)

def signed (k : Int) : String := (if k < 0 then "-" else "") ++ text k.natAbs

def digit (b : UInt8) : Nat := b.toNat - 48

inductive Fault where
  | empty
  | notDigit
  | overflow
deriving DecidableEq, Repr

/-- Reads on from a word already read. A byte that is no digit is noticed before an overflow at the
same place. -/
def readFrom (word : UInt64) : List UInt8 → Except Fault UInt64
  | [] => .ok word
  | b :: bs =>
    if isDigit b then
      if UInt64.size ≤ word.toNat * 10 + digit b then .error .overflow
      else readFrom (word * 10 + UInt64.ofNat (digit b)) bs
    else .error .notDigit

/-- Reads a word after an optional plus sign, which must not stand alone. -/
def readBytes : List UInt8 → Except Fault UInt64
  | [] => .error .empty
  | b :: bs => if b = 0x2b ∧ bs ≠ [] then readFrom 0 bs else readFrom 0 (b :: bs)

def read (s : String) : Except Fault UInt64 := readBytes (bytes s)

/-- The first byte that is no digit, and its offset, in bytes that start at offset `index`. -/
def firstNonDigit (index : Nat) : List UInt8 → Option (UInt8 × Nat)
  | [] => none
  | b :: bs => if isDigit b then firstNonDigit (index + 1) bs else some (b, index)

end IdMint.Decimal
