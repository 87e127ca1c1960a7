import IdMint.Decimal.Shortest
import IdMint.Json.Writer

/-! Numbers that are no plain integers are taken as doubles: the digits that fit a word are scaled
by a power of ten. Written back they have the fewest digits that read as the same double. -/
namespace IdMint.Json

/-- Digits collected into a word, and the power of ten that scales it. -/
structure Significand where
  word : Nat
  exponent : Int
  /-- No digit fits any more. -/
  full : Bool

/-- One more digit before the point. The first that does not fit closes the word, and from there on
each digit only scales. -/
def Significand.addWhole (s : Significand) (d : Nat) : Significand :=
  if s.full || UInt64.size ≤ s.word * 10 + d then
    { s with exponent := s.exponent + 1, full := true }
  else { s with word := s.word * 10 + d }

/-- One more digit after the point. The first that does not fit ends the number. -/
def Significand.addFraction (s : Significand) (d : Nat) : Significand :=
  if s.full || UInt64.size ≤ s.word * 10 + d then { s with full := true }
  else { s with word := s.word * 10 + d, exponent := s.exponent - 1 }

def Number.significand (n : Number) : Significand :=
  let whole := n.whole.foldl Significand.addWhole ⟨0, 0, false⟩
  let all := n.fraction.foldl Significand.addFraction { whole with full := false }
  { all with exponent := all.exponent + n.exponent.getD 0 }

/-- Ten to a power, correctly rounded. -/
def tenTo (e : Nat) : Float := Float.ofScientific 1 false e

/-- Scales down by steps of at most 308 decimal places, as many as the double can take at once. -/
def scaleDown (f : Float) (places : Nat) : (steps : Nat) → Float
  | 0 => f
  | steps + 1 =>
    if places ≤ 308 then f / tenTo places
    else if f == 0 then f
    else scaleDown (f / tenTo 308) (places - 308) steps

/-- The double of a literal. Enough steps are allowed to reach zero from any word. -/
def Number.toDouble (n : Number) : Float :=
  let s := n.significand
  let word := (UInt64.ofNat s.word).toFloat
  let f :=
    if 0 ≤ s.exponent then
      if word == 0 then word else word * tenTo (min s.exponent.toNat 400)
    else scaleDown word (-s.exponent).toNat 4
  if n.negative then -f else f

def exponentText (e : Int) : String :=
  (if e < 0 then "e-" else "e+") ++ Decimal.text e.natAbs

/-- The text of digits and an exponent: positional where the point falls no further than 16 digits
right and 4 zeros left of the digits, otherwise with an exponent, which always has a sign. -/
def scaledText (s : Decimal.Scaled) : String :=
  let ds := s.digits.reverse
  let point := s.exponent + ds.length
  if 0 ≤ s.exponent ∧ point ≤ 16 then
    digitText (ds ++ List.replicate s.exponent.toNat 0) ++ ".0"
  else if 0 < point ∧ point ≤ 16 then
    digitText (ds.take point.toNat) ++ "." ++ digitText (ds.drop point.toNat)
  else if -5 < point ∧ point ≤ 0 then
    "0." ++ digitText (List.replicate (-point).toNat 0 ++ ds)
  else
    match ds with
    | [d] => digitText [d] ++ exponentText (point - 1)
    | ds => digitText (ds.take 1) ++ "." ++ digitText (ds.drop 1) ++ exponentText (point - 1)

def doubleText (f : Float) : String :=
  let bits := f.toBits.toNat
  let sign := if 1 <<< 63 ≤ bits then "-" else ""
  let rest := bits % (1 <<< 63)
  if rest = 0 then sign ++ "0.0" else sign ++ scaledText (Decimal.Binary.ofBits rest).shortest

inductive Kind where
  | integer (n : Int)
  | double (f : Float)

/-- A plain integer counts as one as long as it fits 64 bits, without sign above zero and with sign
below; all else is a double. -/
def Number.kind (n : Number) : Kind :=
  let k := Number.ofDigits n.whole
  if n.fraction = [] ∧ n.exponent = none then
    if n.negative then
      if 0 < k ∧ k ≤ 1 <<< 63 then .integer (-(k : Int)) else .double n.toDouble
    else if k < UInt64.size then .integer k else .double n.toDouble
  else .double n.toDouble

end IdMint.Json
