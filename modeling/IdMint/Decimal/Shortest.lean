import IdMint.Digits

/-! The fewest decimal digits that tell a binary fraction from its neighbours. A positive number is
given as `m * 2 ^ q`; the reals that round to it form an interval, and the first power of ten, from
large to small, that has a multiple in the interval gives the digits. -/
namespace IdMint.Decimal

/-- A binary fraction `mantissa * 2 ^ exponent` and whether its lower neighbour is only half as far
away as the upper one. -/
structure Binary where
  mantissa : Nat
  exponent : Int
  narrowBelow : Bool
deriving DecidableEq, Repr

/-- The positive binary fraction of the 63 low bits of a double, zero apart. -/
def Binary.ofBits (bits : Nat) : Binary :=
  let field : Nat := (bits >>> 52) % (1 <<< 11)
  let low : Nat := bits % (1 <<< 52)
  if field = 0 then ⟨low, -1074, false⟩
  else ⟨(1 <<< 52) + low, (field : Int) - 1075, low = 0 && 1 < field⟩

/-- Digits, least significant first, and the power of ten of the least significant one. -/
structure Scaled where
  digits : List Nat
  exponent : Int
deriving DecidableEq, Repr

def power (base : Nat) (e : Int) : Nat × Nat :=
  if 0 ≤ e then (Nat.pow base e.toNat, 1) else (1, Nat.pow base (-e).toNat)

/-- The multiple of ten to the `e` in the interval that is nearest to the number, if there is one.
All is counted in quarters of a unit in the last place. -/
def Binary.nearestMultiple (b : Binary) (e : Int) : Option Nat :=
  let (binNum, binDen) := power 2 (b.exponent - 2)
  let (decNum, decDen) := power 10 e
  let low := 4 * b.mantissa - (if b.narrowBelow then 1 else 2)
  let high := 4 * b.mantissa + 2
  let scale := binNum * decDen
  let unit := decNum * binDen
  let value := 4 * b.mantissa * scale
  let inside := fun k : Nat =>
    if b.mantissa % 2 = 0 then low * scale ≤ k * unit && k * unit ≤ high * scale
    else low * scale < k * unit && k * unit < high * scale
  let below := value / unit
  let above := below + 1
  let distBelow := value - below * unit
  let distAbove := above * unit - value
  if inside below && 0 < below then
    if inside above && (distAbove < distBelow || (distAbove = distBelow && below % 2 = 1))
    then some above else some below
  else if inside above then some above
  else none

def Binary.search (b : Binary) (e : Int) : (steps : Nat) → Scaled
  | 0 => ⟨[0], 0⟩
  | steps + 1 =>
    match b.nearestMultiple e with
    | some k => ⟨Digits.ofNat 10 k, e⟩
    | none => b.search (e - 1) steps

/-- The fewest digits that round to the number, and of those the nearest. A double lies below ten to
the 310, and the units of the smallest are above ten to the -325. -/
def Binary.shortest (b : Binary) : Scaled := b.search 310 640

end IdMint.Decimal
