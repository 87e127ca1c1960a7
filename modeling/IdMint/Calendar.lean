import IdMint.Decimal

/-! Civil time in the Gregorian calendar, counted from the start of 1970 without leap seconds. A
count of days is spent year by year and then month by month. -/
namespace IdMint.Calendar

/-- A leap year has 366 days. -/
def isLeap (year : Nat) : Bool := year % 4 = 0 && (year % 100 != 0 || year % 400 = 0)

def daysInYear (year : Nat) : Nat := if isLeap year then 366 else 365

theorem daysInYear_pos (year : Nat) : 0 < daysInYear year := by
  rw [daysInYear]
  split <;> decide

def monthLengths (year : Nat) : List Nat :=
  [31, if isLeap year then 29 else 28, 31, 30, 31, 30, 31, 31, 30, 31, 30, 31]

/-- The year that a day falls into and its place in that year, where day 0 is the first of `year`.
-/
def yearOfDay (year day : Nat) : Nat × Nat :=
  if day < daysInYear year then (year, day) else yearOfDay (year + 1) (day - daysInYear year)
termination_by day
decreasing_by have := daysInYear_pos year; omega

/-- The month that a day falls into and its place in that month, counting months from `month`. -/
def monthOfDay (month day : Nat) : List Nat → Nat × Nat
  | [] => (month, day)
  | length :: lengths =>
    if day < length then (month, day) else monthOfDay (month + 1) (day - length) lengths

def total : List Nat → Nat
  | [] => 0
  | n :: ns => n + total ns

/-- A date and a time of day. -/
structure DateTime where
  year : Nat
  month : Nat
  day : Nat
  hour : Nat
  minute : Nat
  second : Nat
  milli : Nat
deriving DecidableEq, Repr

namespace DateTime

/-- The civil time a number of milliseconds after the start of 1970. -/
def ofUnixMillis (ms : Nat) : DateTime :=
  let (year, dayOfYear) := yearOfDay 1970 (ms / 86400000)
  let (month, dayOfMonth) := monthOfDay 1 dayOfYear (monthLengths year)
  { year, month
    day := dayOfMonth + 1
    hour := ms / 3600000 % 24
    minute := ms / 60000 % 60
    second := ms / 1000 % 60
    milli := ms % 1000 }

def daysBeforeYear (year : Nat) : Nat :=
  total ((List.range (year - 1970)).map fun k => daysInYear (1970 + k))

def toUnixMillis (t : DateTime) : Nat :=
  let days := daysBeforeYear t.year + total ((monthLengths t.year).take (t.month - 1))
    + (t.day - 1)
  (((days * 24 + t.hour) * 60 + t.minute) * 60 + t.second) * 1000 + t.milli

/-- The date and the time of day to the second, as numbers of fixed width. -/
def parts (t : DateTime) : List String :=
  [Decimal.padded 4 t.year, Decimal.padded 2 t.month, Decimal.padded 2 t.day,
    Decimal.padded 2 t.hour, Decimal.padded 2 t.minute, Decimal.padded 2 t.second]

/-- The internet date and time in UTC; milliseconds are written only if there are any. -/
def internet (t : DateTime) : String :=
  Decimal.padded 4 t.year ++ "-" ++ Decimal.padded 2 t.month ++ "-" ++ Decimal.padded 2 t.day
    ++ "T" ++ Decimal.padded 2 t.hour ++ ":" ++ Decimal.padded 2 t.minute ++ ":"
    ++ Decimal.padded 2 t.second
    ++ (if t.milli = 0 then "" else "." ++ Decimal.padded 3 t.milli) ++ "+00:00"

end DateTime

end IdMint.Calendar
