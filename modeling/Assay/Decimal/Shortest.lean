import Assay.Decimal.Binary

namespace Assay.Decimal

def digitCount (n : Nat) : Nat :=
  if n = 0 then 0 else (Nat.toDigits 10 n).length

/-- The reals that round to a positive number, as fractions with one common denominator: the number
itself and the two ends, which belong to the interval or not. -/
structure Interval where
  low : Nat
  value : Nat
  high : Nat
  denominator : Nat
  closed : Bool
  deriving Repr

/-- The reals that round to the number with a mantissa and an exponent. Below a power of two the
distance to the next number is half as large. -/
def Interval.around (mantissa : Nat) (exponent : Int) : Interval :=
  let below := if mantissa = 0x10000000000000 ∧ exponent ≠ -1074 then 1 else 2
  let scale := Nat.pow 2 (exponent - 2).toNat
  { low := (4 * mantissa - below) * scale
    value := 4 * mantissa * scale
    high := (4 * mantissa + 2) * scale
    denominator := Nat.pow 2 (2 - exponent).toNat
    closed := mantissa % 2 = 0 }

def Interval.inUnits (i : Interval) (power : Int) : Interval :=
  let up := Nat.pow 10 (-power).toNat
  { i with
    low := i.low * up
    value := i.value * up
    high := i.high * up
    denominator := i.denominator * Nat.pow 10 power.toNat }

def Interval.holds (i : Interval) (n : Nat) : Bool :=
  let n := n * i.denominator
  if i.closed then i.low ≤ n && n ≤ i.high else i.low < n && n < i.high

/-- The power of ten of the first digit of the value. -/
def Interval.leadingPower (i : Interval) : Int :=
  if i.denominator ≤ i.value then (digitCount (i.value / i.denominator) : Int) - 1
  else -(digitCount ((i.denominator + i.value - 1) / i.value - 1) : Int)

/-- The whole number in an interval that is nearest to its value, among the two next to the value;
of two equally near ones the larger. -/
def Interval.nearest? (i : Interval) : Option Nat :=
  let down := i.value / i.denominator
  let up := down + 1
  let low := i.holds down && 0 < down
  let high := i.holds up
  if low && high then
    if i.value - down * i.denominator < up * i.denominator - i.value then some down else some up
  else if low then some down
  else if high then some up
  else none

/-- A decimal: whole digits and the power of ten that they count. -/
structure Scaled where
  digits : Nat
  power : Int
  deriving DecidableEq, Repr

/-- Searches the grids of a growing number of digits. -/
def Interval.search (i : Interval) : Nat → Nat → Option Scaled
  | 0, _ => none
  | tries + 1, count =>
    let power := i.leadingPower - (count : Int) + 1
    match (i.inUnits power).nearest? with
    | some digits => some ⟨digits, power⟩
    | none => i.search tries (count + 1)

def Scaled.strip : Nat → Scaled → Scaled
  | 0, s => s
  | tries + 1, s =>
    if s.digits ≠ 0 ∧ s.digits % 10 = 0 then
      Scaled.strip tries ⟨s.digits / 10, s.power + 1⟩
    else s

/-- The most digits that a binary number of 64 bits needs to read back. -/
def mostDigits : Nat := 17

/-- The decimal of a positive number: of those that read back one with the fewest digits, of these
the nearest to the number, and of two equally near ones the larger. -/
def shortest (mantissa : Nat) (exponent : Int) : Scaled :=
  match (Interval.around mantissa exponent).search mostDigits 1 with
  | some s => s.strip mostDigits
  | none => ⟨0, 0⟩

example : shortest 7205759403792794 (-56) = ⟨1, -1⟩ := by decide +kernel
example : shortest 1 (-1074) = ⟨5, -324⟩ := by decide +kernel

end Assay.Decimal
