namespace Assay.Decimal

/-- What a number stands for. A finite number is its mantissa times two to its exponent. -/
inductive Binary where
  | nan
  | infinite (negative : Bool)
  | finite (negative : Bool) (mantissa : Nat) (exponent : Int)
  deriving DecidableEq, Repr

/-- A binary format: the bits of a mantissa with its leading one, the exponent of the least unit,
and the exponent field of the numbers that are not finite. -/
structure Format where
  precision : Nat
  least : Int
  top : Nat
  deriving DecidableEq, Repr

def Format.double : Format := ⟨53, -1074, 2047⟩

def Format.single : Format := ⟨24, -149, 255⟩

namespace Format

def fractions (f : Format) : Nat := Nat.pow 2 (f.precision - 1)

def signBit (f : Format) : Nat := (f.top + 1) * f.fractions

def decode (f : Format) (bits : Nat) : Binary :=
  let negative : Bool := f.signBit ≤ bits
  let field : Nat := bits / f.fractions % (f.top + 1)
  let fraction : Nat := bits % f.fractions
  if field = f.top then
    if fraction = 0 then .infinite negative else .nan
  else if field = 0 then .finite negative fraction f.least
  else .finite negative (f.fractions + fraction) ((field : Int) - 1 + f.least)

end Format

/-- The quotient rounded to the nearest whole number, a half to the even one. -/
def divideToEven (n d : Nat) : Nat :=
  let q := n / d
  let r := n % d
  if 2 * r < d then q else if d < 2 * r then q + 1 else q + q % 2

/-- A mantissa with an exponent, counted in units with another exponent and rounded to even. -/
def inUnits (mantissa : Nat) (exponent unit : Int) : Nat :=
  if unit ≤ exponent then mantissa * Nat.pow 2 (exponent - unit).toNat
  else divideToEven mantissa (Nat.pow 2 (unit - exponent).toNat)

def bitCount (n : Nat) : Nat :=
  if n = 0 then 0 else n.log2 + 1

namespace Format

/-- The fields of a magnitude: it is counted in the least unit in which the mantissa has room. A
mantissa rounded up to the next power of two carries into the exponent field by itself. -/
def encodeMagnitude (f : Format) (mantissa : Nat) (exponent : Int) : Nat :=
  if mantissa = 0 then 0
  else
    let unit := max ((bitCount mantissa : Int) + exponent - (f.precision : Int)) f.least
    min ((unit - f.least).toNat * f.fractions + Decimal.inUnits mantissa exponent unit)
      (f.top * f.fractions)

/-- The unit in which the quotient of two positive numbers fills the mantissa, or the least unit.
The bits of both numbers tell it up to one. -/
def unitOf (f : Format) (n d : Nat) : Int :=
  let unit := (bitCount n : Int) - (bitCount d : Int) - (f.precision : Int)
  let full := Nat.pow 2 f.precision * (d * Nat.pow 2 unit.toNat) ≤ n * Nat.pow 2 (-unit).toNat
  max (if full then unit + 1 else unit) f.least

/-- The fields of the number nearest to the quotient of two whole numbers, a half to the even one.
-/
def encodeRatio (f : Format) (n d : Nat) : Nat :=
  if n = 0 then 0
  else
    let unit := f.unitOf n d
    min ((unit - f.least).toNat * f.fractions +
        divideToEven (n * Nat.pow 2 (-unit).toNat) (d * Nat.pow 2 unit.toNat))
      (f.top * f.fractions)

/-- The number of this format nearest to a value, a half to the even one. -/
def encode (f : Format) : Binary → Nat
  | .nan => f.top * f.fractions + f.fractions / 2
  | .infinite negative => (if negative then f.signBit else 0) + f.top * f.fractions
  | .finite negative mantissa exponent =>
    (if negative then f.signBit else 0) + f.encodeMagnitude mantissa exponent

end Format

def Binary.ofFloat (x : Float) : Binary :=
  Format.double.decode x.toBits.toNat

def Binary.toFloat (b : Binary) : Float :=
  Float.ofBits (Format.double.encode b).toUInt64

/-- The magnitude of a finite value rounded to a whole number, a half going away from zero. -/
def nearestMagnitude (mantissa : Nat) (exponent : Int) : Nat :=
  if 0 ≤ exponent then mantissa * Nat.pow 2 exponent.toNat
  else (2 * mantissa + Nat.pow 2 (-exponent).toNat) / (2 * Nat.pow 2 (-exponent).toNat)

def wholeMagnitude (mantissa : Nat) (exponent : Int) : Nat :=
  if 0 ≤ exponent then mantissa * Nat.pow 2 exponent.toNat
  else mantissa / Nat.pow 2 (-exponent).toNat

def signed (negative : Bool) (magnitude : Nat) : Int :=
  if negative then -(magnitude : Int) else (magnitude : Int)

def clamp (low high n : Int) : Int :=
  if n < low then low else if high < n then high else n

/-- The whole number in a range that a number becomes: its fraction is dropped, a number beyond the
range becomes the end it is beyond, and what is no number becomes zero. -/
def truncateTo (low high : Int) (x : Float) : Int :=
  match Binary.ofFloat x with
  | .nan => 0
  | .infinite negative => if negative then low else high
  | .finite negative mantissa exponent =>
    clamp low high (signed negative (wholeMagnitude mantissa exponent))

/-- The nearest whole number in a range, a half going away from zero; a number beyond the range
becomes the end it is beyond, and what is no number becomes zero. -/
def nearestTo (low high : Int) (x : Float) : Int :=
  match Binary.ofFloat x with
  | .nan => 0
  | .infinite negative => if negative then low else high
  | .finite negative mantissa exponent =>
    clamp low high (signed negative (nearestMagnitude mantissa exponent))

/-- One more than the largest size: sizes and counts are numbers of 64 bits. -/
def sizeLimit : Nat := 0x10000000000000000

def signedLimit : Nat := 0x8000000000000000

def truncateToSize (x : Float) : Nat :=
  (truncateTo 0 ((sizeLimit : Int) - 1) x).toNat

def ofInt (n : Int) : Float :=
  Binary.toFloat (.finite (n < 0) n.natAbs 0)

theorem clamp_mem {low high n : Int} (h : low ≤ high) :
    low ≤ clamp low high n ∧ clamp low high n ≤ high := by
  unfold clamp
  split
  · omega
  · split <;> omega

example : Binary.ofFloat 1.0 = .finite false 0x10000000000000 (-52) := by decide +kernel
example : truncateTo (-128) 127 (-1.5) = -1 ∧ nearestTo (-128) 127 (-1.5) = -2 := by decide +kernel
example : Format.single.encode (.finite false 1 0) = 0x3F800000 := by decide +kernel
example : Format.single.encode (.finite true 0xFFFFFF 104) = 0xFF7FFFFF := by decide +kernel
example : Format.single.encode (.finite false 0x1FFFFFF 103) = 0x7F800000 := by decide +kernel
example : Format.single.encode (.finite false 3 (-151)) = 1 := by decide +kernel
example : Format.double.encodeRatio 1 10 = 0x3FB999999999999A := by decide +kernel

end Assay.Decimal
