import Assay.Text.Search
import Assay.Decimal.Binary

namespace Assay.Decimal

open Assay.Text

def digit? (c : Char) : Option Nat :=
  if '0' ≤ c ∧ c ≤ '9' then some (c.toNat - 0x30) else none

/-- The number that a run of digits stands for after the digits read before it. -/
def digitsFrom : Nat → List Char → Option Nat
  | n, [] => some n
  | n, c :: rest => (digit? c).bind fun d => digitsFrom (10 * n + d) rest

def digits? (s : List Char) : Option Nat :=
  if s.isEmpty then none else digitsFrom 0 s

def size? (s : List Char) : Option Nat :=
  let magnitude := match s with
    | '+' :: rest => digits? rest
    | s => digits? s
  magnitude.filter (· < sizeLimit)

/-- The integer of 64 bits that a text stands for: a sign or none, then digits. -/
def integer? (s : List Char) : Option Int :=
  let value : Option Int := match s with
    | '-' :: rest => (digits? rest).map fun n => -(n : Int)
    | '+' :: rest => (digits? rest).map fun n => (n : Int)
    | s => (digits? s).map fun n => (n : Int)
  value.filter fun n => -(signedLimit : Int) ≤ n && n < (signedLimit : Int)

def isDigit (c : Char) : Bool :=
  (digit? c).isSome

def infinite : Float := Float.ofBits 0x7FF0000000000000

def notNumber : Float := Float.ofBits 0x7FF8000000000000

/-- The number nearest to whole digits times a power of ten. Beyond the powers of ten that numbers
of 64 bits reach, the digits no longer matter. -/
def ofScaled (digits : Nat) (power : Int) : Float :=
  let leading := ((Nat.toDigits 10 digits).length : Int) + power
  if digits = 0 ∨ leading < -400 then 0
  else if 400 < leading then infinite
  else
    Float.ofBits (Format.double.encodeRatio (digits * Nat.pow 10 power.toNat)
      (Nat.pow 10 (-power).toNat)).toUInt64

def exponent? (s : List Char) : Option Int :=
  match s with
  | '-' :: rest => (digits? rest).map fun n => -(n : Int)
  | '+' :: rest => (digits? rest).map fun n => (n : Int)
  | s => (digits? s).map fun n => (n : Int)

/-- Digits with at most one point and a digit on at least one side of it, then an exponent or none.
-/
def magnitude? (s : List Char) : Option Float :=
  let whole := s.takeWhile isDigit
  let rest := s.dropWhile isDigit
  let fraction := match rest with
    | '.' :: rest => rest.takeWhile isDigit
    | _ => []
  let rest := match rest with
    | '.' :: rest => rest.dropWhile isDigit
    | rest => rest
  let exponent := match rest with
    | [] => some 0
    | c :: rest => if c = 'e' ∨ c = 'E' then exponent? rest else none
  match digits? (whole ++ fraction), exponent with
  | some digits, some exponent => some (ofScaled digits (exponent - fraction.length))
  | _, _ => none

/-- A number without a sign, or one of the names of the numbers that are not finite. -/
def unsigned? (s : List Char) : Option Float :=
  let name := lowerAscii s
  if name = "inf".toList ∨ name = "infinity".toList then some infinite
  else if name = "nan".toList then some notNumber
  else magnitude? s

def real? (s : List Char) : Option Float :=
  match s with
  | '-' :: rest => (unsigned? rest).map fun x => -x
  | '+' :: rest => unsigned? rest
  | s => unsigned? s

def ofString? (s : String) : Option Float :=
  real? s.toList

example : size? "+02".toList = some 2 ∧ size? "-2".toList = none := by decide
example : integer? "-5".toList = some (-5) := by decide
example : (real? ".5e1".toList).map Float.toBits = some (5.0 : Float).toBits := by decide +kernel
example : (real? ".".toList).isNone = true := by decide +kernel

end Assay.Decimal
