import Assay.Decimal.Shortest

namespace Assay.Decimal

/-- The digits of a decimal, and where its point stands counted from the first of them. -/
structure Placed where
  digits : List Char
  point : Int

def Scaled.placed (s : Scaled) : Placed :=
  let digits := Nat.toDigits 10 s.digits
  ⟨digits, (digits.length : Int) + s.power⟩

/-- Digits with the point among them, before them or after them. -/
def Placed.positional (p : Placed) : List Char :=
  if p.point ≤ 0 then '0' :: '.' :: List.replicate (-p.point).toNat '0' ++ p.digits
  else if p.digits.length ≤ p.point.toNat then
    p.digits ++ List.replicate (p.point.toNat - p.digits.length) '0'
  else p.digits.take p.point.toNat ++ '.' :: p.digits.drop p.point.toNat

def integer (n : Int) : List Char :=
  if n < 0 then '-' :: Nat.toDigits 10 n.natAbs else Nat.toDigits 10 n.toNat

/-- One digit, the point, the other digits, and the power of ten of the first. -/
def Placed.exponential (p : Placed) : List Char :=
  let mantissa := match p.digits with
    | [] => []
    | [d] => [d]
    | d :: rest => d :: '.' :: rest
  mantissa ++ 'e' :: integer (p.point - 1)

def withSign (negative : Bool) (s : List Char) : List Char :=
  if negative then '-' :: s else s

def write (zero : List Char) (magnitude : Placed → List Char) (x : Float) : String :=
  String.ofList <| match Binary.ofFloat x with
    | .nan => "NaN".toList
    | .infinite negative => withSign negative "inf".toList
    | .finite negative mantissa exponent =>
      if mantissa = 0 then withSign negative zero
      else withSign negative (magnitude (shortest mantissa exponent).placed)

def plain (x : Float) : String :=
  write ['0'] Placed.positional x

/-- The powers of ten of the first digit for which the exact text is positional. -/
def isPositional (power : Int) : Bool :=
  -4 ≤ power && power < 16

/-- The text that cannot be taken for a whole number: it has a point or an exponent. -/
def exact (x : Float) : String :=
  write "0.0".toList (fun p =>
    if isPositional (p.point - 1) then
      let s := p.positional
      if s.contains '.' then s else s ++ ".0".toList
    else p.exponential) x

def scientific (x : Float) : String :=
  write "0e0".toList Placed.exponential x

example : plain 1e21 = "1000000000000000000000" := by decide +kernel
example : exact 1e16 = "1e16" ∧ exact 0.0001 = "0.0001" ∧ exact (-2.0) = "-2.0" := by decide +kernel
example : scientific 0.5 = "5e-1" := by decide +kernel

end Assay.Decimal
