import Assay.Decimal.Reading

namespace Assay

/-- A node of a value tree. A plain scalar is one without a type until somebody wants one. A table
keeps its entries in order, and its keys are nodes too. -/
inductive Value where
  | null
  | boolean (b : Bool)
  | integer (n : Int)
  | real (x : Float)
  | text (s : String)
  | plain (s : String)
  | moment (s : String)
  | list (items : List Value)
  | table (entries : List (Value × Value))
  deriving Inhabited

namespace Value

/-- The plain scalars that stand for nothing. -/
def isNullWord (s : String) : Bool :=
  s == "" || s == "~" || s == "null" || s == "Null" || s == "NULL"

def boolean? (s : String) : Option Bool :=
  if s = "true" ∨ s = "True" ∨ s = "TRUE" then some true
  else if s = "false" ∨ s = "False" ∨ s = "FALSE" then some false
  else none

def digitIn? (base : Nat) (c : Char) : Option Nat :=
  let value :=
    if '0' ≤ c ∧ c ≤ '9' then some (c.toNat - 0x30)
    else if 'a' ≤ c ∧ c ≤ 'f' then some (c.toNat - 0x57)
    else if 'A' ≤ c ∧ c ≤ 'F' then some (c.toNat - 0x37)
    else none
  value.filter (· < base)

def digitsIn? (base : Nat) (s : List Char) : Option Nat :=
  if s.isEmpty then none
  else s.foldl (fun n c => n.bind fun n => (digitIn? base c).map fun d => base * n + d) (some 0)

/-- Digits with a base in front of them, or decimal digits. -/
def magnitude? (s : List Char) : Option Nat :=
  match s with
  | '0' :: 'x' :: rest => digitsIn? 16 rest
  | '0' :: 'o' :: rest => digitsIn? 8 rest
  | '0' :: 'b' :: rest => digitsIn? 2 rest
  | s => digitsIn? 10 s

/-- Whether digits start with a zero that a number would not have. -/
def isPadded (s : List Char) : Bool :=
  let digits := match s with
    | '-' :: rest => rest
    | '+' :: rest => rest
    | s => s
  match digits with
  | '0' :: c :: rest => (c :: rest).all Decimal.isDigit
  | _ => false

def integer? (s : List Char) : Option Int :=
  if isPadded s then none
  else
    match s with
    | '-' :: rest => (magnitude? rest).map fun n => -(n : Int)
    | '+' :: rest => (magnitude? rest).map fun n => (n : Int)
    | s => (magnitude? s).map fun n => (n : Int)

/-- Whether a whole number fits 64 bits, with a sign or without one. -/
def isWord (n : Int) : Bool :=
  -(Decimal.signedLimit : Int) ≤ n && n < (Decimal.sizeLimit : Int)

def isDoubleWord (n : Int) : Bool :=
  -((Decimal.signedLimit * Decimal.sizeLimit : Nat) : Int) ≤ n &&
    n < ((Decimal.sizeLimit * Decimal.sizeLimit : Nat) : Int)

def real? (s : List Char) : Option Float :=
  let name := String.ofList s
  if name = ".inf" ∨ name = ".Inf" ∨ name = ".INF" ∨
      name = "+.inf" ∨ name = "+.Inf" ∨ name = "+.INF" then some Decimal.infinite
  else if name = "-.inf" ∨ name = "-.Inf" ∨ name = "-.INF" then some (-Decimal.infinite)
  else if name = ".nan" ∨ name = ".NaN" ∨ name = ".NAN" then some Decimal.notNumber
  else if isPadded s then none
  else (Decimal.real? s).filter Float.isFinite

/-- The typed form of a plain scalar. A whole number beyond 64 bits has none, unless it is so large
that it can only be a real number. -/
def typedScalar (s : String) : Option Value :=
  if isNullWord s then some .null
  else
    match boolean? s with
    | some b => some (.boolean b)
    | none =>
      match (integer? s.toList).filter isDoubleWord with
      | some n => if isWord n then some (.integer n) else none
      | none =>
        match real? s.toList with
        | some x => some (.real x)
        | none => some (.text s)

mutual

def typed : Value → Option Value
  | .plain s => typedScalar s
  | .list items => (typedItems items).map .list
  | .table entries => (typedEntries entries).map .table
  | .null => some .null
  | .boolean b => some (.boolean b)
  | .integer n => some (.integer n)
  | .real x => some (.real x)
  | .text s => some (.text s)
  | .moment s => some (.moment s)

def typedItems : List Value → Option (List Value)
  | [] => some []
  | v :: rest =>
    match typed v, typedItems rest with
    | some v, some rest => some (v :: rest)
    | _, _ => none

def typedEntries : List (Value × Value) → Option (List (Value × Value))
  | [] => some []
  | (k, v) :: rest =>
    match typed k, typed v, typedEntries rest with
    | some k, some v, some rest => some ((k, v) :: rest)
    | _, _, _ => none

end

/-- The text of a scalar where a text is wanted. -/
def text? : Value → Option String
  | .text s => some s
  | .plain s => some s
  | _ => none

def optionalText? : Value → Option (Option String)
  | .null => some none
  | .text s => some (some s)
  | .plain s => some (if isNullWord s then none else some s)
  | _ => none

def isNothing : Value → Bool
  | .null => true
  | .plain s => isNullWord s
  | _ => false

/-- The items of a list; a plain scalar without characters is an empty one. -/
def items? : Value → Option (List Value)
  | .list items => some items
  | .plain s => if s = "" then some [] else none
  | _ => none

def texts? (v : Value) : Option (List String) :=
  v.items?.bind fun items => items.mapM text?

/-- A real number; a whole number stands for one. -/
def number? : Value → Option Float
  | .real x => some x
  | .integer n => some (Decimal.ofInt n)
  | _ => none

def optionalNumber? (v : Value) : Option (Option Float) :=
  match v with
  | .null => some none
  | v => v.number?.map some

end Value

end Assay
