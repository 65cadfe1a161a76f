import Assay.Toml.Text

namespace Assay.Toml

/-- Digits with single underscores between them, and the characters they take. -/
def grouped? (digit : Char → Bool) (s : List Char) : Option (List Char × Nat) :=
  let run := s.takeWhile fun c => digit c || c == '_'
  let parts := run.splitOn '_'
  if run.isEmpty || parts.any List.isEmpty then none else some (parts.flatten, run.length)

def grouped (digit : Char → Bool) : Parse (List Char) := do
  match grouped? digit (← get) with
  | none => failure
  | some (digits, n) => advance n; pure digits

def sign : Parse (List Char) := do
  match ← peek with
  | some '+' => advance 1; pure ['+']
  | some '-' => advance 1; pure ['-']
  | _ => pure []

/-- Reads a whole decimal number without zeros in front of it. -/
def whole : Parse (List Char) := do
  let sign ← sign
  let digits ← grouped Decimal.isDigit
  if digits.head? = some '0' && digits.length ≠ 1 then failure
  else pure (sign ++ digits)

def exponent : Parse (List Char) := do
  advance 1
  let sign ← sign
  let digits ← grouped Decimal.isDigit
  pure ('e' :: sign ++ digits)

def atExponent : Parse Bool := do
  match ← peek with
  | some c => pure (c == 'e' || c == 'E')
  | none => pure false

/-- A real number that is not too large. -/
def real (s : List Char) : Parse Value :=
  match Decimal.real? s with
  | none => failure
  | some x => if x == Decimal.infinite then failure else pure (.real x)

def decimal : Parse Value := do
  let front ← whole
  if ← follows ['.'] then do
    advance 1
    let fraction ← grouped Decimal.isDigit
    let tail ← if ← atExponent then exponent else pure []
    real (front ++ '.' :: fraction ++ tail)
  else if ← atExponent then do
    let tail ← exponent
    real (front ++ tail)
  else
    match Decimal.integer? front with
    | none => failure
    | some n => pure (.integer n)

/-- Reads the digits of a number in a base behind its two characters. -/
def based (base : Nat) : Parse Value := do
  advance 2
  let digits ← grouped fun c => (Value.digitIn? base c).isSome
  match Value.digitsIn? base digits with
  | none => failure
  | some n => if n < Decimal.signedLimit then pure (.integer n) else failure

def special : Parse Value := do
  let sign ← sign
  let x ← if ← follows "inf".toList then pure Decimal.infinite
    else if ← follows "nan".toList then pure Decimal.notNumber
    else failure
  advance 3
  pure (.real (if sign = ['-'] then -x else x))

def fixed? (count : Nat) (s : List Char) : Option Nat :=
  if s.length < count then none else Decimal.digits? (s.take count)

/-- Reads a number of a fixed number of digits in a range. -/
def fixed (count low high : Nat) : Parse Nat := do
  match fixed? count (← get) with
  | none => failure
  | some n => if low ≤ n ∧ n ≤ high then do advance count; pure n else failure

def isLeap (year : Nat) : Bool :=
  year % 4 == 0 && (year % 100 != 0 || year % 400 == 0)

def daysOf (year month : Nat) : Nat :=
  if month = 2 then
    if isLeap year then 29 else 28
  else if month = 4 ∨ month = 6 ∨ month = 9 ∨ month = 11 then 30
  else 31

def atFixed (count : Nat) (mark : Char) : Parse Bool := do
  let s ← get
  pure ((fixed? count s).isSome && (s.drop count).head? == some mark)

def time : Parse Unit := do
  let _ ← fixed 2 0 23
  expect [':']
  let _ ← fixed 2 0 59
  expect [':']
  let _ ← fixed 2 0 60
  if ← follows ['.'] then do
    advance 1
    let digits := (← get).takeWhile Decimal.isDigit
    if digits.isEmpty then failure else advance digits.length
  else pure ()

/-- Reads the distance of a time from universal time, if it is given. -/
def offset : Parse Unit := do
  match ← peek with
  | some 'Z' => advance 1
  | some 'z' => advance 1
  | some c =>
    if c = '+' ∨ c = '-' then do
      advance 1
      let _ ← fixed 2 0 23
      expect [':']
      let _ ← fixed 2 0 59
    else pure ()
  | none => pure ()

/-- Whether a time of day follows behind one character. -/
def atTime : Parse Bool := do
  let s ← get
  match s with
  | c :: rest =>
    let hour := (fixed? 2 rest).map fun n => decide (n ≤ 23)
    pure ((c == 'T' || c == 't' || c == ' ') && hour == some true && (rest.drop 2).head? == some ':')
  | [] => pure false

def date : Parse Unit := do
  let year ← fixed 4 0 9999
  expect ['-']
  let month ← fixed 2 1 12
  expect ['-']
  let _ ← fixed 2 1 (daysOf year month)
  if ← atTime then do
    advance 1
    time
    offset
  else pure ()

/-- Reads a date or a time of day, and answers its text. -/
def moment (read : Parse Unit) : Parse Value := do
  let s ← get
  read
  let rest ← get
  pure (.moment (String.ofList (s.take (s.length - rest.length))))

def word (s : String) (v : Value) : Parse Value := do
  expect s.toList
  pure v

def number : Parse Value := do
  if ← atFixed 4 '-' then moment date
  else if ← atFixed 2 ':' then moment time
  else if ← follows "0x".toList then based 16
  else if ← follows "0o".toList then based 8
  else if ← follows "0b".toList then based 2
  else
    let s ← get
    match (match s with
      | '+' :: c :: _ => some c
      | '-' :: c :: _ => some c
      | c :: _ => some c
      | [] => none) with
    | some c => if c = 'i' ∨ c = 'n' then special else decimal
    | none => failure

end Assay.Toml
