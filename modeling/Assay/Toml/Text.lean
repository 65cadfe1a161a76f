import Assay.Yaml.Scalar

namespace Assay.Toml

/-- A step that reads from the front of a text. -/
abbrev Parse := StateT (List Char) Option

def peek : Parse (Option Char) := do
  pure (← get).head?

def advance (count : Nat) : Parse Unit :=
  modify fun s => s.drop count

def follows (mark : List Char) : Parse Bool := do
  pure (mark.isPrefixOf (← get))

def expect (mark : List Char) : Parse Unit := do
  if ← follows mark then advance mark.length else failure

def isBlank (c : Char) : Bool :=
  c == ' ' || c == '\t'

def blanks : Parse Unit :=
  modify fun s => s.dropWhile isBlank

/-- The number of characters of the line break that a text starts with, or zero. -/
def breakLength : List Char → Nat
  | '\n' :: _ => 1
  | '\r' :: '\n' :: _ => 2
  | _ => 0

/-- A character that may stand in a comment or a string: no control but the tab. -/
def isPrinted (c : Char) : Bool :=
  c == '\t' || (0x20 ≤ c.toNat && c.toNat != 0x7F)

/-- The character that a letter means behind a backslash, if it means one by itself. -/
def escaped? (c : Char) : Option Char :=
  ([('b', '\x08'), ('t', '\t'), ('n', '\n'), ('f', '\x0c'), ('r', '\r'), ('"', '"'),
    ('\\', '\\')]).lookup c

/-- The number of digits of a code point behind a letter. -/
def codeLength? (c : Char) : Option Nat :=
  if c = 'u' then some 4 else if c = 'U' then some 8 else none

def escape : Parse Char := do
  match ← get with
  | [] => failure
  | c :: rest =>
    match codeLength? c with
    | some n =>
      match (if rest.length < n then none else Yaml.codePoint? (rest.take n)) with
      | some x => advance (n + 1); pure x
      | none => failure
    | none =>
      match escaped? c with
      | some x => advance 1; pure x
      | none => failure

/-- Reads a string on one line behind its opening quote. -/
def lineFrom (quote : Char) : Nat → List Char → Parse String
  | 0, _ => failure
  | fuel + 1, sofar => do
    match ← peek with
    | none => failure
    | some c =>
      if c = quote then do advance 1; pure (String.ofList sofar.reverse)
      else if c = '\\' ∧ quote = '"' then do
        advance 1
        let x ← escape
        lineFrom quote fuel (x :: sofar)
      else if isPrinted c then do advance 1; lineFrom quote fuel (c :: sofar)
      else failure

def space : Nat → Parse Unit
  | 0 => pure ()
  | fuel + 1 => do
    blanks
    let n := breakLength (← get)
    if n = 0 then pure () else do advance n; space fuel

def endsLine : Parse Bool := do
  pure (breakLength ((← get).dropWhile isBlank) != 0)

/-- Reads a string on several lines behind its opening quotes. Up to two quotes may stand in front
of the closing ones; a backslash at the end of a line joins the lines. -/
def linesFrom (quote : Char) : Nat → List Char → Parse String
  | 0, _ => failure
  | fuel + 1, sofar => do
    let s ← get
    match s with
    | [] => failure
    | c :: rest =>
      let quotes := min 5 (s.takeWhile (· == quote)).length
      let n := breakLength s
      if 3 ≤ quotes then do
        advance quotes
        pure (String.ofList (List.replicate (quotes - 3) quote ++ sofar).reverse)
      else if n ≠ 0 then do advance n; linesFrom quote fuel ('\n' :: sofar)
      else if c = '\\' ∧ quote = '"' then do
        advance 1
        if ← endsLine then do
          space (rest.length + 1)
          linesFrom quote fuel sofar
        else
          let x ← escape
          linesFrom quote fuel (x :: sofar)
      else if isPrinted c then do advance 1; linesFrom quote fuel (c :: sofar)
      else failure

def line (quote : Char) : Parse String := do
  advance 1
  lineFrom quote ((← get).length + 1) []

def string (quote : Char) : Parse String := do
  if ← follows [quote, quote, quote] then do
    advance 3
    advance (breakLength (← get))
    linesFrom quote ((← get).length + 1) []
  else line quote

/-- A character of a key without quotes. -/
def isKeyChar (c : Char) : Bool :=
  ('A' ≤ c && c ≤ 'Z') || ('a' ≤ c && c ≤ 'z') || ('0' ≤ c && c ≤ '9') || c == '_' || c == '-'

def keyPart : Parse String := do
  match ← peek with
  | some '"' => line '"'
  | some '\'' => line '\''
  | _ =>
    let name := (← get).takeWhile isKeyChar
    if name.isEmpty then failure
    else do advance name.length; pure (String.ofList name)

def keyParts : Nat → Parse (List String)
  | 0 => failure
  | fuel + 1 => do
    blanks
    let part ← keyPart
    blanks
    if ← follows ['.'] then do
      advance 1
      pure (part :: (← keyParts fuel))
    else pure [part]

/-- The deepest nesting of keys and values. -/
def deepest : Nat := 79

def key : Parse (List String) :=
  keyParts deepest

end Assay.Toml
