import Assay.Yaml.Scalar

namespace Assay.Yaml

inductive Token where
  | documentStart
  | documentEnd
  | version (major minor : Nat)
  | tagDirective
  | blockSequenceStart
  | blockMappingStart
  | blockEnd
  | sequenceStart
  | sequenceEnd
  | mappingStart
  | mappingEnd
  | blockItem
  | comma
  | key
  | value
  | alias (name : String)
  | anchor (name : String)
  | tag
  | plain (s : String)
  | text (s : String)
  deriving DecidableEq, Repr

/-- A place where a key may have started: the number of tokens in front of it, its position, and
whether only a key can stand there. -/
structure KeyStart where
  place : Nat
  line : Nat
  column : Nat
  index : Nat
  required : Bool

/-- A document that has been scanned in part: the tokens so far, the columns of the open block
collections, innermost first, whether a key may start here, and the key starts of the open flow
collections and the block around them, innermost first. -/
structure Scanner where
  cursor : Cursor
  tokens : Array Token
  indents : List Nat
  keyAllowed : Bool
  block : Option KeyStart
  flows : List (Option KeyStart)

namespace Scanner

def ofText (s : List Char) : Scanner :=
  ⟨Cursor.ofText s, #[], [], true, none, []⟩

def inFlow (s : Scanner) : Bool :=
  !s.flows.isEmpty

def keyStart (s : Scanner) : Option KeyStart :=
  match s.flows with
  | [] => s.block
  | start :: _ => start

def withKeyStart (s : Scanner) (start : Option KeyStart) : Scanner :=
  match s.flows with
  | [] => { s with block := start }
  | _ :: rest => { s with flows := start :: rest }

/-- Gives up the key start of the innermost collection; one where a key has to stand is missed. -/
def dropKey (s : Scanner) : Option Scanner :=
  match s.keyStart with
  | none => some s
  | some start => if start.required then none else some (s.withKeyStart none)

/-- Remembers that a key may start here. -/
def saveKey (s : Scanner) : Option Scanner :=
  if !s.keyAllowed then some s
  else
    s.dropKey.map fun s =>
      s.withKeyStart (some
        { place := s.tokens.size
          line := s.cursor.line
          column := s.cursor.column
          index := s.cursor.index
          required := !s.inFlow && s.indents.head? == some s.cursor.column })

/-- The longest distance between the start of a key and its colon. -/
def longestKey : Nat := 1024

/-- Whether a key that started somewhere can no longer end here. -/
def isStale (s : Scanner) (start : KeyStart) : Bool :=
  start.line < s.cursor.line || start.index + longestKey < s.cursor.index

/-- A key start unless it is stale; one where a key has to stand is missed. -/
def freshKey (s : Scanner) (start : Option KeyStart) : Option (Option KeyStart) :=
  match start with
  | none => some none
  | some k =>
    if s.isStale k then
      if k.required then none else some none
    else some (some k)

def dropStale (s : Scanner) : Option Scanner :=
  match s.freshKey s.block, s.flows.mapM s.freshKey with
  | some block, some flows => some { s with block := block, flows := flows }
  | _, _ => none

/-- Closes the block collections that start right of a column. -/
def unroll (s : Scanner) (holds : Nat → Bool) : Scanner :=
  if s.inFlow then s
  else
    let closed := (s.indents.takeWhile fun column => !holds column).length
    { s with
      indents := s.indents.drop closed
      tokens := s.tokens ++ Array.replicate closed Token.blockEnd }

/-- Opens a block collection at a column, unless it is open already; its token is put at a place. -/
def roll (s : Scanner) (column place : Nat) (token : Token) : Scanner :=
  let isOpen := match s.indents with
    | [] => false
    | inner :: _ => column ≤ inner
  if s.inFlow || isOpen then s
  else
    { s with
      indents := column :: s.indents
      tokens := s.tokens.insertIdxIfInBounds place token }

def push (s : Scanner) (token : Token) : Scanner :=
  { s with tokens := s.tokens.push token }

def skip (s : Scanner) (count : Nat) : Scanner :=
  { s with cursor := s.cursor.skip count }

/-- The scanner with another answer to whether a key may start. -/
def allowKey (s : Scanner) (allowed : Bool) : Scanner :=
  { s with keyAllowed := allowed }

/-- Goes over blanks, comments and line breaks to the next token. -/
def toToken : Nat → Scanner → Scanner
  | 0, s => s
  | fuel + 1, s =>
    let c := s.cursor
    let c := if c.column = 0 && c.rest.head? = some byteOrderMark then c.skip 1 else c
    let c := c.skipWhile fun x => x == ' ' || ((s.inFlow || !s.keyAllowed) && x == '\t')
    let c := if c.rest.head? = some '#' then c.skipLine else c
    if !c.rest.isEmpty && atLineEnd c.rest then
      toToken fuel { s with cursor := c.skipBreak, keyAllowed := s.keyAllowed || !s.inFlow }
    else { s with cursor := c }

def openFlow (s : Scanner) (token : Token) : Option Scanner :=
  s.saveKey.map fun s => (({ s with flows := none :: s.flows }.allowKey true).push token).skip 1

def closeFlow (s : Scanner) (token : Token) : Option Scanner :=
  s.dropKey.map fun s => (({ s with flows := s.flows.drop 1 }.allowKey false).push token).skip 1

def item (s : Scanner) : Option Scanner :=
  if !s.inFlow && !s.keyAllowed then none
  else
    let s := s.roll s.cursor.column s.tokens.size .blockSequenceStart
    s.dropKey.map fun s => ((s.allowKey true).push .blockItem).skip 1

def explicitKey (s : Scanner) : Option Scanner :=
  if !s.inFlow && !s.keyAllowed then none
  else
    let s := s.roll s.cursor.column s.tokens.size .blockMappingStart
    s.dropKey.map fun s => ((s.allowKey !s.inFlow).push .key).skip 1

def colon (s : Scanner) : Option Scanner :=
  match s.keyStart with
  | some start =>
    let s := { s with tokens := s.tokens.insertIdxIfInBounds start.place .key }
    let s := s.roll start.column start.place .blockMappingStart
    some ((((s.withKeyStart none).allowKey false).push .value).skip 1)
  | none =>
    if !s.inFlow && !s.keyAllowed then none
    else
      let s := s.roll s.cursor.column s.tokens.size .blockMappingStart
      some (((s.allowKey !s.inFlow).push .value).skip 1)

def isNameChar (c : Char) : Bool :=
  ('0' ≤ c && c ≤ '9') || ('A' ≤ c && c ≤ 'Z') || ('a' ≤ c && c ≤ 'z') || c == '_' || c == '-'

def named (s : Scanner) (token : String → Token) : Option Scanner :=
  match s.saveKey with
  | none => none
  | some s =>
    let name := (s.cursor.rest.drop 1).takeWhile isNameChar
    let rest := s.cursor.rest.drop (1 + name.length)
    let ends := atGap rest || (rest.head?.map fun c => "?:,]\x7d%@`".toList.contains c).getD false
    if name.isEmpty || !ends then none
    else some (((s.allowKey false).push (token (String.ofList name))).skip (1 + name.length))

def tagged (s : Scanner) : Option Scanner :=
  s.saveKey.map fun s =>
    let name := s.cursor.rest.takeWhile fun c =>
      !(isSpace c || isBreak c || (s.inFlow && isFlowMark c))
    ((s.allowKey false).push .tag).skip name.length

def pushScalar (s : Scanner) (token : String → Token) (scanned : Option Scanned) :
    Option Scanner :=
  scanned.map fun r =>
    { (s.push (token (String.ofList r.text))) with
      cursor := r.next
      keyAllowed := s.keyAllowed || r.endsLine }

def quotedScalar (s : Scanner) (single : Bool) : Option Scanner :=
  s.saveKey.bind fun s => (s.allowKey false).pushScalar .text (scanQuoted single s.cursor)

def blockScalar (s : Scanner) (literal : Bool) : Option Scanner :=
  s.dropKey.bind fun s =>
    (s.allowKey true).pushScalar .text (scanBlock literal s.indents.head? s.cursor)

def plainScalar (s : Scanner) : Option Scanner :=
  let least := match s.indents with
    | [] => 0
    | column :: _ => column + 1
  s.saveKey.bind fun s =>
    (s.allowKey false).pushScalar .plain (scanPlain s.inFlow least s.cursor)

def documentMark (s : Scanner) (token : Token) : Option Scanner :=
  (s.unroll fun _ => false).dropKey.map fun s => ((s.allowKey false).push token).skip 3

def directive? (line : List Char) : Option Token :=
  let line := line.takeWhile (· ≠ '#')
  match (Text.words (line.drop 1)).map String.ofList with
  | ["YAML", version] =>
    match Text.cutAt '.' version.toList with
    | some (major, minor) =>
      match Decimal.digits? major, Decimal.digits? minor with
      | some major, some minor => some (.version major minor)
      | _, _ => none
    | none => none
  | ["TAG", _, _] => some .tagDirective
  | _ => none

def directive (s : Scanner) : Option Scanner :=
  (s.unroll fun _ => false).dropKey.bind fun s =>
    let line := s.cursor.rest.takeWhile fun c => !isBreak c
    (directive? line).map fun token => ((s.allowKey false).push token).skip line.length

/-- Whether a plain scalar can start at a text. -/
def startsPlain (flow : Bool) (s : List Char) : Bool :=
  match s with
  | [] => false
  | c :: rest =>
    let isMark := "-?:,[]\x7b\x7d#&*!|>'\"%@`".toList.contains c
    (!isMark && !isSpace c && !isBreak c) ||
      (c == '-' && !(rest.head?.map isSpace).getD false) ||
      (!flow && (c == '?' || c == ':') && !atGap rest)

def readToken (s : Scanner) (c : Char) (rest : List Char) : Option Scanner :=
  if s.cursor.column = 0 && c == '%' then s.directive
  else if s.cursor.atMark ['-', '-', '-'] then s.documentMark .documentStart
  else if s.cursor.atMark ['.', '.', '.'] then s.documentMark .documentEnd
  else if c == '[' then s.openFlow .sequenceStart
  else if c == '\x7b' then s.openFlow .mappingStart
  else if c == ']' then s.closeFlow .sequenceEnd
  else if c == '\x7d' then s.closeFlow .mappingEnd
  else if c == ',' then s.dropKey.map fun s => ((s.allowKey true).push .comma).skip 1
  else if c == '-' && atGap rest then s.item
  else if c == '?' && (s.inFlow || atGap rest) then s.explicitKey
  else if c == ':' && (s.inFlow || atGap rest) then s.colon
  else if c == '*' then s.named .alias
  else if c == '&' then s.named .anchor
  else if c == '!' then s.tagged
  else if c == '|' && !s.inFlow then s.blockScalar true
  else if c == '>' && !s.inFlow then s.blockScalar false
  else if c == '\'' then s.quotedScalar true
  else if c == '"' then s.quotedScalar false
  else if startsPlain s.inFlow s.cursor.rest then s.plainScalar
  else none

def run : Nat → Scanner → Option (List Token)
  | 0, _ => none
  | fuel + 1, s =>
    let s := s.toToken (s.cursor.rest.length + 1)
    match s.dropStale with
    | none => none
    | some s =>
      match s.cursor.rest with
      | [] => (s.unroll fun _ => false).dropKey.map fun s => s.tokens.toList
      | c :: rest =>
        let s := s.unroll fun column => column ≤ s.cursor.column
        match s.readToken c rest with
        | none => none
        | some s => s.run fuel

end Scanner

/-- The tokens of a document, unless it holds characters that no document may hold or is malformed.
-/
def Token.scan (s : List Char) : Option (List Token) :=
  let s := if s.head? = some byteOrderMark then s.drop 1 else s
  if s.all isAllowed then (Scanner.ofText s).run (s.length + 1) else none

end Assay.Yaml
