import Assay.Yaml.Cursor
import Assay.Value

namespace Assay.Yaml

/-- What stands between two runs of a scalar: spaces, or a first line break and those after it. -/
inductive Gap where
  | spaces (s : List Char)
  | lines (first more : List Char)

def Gap.text : Gap → List Char
  | spaces s => s
  | lines first more =>
    if first = ['\n'] then
      if more.isEmpty then [' '] else more
    else first ++ more

/-- Whether a gap goes over a line break. -/
def Gap.isLines : Gap → Bool
  | spaces _ => false
  | lines _ _ => true

/-- Takes spaces and line breaks into a gap. A tab in front of the least column that a line may
start at is refused. -/
def Gap.take (least : Nat) : Nat → Gap → Cursor → Option (Gap × Cursor)
  | 0, _, _ => none
  | fuel + 1, gap, c =>
    match c.rest with
    | [] => some (gap, c)
    | x :: _ =>
      if isSpace x then
        match gap with
        | .spaces s => Gap.take least fuel (.spaces (s ++ [x])) (c.skip 1)
        | .lines first more =>
          if x = '\t' && c.column < least then none
          else Gap.take least fuel (.lines first more) (c.skip 1)
      else if isBreak x then
        match gap with
        | .spaces _ => Gap.take least fuel (.lines c.breakText []) c.skipBreak
        | .lines first more => Gap.take least fuel (.lines first (more ++ c.breakText)) c.skipBreak
      else some (gap, c)

def isFlowMark (c : Char) : Bool :=
  c == ',' || c == '[' || c == ']' || c == '\x7b' || c == '\x7d'

/-- The characters before a gap or a mark. A colon in front of a mark is refused. -/
def plainRun (flow : Bool) : List Char → Option (List Char)
  | [] => some []
  | x :: rest =>
    if isSpace x || isBreak x then some []
    else if flow && x == ':' && (rest.head?.map fun y => isFlowMark y || y == '?').getD false then
      none
    else if (x == ':' && atGap rest) || (flow && isFlowMark x) then some []
    else (plainRun flow rest).map (x :: ·)

/-- A scalar that has been read, whether a line break follows it, and the place behind it. -/
structure Scanned where
  text : List Char
  endsLine : Bool
  next : Cursor

/-- Reads on in a plain scalar whose lines start at a column at least, after the text so far and a
gap. -/
def plainFrom (flow : Bool) (least : Nat) : Nat → List Char → Gap → Cursor → Option Scanned
  | 0, _, _, _ => none
  | fuel + 1, sofar, gap, c =>
    if c.atDocumentMark || c.rest.head? = some '#' then some ⟨sofar, gap.isLines, c⟩
    else
      match plainRun flow c.rest with
      | none => none
      | some run =>
        let sofar := if run.isEmpty then sofar else sofar ++ gap.text ++ run
        let gap := if run.isEmpty then gap else .spaces []
        let c := c.skip run.length
        if c.rest.isEmpty || !atGap c.rest then some ⟨sofar, gap.isLines, c⟩
        else
          match Gap.take least fuel gap c with
          | none => none
          | some (gap, c) =>
            if !flow && c.column < least then some ⟨sofar, gap.isLines, c⟩
            else plainFrom flow least fuel sofar gap c

def scanPlain (flow : Bool) (least : Nat) (c : Cursor) : Option Scanned :=
  plainFrom flow least (2 * c.rest.length + 2) [] (.spaces []) c

def codeLength? (c : Char) : Option Nat :=
  if c = 'x' then some 2 else if c = 'u' then some 4 else if c = 'U' then some 8 else none

/-- The character that a letter means after a backslash. -/
def escaped? (c : Char) : Option Char :=
  ([('0', '\x00'), ('a', '\x07'), ('b', '\x08'), ('t', '\t'), ('\t', '\t'), ('n', '\n'),
    ('v', '\x0b'), ('f', '\x0c'), ('r', '\r'), ('e', '\x1b'), (' ', ' '), ('"', '"'), ('/', '/'),
    ('\\', '\\'), ('N', '\u0085'), ('_', '\u00a0'), ('L', '\u2028'), ('P', '\u2029')]).lookup c

def codePoint? (digits : List Char) : Option Char :=
  (Value.digitsIn? 16 digits).bind fun n =>
    if n < 0xD800 || (0xE000 ≤ n && n < 0x110000) then some (Char.ofNat n) else none

/-- The character that stands after a backslash, and the number of characters that spell it. -/
def escape? (s : List Char) : Option (Char × Nat) :=
  match s with
  | [] => none
  | c :: rest =>
    match codeLength? c with
    | some n =>
      if rest.length < n then none else (codePoint? (rest.take n)).map fun x => (x, n + 1)
    | none => (escaped? c).map fun x => (x, 1)

/-- What ends a run of a quoted scalar: a gap, an escaped line break, or the closing quote. -/
inductive RunEnd where
  | gap
  | escapedBreak
  | quote

/-- Reads the characters of a quoted scalar before the next gap or quote. -/
def quotedRun (single : Bool) : Nat → List Char → Cursor → Option (List Char × RunEnd × Cursor)
  | 0, _, _ => none
  | fuel + 1, sofar, c =>
    match c.rest with
    | [] => some (sofar, .gap, c)
    | x :: rest =>
      if isSpace x || isBreak x then some (sofar, .gap, c)
      else if single && x == '\'' then
        if rest.head? = some '\'' then quotedRun single fuel (sofar ++ ['\'']) (c.skip 2)
        else some (sofar, .quote, c.skip 1)
      else if !single && x == '"' then some (sofar, .quote, c.skip 1)
      else if !single && x == '\\' then
        if !rest.isEmpty && atLineEnd rest then
          some (sofar, .escapedBreak, (c.skip 1).skipBreak)
        else
          match escape? rest with
          | none => none
          | some (y, n) => quotedRun single fuel (sofar ++ [y]) (c.skip (n + 1))
      else quotedRun single fuel (sofar ++ [x]) (c.skip 1)

def quotedFrom (single : Bool) : Nat → List Char → Cursor → Option Scanned
  | 0, _, _ => none
  | fuel + 1, sofar, c =>
    if c.atDocumentMark || c.rest.isEmpty then none
    else
      match quotedRun single fuel [] c with
      | none => none
      | some (run, .quote, c) => some ⟨sofar ++ run, false, c⟩
      | some (run, .gap, c) =>
        match Gap.take 0 fuel (.spaces []) c with
        | none => none
        | some (gap, c) => quotedFrom single fuel (sofar ++ run ++ gap.text) c
      | some (run, .escapedBreak, c) =>
        match Gap.take 0 fuel (.lines [] []) c with
        | none => none
        | some (gap, c) => quotedFrom single fuel (sofar ++ run ++ gap.text) c

def scanQuoted (single : Bool) (c : Cursor) : Option Scanned :=
  quotedFrom single (2 * c.rest.length + 2) [] (c.skip 1)

/-- Which line breaks at the end of a block are kept. -/
inductive Chomping where
  | strip
  | clip
  | keep
  deriving DecidableEq

/-- What follows the mark of a block: its indentation, if it is given, and its chomping. -/
structure BlockHeader where
  increment : Option Nat
  chomping : Chomping

def chomping? (c : Char) : Option Chomping :=
  if c = '+' then some .keep else if c = '-' then some .strip else none

/-- Reads what follows the mark of a block; an indentation of zero is refused. -/
def blockHeader? (s : List Char) : Option (BlockHeader × Nat) :=
  let digit (c : Char) : Option Nat := Decimal.digit? c
  match s with
  | [] => some (⟨none, .clip⟩, 0)
  | a :: rest =>
    match chomping? a, digit a with
    | some chomping, _ =>
      match rest.head?.bind digit with
      | some 0 => none
      | some n => some (⟨some n, chomping⟩, 2)
      | none => some (⟨none, chomping⟩, 1)
    | none, some 0 => none
    | none, some n =>
      match rest.head?.bind chomping? with
      | some chomping => some (⟨some n, chomping⟩, 2)
      | none => some (⟨some n, .clip⟩, 1)
    | none, none => some (⟨none, .clip⟩, 0)

/-- Reads blank lines and the indentation in front of a line of a block. While the indentation is
not known, all spaces are indentation, and the widest one is remembered. -/
def blockBreaks (indent : Option Nat) : Nat → Nat → List Char → Cursor →
    Option (Nat × List Char × Cursor)
  | 0, _, _, _ => none
  | fuel + 1, widest, breaks, c =>
    let spaces := (c.rest.takeWhile (· == ' ')).length
    let c := c.skip (match indent with
      | none => spaces
      | some n => min spaces (n - c.column))
    let widest := max widest c.column
    let inside := match indent with
      | none => true
      | some n => c.column < n
    if inside && c.rest.head? = some '\t' then none
    else if c.rest.isEmpty || !atLineEnd c.rest then some (widest, breaks, c)
    else blockBreaks indent fuel widest (breaks ++ c.breakText) c.skipBreak

/-- A block as far as it has been read: its text, the break of its last line, the blank lines after
it, and whether that line started with a blank. -/
structure BlockText where
  text : List Char
  lastBreak : List Char
  breaks : List Char
  startsBlank : Bool

/-- Takes the break and the blank lines in front of one more line into the text. In a folded block a
single break between two lines that start with no blank becomes a space. -/
def BlockText.join (b : BlockText) (literal nextBlank : Bool) : List Char :=
  if !literal && b.lastBreak == ['\n'] && !b.startsBlank && !nextBlank then
    b.text ++ (if b.breaks.isEmpty then [' '] else []) ++ b.breaks
  else b.text ++ b.lastBreak ++ b.breaks

/-- Reads the lines of a block that start at its indentation. -/
def blockLines (literal : Bool) (indent : Nat) : Nat → BlockText → Cursor →
    Option (BlockText × Cursor)
  | 0, _, _ => none
  | fuel + 1, b, c =>
    if c.column ≠ indent || c.rest.isEmpty then some (b, c)
    else
      let blank := (c.rest.head?.map isSpace).getD false
      let line := c.rest.takeWhile fun x => !isBreak x
      let c := c.skip line.length
      let text := b.join literal blank ++ line
      let lastBreak := c.breakText
      match blockBreaks (some indent) fuel 0 [] c.skipBreak with
      | none => none
      | some (_, breaks, c) => blockLines literal indent fuel ⟨text, lastBreak, breaks, blank⟩ c

/-- The text of a block with the breaks at its end that are kept. -/
def BlockText.finish (b : BlockText) : Chomping → List Char
  | .strip => b.text
  | .clip => b.text ++ b.lastBreak
  | .keep => b.text ++ b.lastBreak ++ b.breaks

/-- Reads a block from its mark on. The column of the surrounding collection, if there is one, is
what an indentation is added to. -/
def scanBlock (literal : Bool) (parent : Option Nat) (c : Cursor) : Option Scanned :=
  let fuel := c.rest.length + 2
  match blockHeader? (c.rest.drop 1) with
  | none => none
  | some (header, width) =>
    let c := (c.skip (1 + width)).skipWhile isSpace
    let c := if c.rest.head? = some '#' then c.skipLine else c
    if !atLineEnd c.rest then none
    else
      let given := header.increment.map fun n => parent.getD 0 + n
      match blockBreaks given fuel 0 [] c.skipBreak with
      | none => none
      | some (widest, breaks, c) =>
        let least := match parent with
          | none => 1
          | some n => n + 1
        let indent := given.getD (max widest least)
        match blockLines literal indent fuel ⟨[], [], breaks, false⟩ c with
        | none => none
        | some (b, c) => some ⟨b.finish header.chomping, true, c⟩

end Assay.Yaml
