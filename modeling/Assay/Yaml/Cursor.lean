import Assay.Text.Search

namespace Assay.Yaml

def isSpace (c : Char) : Bool :=
  c == ' ' || c == '\t'

def isBreak (c : Char) : Bool :=
  c == '\n' || c == '\r' || c == '\u0085' || c == '\u2028' || c == '\u2029'

/-- Whether a text starts with a space, a tab, a line break or its end. -/
def atGap (s : List Char) : Bool :=
  match s with
  | [] => true
  | c :: _ => isSpace c || isBreak c

def atLineEnd (s : List Char) : Bool :=
  match s with
  | [] => true
  | c :: _ => isBreak c

def isAllowed (c : Char) : Bool :=
  let n := c.toNat
  n == 0x9 || n == 0xA || n == 0xD || (0x20 ≤ n && n ≤ 0x7E) || n == 0x85 ||
    (0xA0 ≤ n && n ≤ 0xFFFD) || 0x10000 ≤ n

/-- The mark that may stand at the start of a line and means nothing. -/
def byteOrderMark : Char := '\uFEFF'

/-- A place in a document: what follows, and how many lines, characters of the line and characters
of the document are in front of it. -/
structure Cursor where
  rest : List Char
  line : Nat
  column : Nat
  index : Nat

namespace Cursor

def ofText (s : List Char) : Cursor := ⟨s, 0, 0, 0⟩

def skip (c : Cursor) (count : Nat) : Cursor :=
  ⟨c.rest.drop count, c.line, c.column + count, c.index + count⟩

/-- Goes over a line break. A carriage return and a line feed after it are one. -/
def skipBreak (c : Cursor) : Cursor :=
  match c.rest with
  | '\r' :: '\n' :: rest => ⟨rest, c.line + 1, 0, c.index + 2⟩
  | _ :: rest => ⟨rest, c.line + 1, 0, c.index + 1⟩
  | [] => c

def breakText (c : Cursor) : List Char :=
  match c.rest with
  | [] => []
  | b :: _ => if b = '\u2028' ∨ b = '\u2029' then [b] else ['\n']

def skipWhile (c : Cursor) (p : Char → Bool) : Cursor :=
  c.skip (c.rest.takeWhile p).length

def skipLine (c : Cursor) : Cursor :=
  c.skipWhile fun x => !isBreak x

/-- Whether a line starts here with a mark of three characters and a gap behind it. -/
def atMark (c : Cursor) (mark : List Char) : Bool :=
  c.column == 0 && mark.isPrefixOf c.rest && atGap (c.rest.drop mark.length)

/-- Whether a document starts or ends here. -/
def atDocumentMark (c : Cursor) : Bool :=
  c.atMark ['-', '-', '-'] || c.atMark ['.', '.', '.']

end Cursor

end Assay.Yaml
