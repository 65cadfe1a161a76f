namespace Assay.Text

/-- The characters that have the Unicode property White_Space. -/
def isBlank (c : Char) : Bool :=
  let n := c.toNat
  (0x9 ≤ n && n ≤ 0xD) || n == 0x20 || n == 0x85 || n == 0xA0 || n == 0x1680 ||
    (0x2000 ≤ n && n ≤ 0x200A) || n == 0x2028 || n == 0x2029 || n == 0x202F || n == 0x205F ||
    n == 0x3000

def trimStart (s : List Char) : List Char :=
  s.dropWhile isBlank

def trimEnd (s : List Char) : List Char :=
  (s.reverse.dropWhile isBlank).reverse

/-- The text without the blanks at its two ends; blanks inside stay. -/
def trim (s : List Char) : List Char :=
  trimEnd (trimStart s)

def trimmed (s : String) : String :=
  String.ofList (trim s.toList)

/-- Puts a finished word in front of the others; an empty word is no word. -/
def closeWord (word : List Char) (words : List (List Char)) : List (List Char) :=
  if word.isEmpty then words else word :: words

/-- Adds one character in front of a text that is split into its first word and the others. -/
def consWord (c : Char) (split : List Char × List (List Char)) : List Char × List (List Char) :=
  if isBlank c then ([], closeWord split.1 split.2) else (c :: split.1, split.2)

/-- The maximal runs of characters that are not blank, in order. -/
def words (s : List Char) : List (List Char) :=
  let split := s.foldr consWord ([], [])
  closeWord split.1 split.2

def dropReturn (line : List Char) : List Char :=
  if line.getLast? = some '\r' then line.dropLast else line

/-- The lines of a text. A line feed ends a line, and a carriage return before it belongs to the
end; what follows the last line feed is a line of its own unless it is empty. -/
def lines (s : List Char) : List (List Char) :=
  let pieces := s.splitOn '\n'
  pieces.dropLast.map dropReturn ++ pieces.getLast?.toList.filter (· ≠ [])

example : isBlank '\u3000' = true ∧ isBlank '\u200b' = false := by decide
example : words " a  b".toList = [['a'], ['b']] := by decide

theorem closeWord_ne_nil {word : List Char} {ws : List (List Char)} (h : word ≠ []) :
    closeWord word ws = word :: ws := by
  cases word with
  | nil => contradiction
  | cons c r => rfl

@[simp] theorem words_nil : words [] = [] := rfl

/-- A blank in front of a text adds no word. -/
theorem words_cons_blank {c : Char} (h : isBlank c = true) (s : List Char) :
    words (c :: s) = words s := by
  simp [words, consWord, h, closeWord]

end Assay.Text
