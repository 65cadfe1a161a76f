import Assay.Zlib.Bits

namespace Assay.Zlib

/-- A code, made ready for reading: how many words there are of every length from one on, and the
symbols in the order of their words. Shorter words come before longer ones, and words of one length
follow the order of their symbols. -/
structure Code where
  counts : List Nat
  symbols : Array Nat
  deriving Repr

def longestWord : Nat := 15

def symbolsOf (lengths : List Nat) (length : Nat) : List Nat :=
  lengths.zipIdx.filterMap fun entry => if entry.1 = length then some entry.2 else none

def wordLengths : List Nat :=
  (List.range longestWord).map (· + 1)

def Code.ofLengths (lengths : List Nat) : Code :=
  let groups := wordLengths.map (symbolsOf lengths)
  ⟨groups.map List.length, groups.flatten.toArray⟩

/-- How many words of the longest length start with a word of the code. -/
def Code.weight (c : Code) : Nat :=
  c.counts.foldl (fun total count => 2 * total + count) 0

def Code.isComplete (c : Code) : Bool :=
  c.weight == Nat.pow 2 longestWord

/-- Reads a symbol. The words of the length read so far start at `first`, and their symbols at
`index`; `word` is what has been read. -/
def Code.readFrom (c : Code) : List Nat → Nat → Nat → Nat → Read Nat
  | [], _, _, _ => throw .corrupt
  | count :: rest, word, first, index => do
    let b ← bit
    let word := 2 * word + b.toNat
    if word < first + count then
      match c.symbols[index + (word - first)]? with
      | some symbol => pure symbol
      | none => throw .corrupt
    else c.readFrom rest word (2 * (first + count)) (index + count)

def Code.read (c : Code) : Read Nat :=
  c.readFrom c.counts 0 0 0

example : (Code.ofLengths [1, 2, 2]).read.run [true, false, true] = .ok (1, [true]) := rfl
example : (Code.ofLengths [1, 2, 2]).isComplete = true := by decide

end Assay.Zlib
