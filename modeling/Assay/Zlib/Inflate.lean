import Assay.Zlib.Code

namespace Assay.Zlib

abbrev Output := Array UInt8

structure Codes where
  symbols : Code
  distances : Code

/-- The base and the number of extra bits of the lengths of copies, from symbol 257 on. -/
def copyLengths : List (Nat × Nat) :=
  [(3, 0), (4, 0), (5, 0), (6, 0), (7, 0), (8, 0), (9, 0), (10, 0), (11, 1), (13, 1), (15, 1),
   (17, 1), (19, 2), (23, 2), (27, 2), (31, 2), (35, 3), (43, 3), (51, 3), (59, 3), (67, 4),
   (83, 4), (99, 4), (115, 4), (131, 5), (163, 5), (195, 5), (227, 5), (258, 0)]

/-- The base and the number of extra bits of the distances of copies. -/
def copyDistances : List (Nat × Nat) :=
  [(1, 0), (2, 0), (3, 0), (4, 0), (5, 1), (7, 1), (9, 2), (13, 2), (17, 3), (25, 3), (33, 4),
   (49, 4), (65, 5), (97, 5), (129, 6), (193, 6), (257, 7), (385, 7), (513, 8), (769, 8),
   (1025, 9), (1537, 9), (2049, 10), (3073, 10), (4097, 11), (6145, 11), (8193, 12), (12289, 12),
   (16385, 13), (24577, 13)]

def extended (entry : Option (Nat × Nat)) : Read Nat :=
  match entry with
  | none => throw .corrupt
  | some (base, extra) => do
    let more ← number extra
    pure (base + more)

/-- Appends a copy of bytes that came before; a copy may overlap itself. -/
def copy (distance : Nat) : Nat → Output → Output
  | 0, out => out
  | count + 1, out => copy distance count (out.push (out.getD (out.size - distance) 0))

def endOfBlock : Nat := 256

/-- Reads the length and the distance of a copy whose symbol has been read, and appends the copy. -/
def readCopy (codes : Codes) (symbol : Nat) (out : Output) : Read Output := do
  let length ← extended copyLengths[symbol - endOfBlock - 1]?
  let step ← codes.distances.read
  let distance ← extended copyDistances[step]?
  if out.size < distance then throw .corrupt
  pure (copy distance length out)

/-- Reads symbols up to the end of the block. Every symbol takes at least one bit, so the number of
bits bounds the loop. -/
def readSymbols (codes : Codes) : Nat → Output → Bits → Except Fault (Output × Bits)
  | 0, _, _ => .error .incomplete
  | fuel + 1, out, input =>
    match codes.symbols.read input with
    | .error e => .error e
    | .ok (symbol, rest) =>
      if symbol < endOfBlock then readSymbols codes fuel (out.push symbol.toUInt8) rest
      else if symbol = endOfBlock then .ok (out, rest)
      else
        match readCopy codes symbol out rest with
        | .error e => .error e
        | .ok (out, rest) => readSymbols codes fuel out rest

def readPlain : Nat → Output → Bits → Except Fault (Output × Bits)
  | 0, out, input => .ok (out, input)
  | count + 1, out, input =>
    match number 8 input with
    | .error e => .error e
    | .ok (b, rest) => readPlain count (out.push b.toUInt8) rest

def readStored (out : Output) (input : Bits) : Except Fault (Output × Bits) :=
  match (do align; let n ← number 16; let complement ← number 16; pure (n, complement) :
      Read (Nat × Nat)) input with
  | .error e => .error e
  | .ok ((n, complement), rest) =>
    if n + complement = 0xFFFF then readPlain n out rest else .error .corrupt

/-- The codes of a block that sends none. -/
def fixedCodes : Codes where
  symbols := Code.ofLengths
    (List.replicate 144 8 ++ List.replicate 112 9 ++ List.replicate 24 7 ++ List.replicate 8 8)
  distances := Code.ofLengths (List.replicate 32 5)

/-- The order in which the word lengths of the code for word lengths are sent. -/
def lengthOrder : List Nat :=
  [16, 17, 18, 0, 8, 7, 9, 6, 10, 5, 11, 4, 12, 3, 13, 2, 14, 1, 15]

def readShort : Nat → Read (List Nat)
  | 0 => pure []
  | count + 1 => do
    let n ← number 3
    let rest ← readShort count
    pure (n :: rest)

/-- The word lengths in the order of their symbols; those that were not sent are zero. -/
def inOrder (sent : List Nat) : List Nat :=
  (List.range lengthOrder.length).map fun symbol => ((lengthOrder.zip sent).lookup symbol).getD 0

/-- Reads word lengths, latest first, until there are as many as wanted. A symbol is a length, or
says how often the last length or zero is repeated. -/
def readLengths (code : Code) (wanted : Nat) : Nat → List Nat → Read (List Nat)
  | 0, _ => throw .corrupt
  | fuel + 1, sofar => do
    if sofar.length = wanted then pure sofar.reverse
    else if wanted < sofar.length then throw .corrupt
    else
      let symbol ← code.read
      if symbol < 16 then readLengths code wanted fuel (symbol :: sofar)
      else if symbol = 16 then
        match sofar with
        | [] => throw .corrupt
        | last :: _ =>
          let n ← number 2
          readLengths code wanted fuel (List.replicate (3 + n) last ++ sofar)
      else if symbol = 17 then
        let n ← number 3
        readLengths code wanted fuel (List.replicate (3 + n) 0 ++ sofar)
      else
        let n ← number 7
        readLengths code wanted fuel (List.replicate (11 + n) 0 ++ sofar)

/-- A code for symbols or distances: it has room for no further word, or at most one word at all. -/
def usable (code : Code) : Bool :=
  code.isComplete || code.symbols.size ≤ 1

/-- Reads the two codes in front of a block. -/
def readCodes : Read Codes := do
  let symbols := (← number 5) + 257
  let distances := (← number 5) + 1
  let lengths := (← number 4) + 4
  if 286 < symbols || 30 < distances then throw .corrupt
  let sent ← readShort lengths
  let code := Code.ofLengths (inOrder sent)
  if !code.isComplete then throw .corrupt
  let all ← readLengths code (symbols + distances) (symbols + distances + 1) []
  let codes : Codes := ⟨Code.ofLengths (all.take symbols), Code.ofLengths (all.drop symbols)⟩
  if usable codes.symbols && usable codes.distances then pure codes else throw .corrupt

def readBlock (kind : Nat) (out : Output) (input : Bits) : Except Fault (Output × Bits) :=
  if kind = 0 then readStored out input
  else if kind = 1 then readSymbols fixedCodes (input.length + 1) out input
  else if kind = 2 then
    match readCodes input with
    | .error e => .error e
    | .ok (codes, rest) => readSymbols codes (rest.length + 1) out rest
  else .error .corrupt

def readBlocks : Nat → Output → Bits → Except Fault (Output × Bits)
  | 0, _, _ => .error .incomplete
  | fuel + 1, out, input =>
    match (do let final ← bit; let kind ← number 2; pure (final, kind) : Read (Bool × Nat)) input
      with
    | .error e => .error e
    | .ok ((final, kind), rest) =>
      match readBlock kind out rest with
      | .error e => .error e
      | .ok (out, rest) => if final then .ok (out, rest) else readBlocks fuel out rest

def inflate (input : Bits) : Except Fault (Output × Bits) :=
  readBlocks (input.length + 1) #[] input

end Assay.Zlib
