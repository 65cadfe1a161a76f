import Assay.Text.Utf8

namespace Assay.Zlib

inductive Fault where
  | incomplete
  | corrupt
  deriving DecidableEq, Repr

def Fault.message : Fault → String
  | .incomplete => "incomplete deflate stream"
  | .corrupt => "corrupt deflate stream"

abbrev Bits := List Bool

def bitsOf (b : UInt8) : Bits :=
  (List.range 8).map fun i => b.toNat.testBit i

abbrev Read := StateT Bits (Except Fault)

def bit : Read Bool := fun input =>
  match input with
  | [] => .error .incomplete
  | b :: rest => .ok (b, rest)

/-- Reads a number, its low bit first. -/
def number : Nat → Read Nat
  | 0 => pure 0
  | count + 1 => do
    let b ← bit
    let high ← number count
    pure (b.toNat + 2 * high)

/-- Drops the bits of the byte that has been read in part. -/
def align : Read Unit := fun input =>
  .ok ((), input.drop (input.length % 8))

example : (number 3).run [true, false, true, true] = .ok (5, [true]) := rfl

end Assay.Zlib
