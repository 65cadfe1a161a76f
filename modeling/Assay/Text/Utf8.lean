import Assay.Text.Blank

namespace Assay

/-- A sequence of bytes, as a file holds it. -/
abbrev Bytes := List UInt8

namespace Text.Utf8

/-- A character of which some bytes have been read: how many are missing, the bits so far, and the
range in which the next byte has to lie. -/
structure Pending where
  missing : Nat
  bits : Nat
  low : Nat
  high : Nat
  deriving DecidableEq, Repr

inductive Lead where
  | single (c : Char)
  | opens (p : Pending)
  | malformed

/-- The first byte fixes the length of a character and the range of its second byte. -/
def lead (b : UInt8) : Lead :=
  let n := b.toNat
  if n < 0x80 then .single (Char.ofNat n)
  else if n < 0xC2 then .malformed
  else if n < 0xE0 then .opens ⟨1, n - 0xC0, 0x80, 0xBF⟩
  else if n = 0xE0 then .opens ⟨2, 0, 0xA0, 0xBF⟩
  else if n = 0xED then .opens ⟨2, 0xD, 0x80, 0x9F⟩
  else if n < 0xF0 then .opens ⟨2, n - 0xE0, 0x80, 0xBF⟩
  else if n = 0xF0 then .opens ⟨3, 0, 0x90, 0xBF⟩
  else if n < 0xF4 then .opens ⟨3, n - 0xF0, 0x80, 0xBF⟩
  else if n = 0xF4 then .opens ⟨3, 4, 0x80, 0x8F⟩
  else .malformed

/-- The automaton: the character in progress and the units emitted so far, latest first. A unit
without a character is a malformed part. -/
structure Reading where
  pending : Option Pending
  units : List (Option Char)

/-- Reads a byte where a character starts. -/
def Reading.start (units : List (Option Char)) (b : UInt8) : Reading :=
  match lead b with
  | .single c => ⟨none, some c :: units⟩
  | .opens p => ⟨some p, units⟩
  | .malformed => ⟨none, none :: units⟩

/-- Reads a byte. A byte that cannot continue the character in progress ends it as a malformed part
and is then read as a first byte. -/
def Reading.push (r : Reading) (b : UInt8) : Reading :=
  match r.pending with
  | none => Reading.start r.units b
  | some p =>
    let n := b.toNat
    if p.low ≤ n ∧ n ≤ p.high then
      let bits := p.bits * 64 + (n - 0x80)
      if p.missing = 1 then ⟨none, some (Char.ofNat bits) :: r.units⟩
      else ⟨some ⟨p.missing - 1, bits, 0x80, 0xBF⟩, r.units⟩
    else Reading.start (none :: r.units) b

def Reading.finish (r : Reading) : List (Option Char) :=
  match r.pending with
  | none => r.units
  | some _ => none :: r.units

/-- The characters and malformed parts of a sequence of bytes, in order. -/
def units (bytes : Bytes) : List (Option Char) :=
  (bytes.foldl Reading.push ⟨none, []⟩).finish.reverse

def decode? (bytes : Bytes) : Option (List Char) :=
  (units bytes).mapM id

def replacement : Char := '\uFFFD'

/-- The characters, with the replacement character for every malformed part. -/
def decodeLossy (bytes : Bytes) : List Char :=
  (units bytes).map (·.getD replacement)

def encode (s : List Char) : Bytes :=
  s.flatMap String.utf8EncodeChar

def ofString (s : String) : Bytes :=
  encode s.toList

def toString? (bytes : Bytes) : Option String :=
  (decode? bytes).map String.ofList

def toStringLossy (bytes : Bytes) : String :=
  String.ofList (decodeLossy bytes)

def size (s : List Char) : Nat :=
  (encode s).length

example : units [0x61, 0xE2, 0x82, 0x61, 0xFF] = [some 'a', none, some 'a', none] := by decide
example : decode? (encode "é日😀".toList) = some "é日😀".toList := by decide +kernel

@[simp] theorem encode_nil : encode [] = [] := rfl

@[simp] theorem encode_append (s t : List Char) : encode (s ++ t) = encode s ++ encode t := by
  simp [encode]

@[simp] theorem units_nil : units [] = [] := rfl

end Text.Utf8

end Assay
