import Assay.Decimal.Notation
import Assay.Text.Quoted
import Assay.Image.ElementType

namespace Assay.Image

def identity (n : Nat) : List Float :=
  (List.range n).flatMap fun r => (List.range n).map fun c => if r = c then 1.0 else 0.0

structure Descriptor where
  dimension : Nat
  size : List Nat
  spacing : List Float
  origin : List Float
  direction : List Float
  elementType : ElementType
  components : Nat

namespace Descriptor

/-- A grid at the origin with unit spacing along the coordinate axes. -/
def ofSize (size : List Nat) (elementType : ElementType) : Descriptor where
  dimension := size.length
  size := size
  spacing := List.replicate size.length 1.0
  origin := List.replicate size.length 0.0
  direction := identity size.length
  elementType := elementType
  components := 1

def pixelCount (d : Descriptor) : Nat :=
  d.size.foldl (· * ·) 1

def sampleCount (d : Descriptor) : Nat :=
  d.pixelCount * d.components

instance : BEq Descriptor where
  beq a b :=
    a.dimension == b.dimension && a.size == b.size && a.spacing == b.spacing &&
      a.origin == b.origin && a.direction == b.direction && a.elementType == b.elementType &&
      a.components == b.components

def sizesText (sizes : List Nat) : String :=
  Text.bracketed (sizes.map toString)

def realsText (xs : List Float) : String :=
  Text.bracketed (xs.map Decimal.exact)

def difference {α : Type} [BEq α] (field : String) (write : α → String) (a b : α) : List String :=
  if a == b then [] else [field ++ ": " ++ write a ++ " vs " ++ write b]

/-- The fields that differ, with both values, in the order of their declaration. -/
def differences (a b : Descriptor) : List String :=
  difference "dimension" toString a.dimension b.dimension ++
  difference "size" sizesText a.size b.size ++
  difference "spacing" realsText a.spacing b.spacing ++
  difference "origin" realsText a.origin b.origin ++
  difference "direction" realsText a.direction b.direction ++
  difference "pixel type" ElementType.name a.elementType b.elementType ++
  difference "components" toString a.components b.components

/-- Where the axes seen so far have led in the buffer, and how far one step along the next goes. -/
structure Cursor where
  place : Nat
  stride : Nat
  deriving DecidableEq, Repr

def Cursor.advance (c : Cursor) (axis : Nat × Nat) : Option Cursor :=
  if axis.1 < axis.2 then some ⟨c.place + axis.1 * c.stride, c.stride * axis.2⟩ else none

def linearIndex (d : Descriptor) (index : List Nat) : Option Nat :=
  if index.length ≠ d.dimension then none
  else ((index.zip d.size).foldlM Cursor.advance ⟨0, 1⟩).map Cursor.place

/-- The index along every axis of a pixel at a place in the buffer. An axis without pixels has the
index zero. -/
def gridFrom : List Nat → Nat → List Nat
  | [], _ => []
  | n :: rest, place => place % max n 1 :: gridFrom rest (place / max n 1)

def gridIndex (d : Descriptor) (place : Nat) : List Nat :=
  gridFrom d.size place

example : (ofSize [5, 6] .float).linearIndex [2, 3] = some 17 := by decide
example : (ofSize [5, 6] .float).gridIndex 17 = [2, 3] := by decide
example : (ofSize [5, 6] .float).linearIndex [5, 0] = none := by decide

@[simp] theorem length_gridFrom (sizes : List Nat) (place : Nat) :
    (gridFrom sizes place).length = sizes.length := by
  induction sizes generalizing place with
  | nil => rfl
  | cons n rest ih => simp [gridFrom, ih]

end Descriptor

/-- The square matrix with rows and columns exchanged. Values beyond the matrix become zero. -/
def transpose (n : Nat) (m : List Float) : List Float :=
  ((List.range n).flatMap fun c => (List.range n).map fun r => m.getD (r * n + c) 0.0) ++
    List.replicate (m.length - n * n) 0.0

end Assay.Image
