import Assay.Decimal.Notation
import Assay.Displacement.Parameters

namespace Assay.Displacement

open Assay.Text

structure PointList where
  areIndices : Bool
  count : Nat
  coordinates : List Float

namespace PointList

def indexWord : List Char := "index".toList

def pointWord : List Char := "point".toList

/-- The head of a point file: what the coordinates count, and the word for the number of points. -/
def head (tokens : List (List Char)) : Except Refusal ((Bool × List Char) × List (List Char)) :=
  match tokens with
  | [] => .error .emptyPoints
  | first :: rest =>
    if first = indexWord ∨ first = pointWord then
      match rest with
      | [] => .error .missingCount
      | count :: rest => .ok ((first == indexWord, count), rest)
    else .ok ((false, first), rest)

def coordinates? (tokens : List (List Char)) : Except Refusal (List Float) :=
  tokens.mapM fun token =>
    match Decimal.real? token with
    | none => .error (.badCoordinate (String.ofList token))
    | some x => .ok x

def ofTokens (axes : Nat) (tokens : List (List Char)) : Except Refusal PointList :=
  match head tokens with
  | .error r => .error r
  | .ok ((areIndices, word), rest) =>
    match Decimal.size? word with
    | none => .error (.badCount (String.ofList word))
    | some count =>
      match coordinates? rest with
      | .error r => .error r
      | .ok xs =>
        if xs.length ≠ count * axes then .error (.wrongCount (count * axes) xs.length)
        else .ok ⟨areIndices, count, xs⟩

def read (axes : Nat) (text : String) : Except Refusal PointList :=
  ofTokens axes (words text.toList)

end PointList

def groups {α : Type} (width : Nat) : Nat → List α → List (List α)
  | 0, _ => []
  | count + 1, xs => xs.take width :: groups width count (xs.drop width)

/-- A grid in space: where its first pixel lies, and how far its pixels are apart, along each axis.
-/
structure Grid where
  axes : List (Float × Float)

namespace Grid

/-- The grid that parameters give for a number of axes: at the origin with unit spacing where they
say nothing. -/
def ofParameters (p : Parameters) (axes : Nat) : Grid :=
  let origin := p.origin.getD (List.replicate axes 0.0)
  let spacing := p.spacing.getD (List.replicate axes 1.0)
  ⟨origin.zip spacing⟩

/-- The point at an index, which need not be whole. -/
def pointAt (g : Grid) (index : List Float) : List Float :=
  (g.axes.zip index).map fun axis => axis.1.1 + axis.1.2 * axis.2

def indexOf (g : Grid) (point : List Float) : List Int :=
  (g.axes.zip point).map fun axis =>
    Decimal.nearestTo (-(Decimal.signedLimit : Int)) ((Decimal.signedLimit : Int) - 1)
      ((axis.2 - axis.1.1) / axis.1.2)

end Grid

def spaced (words : List String) : String :=
  "[ " ++ String.intercalate " " words ++ " ]"

def integersText (ns : List Int) : String :=
  spaced (ns.map fun n => String.ofList (Decimal.integer n))

def realsText (xs : List Float) : String :=
  spaced (xs.map Decimal.plain)

structure MovedPoint where
  input : List Float
  output : List Float

/-- How far a point was moved, as the difference of the two. -/
def MovedPoint.deformation (m : MovedPoint) : List Float :=
  (m.output.zip m.input).map fun pair => pair.1 - pair.2

/-- Moves a point that a file gives. -/
def movePoint (g : Grid) (offsets : List Float) (areIndices : Bool) (given : List Float) :
    MovedPoint :=
  let input := if areIndices then g.pointAt given else given
  ⟨input, (input.zip offsets).map fun pair => pair.1 + pair.2⟩

def MovedPoint.line (g : Grid) (m : MovedPoint) (n : Nat) : String :=
  s!"Point\t{n}\t; InputIndex = " ++ integersText (g.indexOf m.input) ++
    "\t; InputPoint = " ++ realsText m.input ++
    "\t; OutputIndexFixed = " ++ integersText (g.indexOf m.output) ++
    "\t; OutputPoint = " ++ realsText m.output ++
    "\t; Deformation = " ++ realsText m.deformation ++ "\n"

def pointLines (g : Grid) (offsets : List Float) (points : PointList) : List String :=
  (groups offsets.length points.count points.coordinates).zipIdx.map fun entry =>
    (movePoint g offsets points.areIndices entry.1).line g entry.2

/-- The text that a displacement makes of a point file. -/
def displacePoints (p : Parameters) (offsets : List Float) (points : PointList) :
    Except Defect String :=
  let g := Grid.ofParameters p offsets.length
  if offsets.isEmpty then .error .noAxes
  else if 0 < points.count ∧ g.axes.length < offsets.length then .error .tooFewAxes
  else .ok (String.join (pointLines g offsets points))

example : groups 2 2 [1, 2, 3, 4] = [[1, 2], [3, 4]] := rfl

end Assay.Displacement
