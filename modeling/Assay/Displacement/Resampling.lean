import Assay.Displacement.Parameters

namespace Assay.Displacement

structure Axis where
  origin : Float
  spacing : Float
  offset : Float
  sourceOrigin : Float
  sourceSpacing : Float
  sourceSize : Nat

namespace Axis

/-- Where a pixel of the result lies in the source, in steps of its pixels. -/
def position (a : Axis) (i : Nat) : Float :=
  (a.origin + a.spacing * Decimal.ofInt i + a.offset - a.sourceOrigin) / a.sourceSpacing

/-- The place on an axis of a size that is nearest to a position, if there is one; halfway between
two places lies nearest to the one that is farther from zero. -/
def nearest? (size : Nat) (x : Float) : Option Nat :=
  if x.isNaN then none
  else
    let place := Decimal.nearestTo (-1) Decimal.sizeLimit x
    if 0 ≤ place ∧ place < size then some place.toNat else none

def source? (a : Axis) (i : Nat) : Option Nat :=
  nearest? a.sourceSize (a.position i)

end Axis

/-- The axes that the result, the displacement and the source all have. -/
def axes (result source : Image.Descriptor) (offsets : List Float) : List Axis :=
  let here := (result.origin.zip result.spacing).zip offsets
  let there := (source.origin.zip source.spacing).zip source.size
  (here.zip there).map fun pair =>
    ⟨pair.1.1.1, pair.1.1.2, pair.1.2, pair.2.1.1, pair.2.1.2, pair.2.2⟩

/-- The source pixel of a pixel of the result, if there is one. The axes are followed in order and
only up to the first that leads out of the source. -/
def sourceIndex : List Axis → List Nat → Except Defect (Option (List Nat))
  | _, [] => .ok (some [])
  | [], _ :: _ => .error .tooFewAxes
  | a :: axes, i :: index =>
    match a.source? i with
    | none => .ok none
    | some place => (sourceIndex axes index).map fun rest => rest.map (place :: ·)

def resultDescriptor (p : Parameters) (source : Image.Descriptor) : Image.Descriptor where
  dimension := source.dimension
  size := p.size.getD source.size
  spacing := p.spacing.getD source.spacing
  origin := p.origin.getD source.origin
  direction := p.direction.getD source.direction
  elementType := p.elementType.getD source.elementType
  components := 1

def resample (source : Image) (axes : List Axis) (background : Float) (index : List Nat) :
    Except Defect Float :=
  match sourceIndex axes index with
  | .error d => .error d
  | .ok none => .ok background
  | .ok (some place) =>
    match source.get place with
    | .error d => .error (.image d)
    | .ok x => .ok (x.getD background)

/-- The image that a displacement makes of a source. Directions are taken to be the coordinate axes.
-/
def displaceImage (p : Parameters) (offsets : List Float) (source : Image) :
    Except Defect Image :=
  let d := resultDescriptor p source.descriptor
  let axes := axes d source.descriptor offsets
  ((List.range d.pixelCount).mapM fun place =>
    resample source axes p.background (d.gridIndex place)).map fun pixels => ⟨d, pixels⟩

end Assay.Displacement
