import Assay.Comparison.Files
import Assay.Image.Reader

namespace Assay.Comparison

/-- Whether two samples agree. What is no number agrees with nothing; equal infinities agree. -/
def within (tolerance a b : Float) : Bool :=
  a == b || (a - b).abs <= tolerance

/-- Whether a number can be a tolerance: it is finite and not negative. -/
def isTolerance (tolerance : Float) : Bool :=
  tolerance.isFinite && 0.0 <= tolerance

theorem isTolerance_iff {tolerance : Float} :
    isTolerance tolerance = true ↔ tolerance.isFinite = true ∧ 0.0 ≤ tolerance := by
  rw [isTolerance, Bool.and_eq_true, decide_eq_true_eq]

/-- A pair of samples that do not agree, with their place in the buffers. -/
structure Deviation where
  place : Nat
  actual : Float
  expected : Float

/-- The pairs of samples that do not agree, in order. -/
def deviations (tolerance : Float) (actual expected : List Float) : List Deviation :=
  (actual.zip expected).zipIdx.filterMap fun entry =>
    if within tolerance entry.1.1 entry.1.2 then none
    else some ⟨entry.2, entry.1.1, entry.1.2⟩

def Deviation.size (d : Deviation) : Float :=
  (d.actual - d.expected).abs

/-- Takes one more distance into the largest. Once a distance is no number, the largest is none. -/
def larger (largest size : Float) : Float :=
  if size.isNaN || largest < size then size else largest

def largest (ds : List Deviation) : Float :=
  ds.foldl (fun sofar d => larger sofar d.size) 0.0

def deviationText (d : Image.Descriptor) (total : Nat) (tolerance : Float) (first : Deviation)
    (all : List Deviation) : String :=
  let index := d.gridIndex (first.place / max d.components 1)
  s!"{all.length} of {total} samples exceed tolerance " ++ Decimal.scientific tolerance ++
    " (max abs difference " ++ Decimal.scientific (largest all) ++ "); first at index " ++
    Image.Descriptor.sizesText index ++ ": " ++ Decimal.plain first.actual ++ " vs " ++
    Decimal.plain first.expected

/-- Compares the samples of two images only if their descriptors are equal in every field. -/
def sameImages (check : String) (actual expected : Image) (tolerance : Float) : Verdict :=
  let differences := actual.descriptor.differences expected.descriptor
  if !differences.isEmpty then
    .fail ⟨check, "image information differs: " ++ String.intercalate "; " differences⟩
  else if actual.pixels.length ≠ expected.pixels.length then
    .fail ⟨check,
      s!"pixel buffers differ in length: {actual.pixels.length} vs {expected.pixels.length}"⟩
  else
    match deviations tolerance actual.pixels expected.pixels with
    | [] => .pass
    | first :: rest =>
      .fail ⟨check, deviationText actual.descriptor actual.pixels.length tolerance first
        (first :: rest)⟩

def unreadableImage (check : String) : Failure → Verdict
  | .fileRead path cause => unreadable check "image" path cause
  | failure => .fail ⟨check, failure.message⟩

def sameImageFiles (t : FileTree) (actual expected : Path) (tolerance : Float) :
    Except Failure Verdict :=
  match Image.read t expected with
  | .error failure => .error failure
  | .ok reference =>
    match Image.read t actual with
    | .error failure => .ok (unreadableImage actual.label failure)
    | .ok produced => .ok (sameImages actual.label produced reference tolerance)

end Assay.Comparison
