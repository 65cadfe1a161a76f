import Assay.Comparison.Verdict
import Assay.Failure
import Assay.FileTree.Basic

namespace Assay.Comparison

/-- The length of the longest common start. -/
def commonLength (a b : Bytes) : Nat :=
  ((a.zip b).takeWhile fun pair => pair.1 == pair.2).length

def sameBytes (check : String) (actual expected : Bytes) : Verdict :=
  if actual == expected then .pass
  else
    .fail ⟨check, s!"files differ at byte {commonLength actual expected} " ++
      s!"(actual {actual.length} bytes, expected {expected.length} bytes)"⟩

def unreadable (check what : String) (path : Path) (cause : SystemCause) : Verdict :=
  .fail ⟨check, "cannot read produced " ++ what ++ " '" ++ path.text ++ "': " ++ cause.message⟩

def sameFiles (t : FileTree) (actual expected : Path) : Except Failure Verdict :=
  match t.read expected with
  | .error cause => .error (.fileRead expected cause)
  | .ok reference =>
    match t.read actual with
    | .error cause => .ok (unreadable actual.label "file" actual cause)
    | .ok produced => .ok (sameBytes actual.label produced reference)

end Assay.Comparison
