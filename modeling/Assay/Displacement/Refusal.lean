import Assay.Failure
import Assay.FileTree.Basic
import Assay.Image.Basic

namespace Assay.Displacement

inductive Refusal where
  | unexpectedArgument (text : String)
  | noValue (option : String)
  | missingOption (option : String)
  | missingInput
  | crash
  | noOutputDirectory (path : Path)
  | unreadableParameters (path : Path) (cause : SystemCause)
  | otherTransform (name : String)
  | badNumber (key text : String)
  | missingOffsets
  | otherPixelType (name : String)
  | wrongDimension (offsets axes : Nat)
  | image (failure : Failure)
  | unreadablePoints (path : Path) (cause : SystemCause)
  | emptyPoints
  | missingCount
  | badCount (text : String)
  | badCoordinate (text : String)
  | wrongCount (expected found : Nat)
  | unwritablePoints (cause : SystemCause)

def marked (text : String) : String :=
  "ERROR: " ++ text

/-- What is printed for a refusal. A crash is no error that the program knows of, so it has no mark.
-/
def Refusal.message : Refusal → String
  | unexpectedArgument text => marked s!"unexpected argument \"{text}\""
  | noValue option => marked s!"No value given for option \"{option}\""
  | missingOption option => marked s!"No CommandLine option \"{option}\" given!"
  | missingInput =>
    marked ("At least one of the CommandLine options \"-in\", \"-def\", \"-jac\", or \"-jacmat\" " ++
      "should be given!")
  | crash => "Segmentation fault (simulated)"
  | noOutputDirectory path => marked s!"the output directory \"{path.text}\" does not exist."
  | unreadableParameters path cause =>
    marked s!"cannot read transform parameter file \"{path.text}\": " ++ cause.message
  | otherTransform name =>
    marked s!"mock transformix only supports TranslationTransform, got \"{name}\""
  | badNumber key text => marked s!"invalid {key} value \"{text}\""
  | missingOffsets => marked "missing TransformParameters"
  | otherPixelType name => marked s!"unsupported ResultImagePixelType \"{name}\""
  | wrongDimension offsets axes =>
    marked s!"{offsets}-D transform cannot be applied to a {axes}-D image"
  | image failure => marked failure.message
  | unreadablePoints path cause =>
    marked s!"cannot read point file \"{path.text}\": " ++ cause.message
  | emptyPoints => marked "empty point file"
  | missingCount => marked "missing point count"
  | badCount text => marked s!"invalid point count \"{text}\""
  | badCoordinate text => marked s!"invalid coordinate \"{text}\""
  | wrongCount expected found => marked s!"expected {expected} coordinates, found {found}"
  | unwritablePoints cause => marked ("cannot write outputpoints.txt: " ++ cause.message)

/-- Why inputs that were accepted do not fit together. -/
inductive Defect where
  | tooFewAxes
  | noAxes
  | image (defect : Image.Defect)
  deriving DecidableEq, Repr

inductive Stop where
  | refused (refusal : Refusal)
  | broken (defect : Defect)

/-- A step of a call: it may change the file tree, also when it is stopped. -/
abbrev Work := ExceptT Stop (StateM FileTree)

def refuse {α : Type} (r : Refusal) : Work α :=
  throw (.refused r)

def Work.ofExcept {α : Type} : Except Refusal α → Work α
  | .ok x => pure x
  | .error r => refuse r

def Work.ofParts {α : Type} : Except Defect α → Work α
  | .ok x => pure x
  | .error d => throw (.broken d)

end Assay.Displacement
