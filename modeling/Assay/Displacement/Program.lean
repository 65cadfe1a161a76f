import Assay.Image.Writer
import Assay.Process.Host
import Assay.Scenario.Catalog
import Assay.Displacement.Options
import Assay.Displacement.Points
import Assay.Displacement.Resampling

namespace Assay.Displacement

/-- What the program can be made to do wrong. -/
inductive Flaw where
  | version
  | shift
  | points
  | warning
  | crash
  deriving DecidableEq, Repr

def Flaw.ofName? (name : String) : Option Flaw :=
  [("version", version), ("shift", shift), ("points", points), ("stderr", warning),
    ("crash", crash)].lookup name

def programName : String := "transformix"

def programVersion : String := "5.0.1"

def wrongVersion : String := "5.0.0"

def linesText (lines : List String) : String :=
  String.join (lines.map fun line => line ++ "\n")

def helpLines : List String :=
  ["transformix applies a transform on an input image and/or generates a deformation field.",
   "The transform is specified in the transform-parameter file.",
   "",
   "Call transformix from the command line with mandatory arguments:",
   "  -out      output directory",
   "  -tp       transform-parameter file, only 1",
   "",
   "Optional extra commands:",
   "  -in       input image to deform",
   "  -def      file containing input-image points",
   "  -jac      use \"-jac all\" to generate an image with the determinant of the spatial Jacobian",
   "  -jacmat   use \"-jacmat all\" to generate an image with the spatial Jacobian matrix"]

def extendedVersionLines : List String :=
  [Catalog.versionLine programName programVersion,
   "Git revision SHA: 0000000000000000000000000000000000000000",
   "Git revision date: Thu Jan 1 00:00:00 1970 +0000",
   "Memory address size: 64",
   "CMake version: 3.16.3",
   "ITK version: 5.1.0"]

/-- What a call that asks for a text and for nothing else prints. -/
def banner? (flaw : Option Flaw) : List String → Option String
  | [] => some (linesText [Catalog.usageHint programName])
  | "--help" :: _ | "-help" :: _ => some (linesText helpLines)
  | "--version" :: _ =>
    let version := if flaw = some .version then wrongVersion else programVersion
    some (linesText [Catalog.versionLine programName version])
  | "--extended-version" :: _ => some (linesText extendedVersionLines)
  | _ => none

def appliedOffsets (flaw : Option Flaw) (offsets : List Float) : Except Defect (List Float) :=
  if flaw = some .shift then
    match offsets with
    | [] => .error .noAxes
    | x :: rest => .ok ((x + 1.0) :: rest)
  else .ok offsets

def workOnImage (out : Path) (p : Parameters) (offsets : List Float) (input : Path) :
    Work Unit := do
  match Image.read (← get) input with
  | .error failure => refuse (.image failure)
  | .ok source =>
    if source.descriptor.dimension ≠ offsets.length then
      refuse (.wrongDimension offsets.length source.descriptor.dimension)
    let result ← Work.ofParts (displaceImage p offsets source)
    match Image.write (← get) (out.join ⟨"result." ++ p.format⟩) result with
    | .error defect => throw (.broken (.image defect))
    | .ok (written, outcome) =>
      set written
      match outcome with
      | .error failure => refuse (.image failure)
      | .ok () => pure ()

def pointsText (flaw : Option Flaw) (text : String) : String :=
  if flaw = some .points then
    String.ofList (Text.replaceAll ['\n'] ['\r', '\n'] text.toList)
  else text

def workOnPoints (flaw : Option Flaw) (out : Path) (p : Parameters) (offsets : List Float)
    (input : Path) : Work Unit := do
  match (← get).readText input with
  | .error cause => refuse (.unreadablePoints input cause)
  | .ok text =>
    let points ← Work.ofExcept (PointList.read offsets.length text)
    let result ← Work.ofParts (displacePoints p offsets points)
    let bytes := Text.Utf8.ofString (pointsText flaw result)
    match (← get).write (out.join ⟨Catalog.outputPoints⟩) bytes with
    | .error cause => refuse (.unwritablePoints cause)
    | .ok written => set written

/-- Does what the options of a call ask for, and answers what is printed. -/
def work (flaw : Option Flaw) (args : List String) : Work String := do
  let options ← Work.ofExcept (Options.read args)
  let places ← Work.ofExcept options.places
  if flaw = some .crash then refuse .crash
  if !(← get).hasDirectory places.out then refuse (.noOutputDirectory places.out)
  let p ← Work.ofExcept (Parameters.load (← get) places.parameters)
  let offsets ← Work.ofParts (appliedOffsets flaw p.offsets)
  if let some input := options.get? "-in" then workOnImage places.out p offsets ⟨input⟩
  if let some input := options.get? "-def" then workOnPoints flaw places.out p offsets ⟨input⟩
  if options.has "-jac" || options.has "-jacmat" then
    pure (linesText ["Jacobian of a translation is the identity"])
  else pure ""

def refusedCode : Nat := 1

def brokenCode : Nat := 101

def ended (warning : String) : Except Stop String → ProcessResult
  | .ok printed => ⟨.code 0, Text.Utf8.ofString printed, Text.Utf8.ofString warning⟩
  | .error (.refused r) =>
    ⟨.code refusedCode, [], Text.Utf8.ofString (warning ++ linesText [r.message])⟩
  | .error (.broken _) => ⟨.code brokenCode, [], Text.Utf8.ofString warning⟩

def program (flaw : Option Flaw) : Program := fun args t =>
  let warning :=
    if flaw = some .warning then linesText ["warning: mock diagnostics enabled"] else ""
  match banner? flaw args with
  | some printed => (ended warning (.ok printed), t)
  | none =>
    let (outcome, left) := (work flaw args).run t
    (ended warning outcome, left)

end Assay.Displacement
