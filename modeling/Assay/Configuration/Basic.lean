import Assay.Comparison.Images
import Assay.Value.Record
import Assay.Toml.Document

namespace Assay

/-- The settings that all scenarios of a run share. -/
structure Configuration where
  executable : Path
  outputRoot : Path
  dataDir : Path
  parameterDir : Path
  expectedDir : Path
  programName : String
  version : String
  imageTolerance : Float

structure SettingsFile where
  executable : Option Path
  outputRoot : Option Path
  dataDir : Option Path
  parameterDir : Option Path
  expectedDir : Option Path
  programName : Option String
  version : Option String
  imageTolerance : Float

namespace Configuration

def defaultTolerance : Float := 3.0878078e-16

def defaultProgramName : String := "transformix"

def defaultVersion : String := "5.0.1"

def defaultDataDir : Path := ⟨"Testing/Data"⟩

def defaultParameterDir : Path := ⟨"Testing/PythonTests/TransformParameters"⟩

def defaultExpectedDir : Path := ⟨"Testing/PythonTests/ExpectedOutput"⟩

/-- Where the settings file is, below the directory of a user's settings. -/
def defaultFile (userSettings : Path) : Path :=
  userSettings.join ⟨"transformix-conformance/config.toml"⟩

end Configuration

namespace SettingsFile

def empty : SettingsFile :=
  ⟨none, none, none, none, none, none, none, Configuration.defaultTolerance⟩

def tolerance? : Value → Option Float
  | .moment _ => some Configuration.defaultTolerance
  | .list [] => some Configuration.defaultTolerance
  | .list (x :: _) => x.number?
  | .table entries => do
    let fields ← (Value.table entries).record? ["image_tolerance"]
    Value.optional fields "image_tolerance" Configuration.defaultTolerance Value.number?
  | _ => none

def text? (fields : Value.Fields) (name : String) : Option (Option String) :=
  Value.optional fields name none fun v => v.text?.map some

def path? (fields : Value.Fields) (name : String) : Option (Option Path) :=
  (text? fields name).map fun s => s.map Path.mk

def decode (v : Value) : Option SettingsFile := do
  let fields ← v.record? ["executable", "output_root", "data_dir", "parameter_dir",
    "expected_dir", "program_name", "version", "comparison"]
  let executable ← path? fields "executable"
  let outputRoot ← path? fields "output_root"
  let dataDir ← path? fields "data_dir"
  let parameterDir ← path? fields "parameter_dir"
  let expectedDir ← path? fields "expected_dir"
  let programName ← text? fields "program_name"
  let version ← text? fields "version"
  let tolerance ←
    Value.optional fields "comparison" Configuration.defaultTolerance tolerance?
  pure ⟨executable, outputRoot, dataDir, parameterDir, expectedDir, programName, version,
    tolerance⟩

/-- Reads a settings file. A file that was asked for has to exist; the default one need not. -/
def load (t : FileTree) (userSettings : Path) (asked : Option Path) :
    Except Failure SettingsFile :=
  let path := asked.getD (Configuration.defaultFile userSettings)
  if !t.has path then
    match asked with
    | some p => .error (.settings (.noSuchFile p))
    | none => .ok empty
  else
    match t.readText path with
    | .error cause => .error (.fileRead path cause)
    | .ok content =>
      match (Toml.read? content).bind decode with
      | none => .error .malformedSettings
      | some file => .ok file

end SettingsFile

end Assay
