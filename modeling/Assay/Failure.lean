import Assay.Path
import Assay.FileTree.Cause
import Assay.Image.Fault
import Assay.Decimal.Notation
import Assay.Text.Quoted

namespace Assay

/-- The settings that have no default. -/
inductive RequiredSetting where
  | executable
  | outputRoot
  deriving DecidableEq, Repr

def RequiredSetting.variable : RequiredSetting → String
  | executable => "TRANSFORMIX_EXE"
  | outputRoot => "TRANSFORMIX_TEST_TEMP_DIR"

def RequiredSetting.purpose : RequiredSetting → String
  | executable => "the transformix executable"
  | outputRoot => "a writable directory for scenario outputs"

inductive ExecutableFault where
  | notInSearchPath
  | system (cause : SystemCause)
  | notAFile
  | notExecutable
  deriving DecidableEq, Repr

def ExecutableFault.message : ExecutableFault → String
  | notInSearchPath => "cannot find binary path"
  | system cause => cause.message
  | notAFile => "not a regular file"
  | notExecutable => "missing execute permission"

inductive Exit where
  | code (n : Nat)
  | signal
  deriving DecidableEq, Repr

namespace Exit

def isSuccess (e : Exit) : Bool :=
  e == code 0

def code? : Exit → Option Nat
  | code n => some n
  | signal => none

def describe : Exit → String
  | code n => s!"exit code {n}"
  | signal => "termination by signal"

end Exit

inductive ScenarioFault where
  | badName
  | failureWithArtifacts
  | badTolerance (tolerance : Float)

def ScenarioFault.message : ScenarioFault → String
  | badName => "name must be a single path component"
  | failureWithArtifacts => "failure scenarios cannot check produced artifacts"
  | badTolerance tolerance => "invalid image tolerance " ++ Decimal.plain tolerance

inductive SettingsFault where
  | noSuchFile (path : Path)
  | badImageTolerance (tolerance : Float)
  | badTolerance (tolerance : Float)
  | unreadableScenarios (path : Path) (cause : SystemCause)
  | malformedScenarios
  | escapingDirectory (directory : String)

def SettingsFault.message : SettingsFault → String
  | noSuchFile path => "Config file '" ++ path.text ++ "' does not exist"
  | badImageTolerance tolerance =>
    "image_tolerance must be a non-negative number, got " ++ Decimal.plain tolerance
  | badTolerance tolerance =>
    "tolerance must be a finite non-negative number, got " ++ Decimal.plain tolerance
  | unreadableScenarios path cause =>
    "Failed to read scenario file '" ++ path.text ++ "': " ++ cause.message
  | malformedScenarios => "Failed to parse scenario file"
  | escapingDirectory directory =>
    s!"Output sub-directory '{directory}' must stay inside the scenario directory"

inductive Failure where
  | missingSetting (setting : RequiredSetting)
  | executable (path : Path) (fault : ExecutableFault)
  | spawn (path : Path) (cause : SystemCause)
  | requiredSuccess (command : String) (exit : Exit) (errors : String)
  | outputDirectory (path : Path) (cause : SystemCause)
  | fileRead (path : Path) (cause : SystemCause)
  | imageHeader (path : Path) (fault : Image.HeaderFault)
  | imageData (path : Path) (fault : Image.DataFault)
  | invalidScenario (name : String) (fault : ScenarioFault)
  | duplicateScenario (name : String)
  | noScenarios (filter : String)
  | settings (fault : SettingsFault)
  | malformedSettings
  | system (cause : SystemCause)
  | invalidImagePath (path : Path)

def Failure.message : Failure → String
  | missingSetting setting =>
    "Environment variable " ++ setting.variable ++ " is not set. Point it at " ++
      setting.purpose ++ " or pass the matching CLI flag"
  | executable path fault =>
    "Executable '" ++ path.text ++ "' not found or not executable: " ++ fault.message
  | spawn path cause => "Failed to spawn '" ++ path.text ++ "': " ++ cause.message
  | requiredSuccess command exit errors =>
    "'" ++ command ++ "' was required to succeed but exited with " ++ exit.describe ++
      "\nstderr: " ++ errors
  | outputDirectory path cause =>
    "Cannot create output directory '" ++ path.text ++ "': " ++ cause.message
  | fileRead path cause => "Failed to read file '" ++ path.text ++ "': " ++ cause.message
  | imageHeader path fault =>
    "Invalid MetaImage header '" ++ path.text ++ "': " ++ fault.message
  | imageData path fault => "Invalid MetaImage data for '" ++ path.text ++ "': " ++ fault.message
  | invalidScenario name fault => s!"Invalid scenario '{name}': " ++ fault.message
  | duplicateScenario name =>
    s!"Duplicate scenario name '{name}'. Every scenario needs its own output directory"
  | noScenarios filter => s!"No scenario matches filter '{filter}'"
  | settings fault => "Configuration error: " ++ fault.message
  | malformedSettings => "Invalid configuration file"
  | system cause => "IO error: " ++ cause.message
  | invalidImagePath path => "Internal error: Invalid image path '" ++ path.text ++ "'"

end Assay
