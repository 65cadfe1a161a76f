import Assay.Configuration.Basic
import Assay.Configuration.Lookup

namespace Assay

structure Overrides where
  executable : Option Path
  outputRoot : Option Path
  dataDir : Option Path
  parameterDir : Option Path
  expectedDir : Option Path
  file : Option Path
  deriving DecidableEq, Repr

/-- What the environment of a run gives: two variables, the search path, and the directory of the
user's settings. -/
structure Environment where
  executable : Option String
  outputRoot : Option String
  searchPath : SearchPath
  userSettings : Path
  deriving DecidableEq, Repr

/-- The value of the variable of a required setting. -/
def Environment.get? (e : Environment) : RequiredSetting → Option String
  | .executable => e.executable
  | .outputRoot => e.outputRoot

namespace Configuration

/-- A required setting: from a flag, a variable that is not empty, or the file. -/
def requiredPath (e : Environment) (setting : RequiredSetting) (flag file : Option Path) :
    Except Failure Path :=
  let given := ((e.get? setting).filter fun s => s ≠ "").map Path.mk
  match flag <|> given <|> file with
  | none => .error (.missingSetting setting)
  | some p => .ok p

/-- A setting with a default: from a flag or the file. -/
def path (flag file : Option Path) (default : Path) : Path :=
  (flag <|> file).getD default

def resolveWith (t : FileTree) (e : Environment) (o : Overrides) (file : SettingsFile) :
    Except Failure Configuration := do
  let executable ← requiredPath e .executable o.executable file.executable
  let outputRoot ← requiredPath e .outputRoot o.outputRoot file.outputRoot
  if !Comparison.isTolerance file.imageTolerance then
    throw (.settings (.badImageTolerance file.imageTolerance))
  let program ← resolveExecutable t e.searchPath executable
  pure
    { executable := program
      outputRoot := outputRoot
      dataDir := path o.dataDir file.dataDir defaultDataDir
      parameterDir := path o.parameterDir file.parameterDir defaultParameterDir
      expectedDir := path o.expectedDir file.expectedDir defaultExpectedDir
      programName := file.programName.getD defaultProgramName
      version := file.version.getD defaultVersion
      imageTolerance := file.imageTolerance }

def resolve (t : FileTree) (e : Environment) (o : Overrides) : Except Failure Configuration :=
  match SettingsFile.load t e.userSettings o.file with
  | .error failure => .error failure
  | .ok file => resolveWith t e o file

end Configuration

end Assay
