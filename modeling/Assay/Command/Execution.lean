import Assay.Command.Basic
import Assay.Report.Json
import Assay.Report.Lines
import Assay.Scenario.Catalog
import Assay.Scenario.Validation

namespace Assay.Command

inductive Conclusion where
  | passed
  | failed
  deriving DecidableEq, Repr

def Conclusion.ofBool (holds : Bool) : Conclusion :=
  if holds then passed else failed

/-- What a command answers: a conclusion, and what it prints. -/
structure Answer where
  conclusion : Conclusion
  printed : String
  deriving DecidableEq, Repr

/-- What commands are done with: a way to start programs, the environment, and the look of reports.
-/
structure Setup where
  launch : Launcher
  environment : Environment
  palette : Report.Palette
  verbose : Bool

def orThrow {α : Type} : Except Failure α → Run α
  | .ok x => pure x
  | .error failure => throw failure

def scenarios (t : FileTree) (file : Option Path) (programName version : String) :
    Except Failure (List Scenario) :=
  match file with
  | some path => Scenario.load t path
  | none => .ok (Catalog.builtin programName version)

/-- The scenarios that a run is asked for. There is at least one. -/
def selected (t : FileTree) (c : Configuration) (r : RunRequest) :
    Except Failure (List Scenario) :=
  match scenarios t r.scenarios c.programName c.version with
  | .error failure => .error failure
  | .ok all =>
    let chosen := Catalog.select r.filter all
    if chosen.isEmpty then .error (.noScenarios (r.filter.getD "")) else .ok chosen

def Setup.runReport (s : Setup) (json : Bool) (summary : Summary) : String :=
  if json then Report.Json.summary summary
  else Report.summary s.palette s.verbose summary

def Setup.run (s : Setup) (r : RunRequest) : Run Answer := do
  let c ← orThrow (Configuration.resolve (← get) s.environment r.settings)
  let chosen ← orThrow (selected (← get) c r)
  let summary ← Scenario.runAll s.launch c chosen
  pure ⟨.ofBool summary.allPassed, s.runReport r.json summary⟩

def Setup.list (s : Setup) (t : FileTree) (file settings : Option Path) : Except Failure Answer := do
  let f ← SettingsFile.load t s.environment.userSettings settings
  let all ← scenarios t file (f.programName.getD Configuration.defaultProgramName)
    (f.version.getD Configuration.defaultVersion)
  pure ⟨.passed, Report.catalog s.palette all⟩

def Setup.verdictAnswer (s : Setup) (v : Verdict) : Answer :=
  ⟨.ofBool v.isPass, Report.verdict s.palette v⟩

/-- The tolerance that is given, or else that of the settings. It has to be one. -/
def Setup.chosenTolerance (s : Setup) (t : FileTree) (given : Option Float) : Except Failure Float :=
  let chosen : Except Failure Float := match given with
    | some x => .ok x
    | none => (SettingsFile.load t s.environment.userSettings none).map SettingsFile.imageTolerance
  match chosen with
  | .error failure => .error failure
  | .ok x => if Comparison.isTolerance x then .ok x else .error (.settings (.badTolerance x))

def Setup.compareImages (s : Setup) (t : FileTree) (actual expected : Path) (tolerance : Option Float) :
    Except Failure Answer := do
  let x ← s.chosenTolerance t tolerance
  let v ← Comparison.sameImageFiles t actual expected x
  pure (s.verdictAnswer v)

def Setup.compareFiles (s : Setup) (t : FileTree) (actual expected : Path) : Except Failure Answer :=
  (Comparison.sameFiles t actual expected).map s.verdictAnswer

def inspectImage (t : FileTree) (path : Path) : Except Failure Answer :=
  (Image.read t path).map fun image => ⟨.passed, Report.image path image⟩

/-- Does what a command asks for. Only a run changes the file tree. -/
def Setup.execute (s : Setup) : Command → Run Answer
  | .run request => s.run request
  | .list file settings => do orThrow (s.list (← get) file settings)
  | .compareImages actual expected tolerance => do
    orThrow (s.compareImages (← get) actual expected tolerance)
  | .compareFiles actual expected => do orThrow (s.compareFiles (← get) actual expected)
  | .inspect path => do orThrow (inspectImage (← get) path)

end Assay.Command
