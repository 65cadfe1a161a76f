import Assay.Comparison.Texts

namespace Assay

/-- How a program is expected to end. Only zero and other exit codes are told apart. -/
inductive ExitClass where
  | success
  | failure
  deriving DecidableEq, Repr

/-- A file that a program produces, and what it is compared with. -/
inductive Artifact where
  | exactText (produced text : String)
  | exactFile (produced expected : String)
  | image (produced expected : String) (tolerance : Option Float)

def Artifact.produced : Artifact → String
  | exactText produced _ => produced
  | exactFile produced _ => produced
  | image produced _ _ => produced

/-- One way to call a program, with what is expected of it. A scenario owns the output directory
that has its name; its texts may hold placeholders for the directories of a run. -/
structure Scenario where
  name : String
  description : Option String
  args : List String
  outputSubdirs : List String
  exit : ExitClass
  stdout : StreamExpectation
  stderr : StreamExpectation
  artifacts : List Artifact

/-- Whether any other end than a success ends the run. -/
def Scenario.mustSucceed (s : Scenario) : Bool :=
  s.exit == .success

end Assay
