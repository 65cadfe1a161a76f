import Assay.Comparison.Images
import Assay.Scenario.Codec
import Assay.Yaml.Node

namespace Assay.Scenario

def badTolerance? : Artifact → Option Float
  | .image _ _ (some x) => if Comparison.isTolerance x then none else some x
  | _ => none

def fault? (seen : List String) (s : Scenario) : Option Failure :=
  if seen.contains s.name then some (.duplicateScenario s.name)
  else if s.exit = .failure ∧ !s.artifacts.isEmpty then
    some (.invalidScenario s.name .failureWithArtifacts)
  else (s.artifacts.findSome? badTolerance?).map fun x =>
    .invalidScenario s.name (.badTolerance x)

/-- Checks the scenarios behind those with certain names. -/
def validateFrom (seen : List String) : List Scenario → Except Failure Unit
  | [] => .ok ()
  | s :: rest =>
    match fault? seen s with
    | some failure => .error failure
    | none => validateFrom (s.name :: seen) rest

def validate (scenarios : List Scenario) : Except Failure Unit :=
  validateFrom [] scenarios

def load (t : FileTree) (path : Path) : Except Failure (List Scenario) :=
  match t.readText path with
  | .error cause => .error (.settings (.unreadableScenarios path cause))
  | .ok content =>
    match (Yaml.read? content).bind decodeFile with
    | none => .error (.settings .malformedScenarios)
    | some scenarios =>
      match validate scenarios with
      | .error failure => .error failure
      | .ok () => .ok scenarios

end Assay.Scenario
