import Assay.Run.Outcome

namespace Assay

structure Summary where
  passed : Nat
  failed : Nat
  outcomes : List Outcome
  deriving DecidableEq, Repr

namespace Summary

def ofOutcomes (outcomes : List Outcome) : Summary :=
  let passed := (outcomes.filter Outcome.passed).length
  ⟨passed, outcomes.length - passed, outcomes⟩

def allPassed (s : Summary) : Bool :=
  s.failed == 0

end Summary

/-- The end of one scenario of a run: its place in the catalog, and what came of it. -/
structure Completion where
  place : Nat
  result : Except Failure Outcome

namespace Completion

/-- The outcomes with their places, up to the first failure. -/
def collect : List Completion → Except Failure (List (Nat × Outcome))
  | [] => .ok []
  | c :: rest =>
    match c.result with
    | .error failure => .error failure
    | .ok outcome => (collect rest).map ((c.place, outcome) :: ·)

/-- The summary of a run whose scenarios ended in some order. -/
def summarize (completions : List Completion) : Except Failure Summary :=
  (collect completions).map fun placed =>
    Summary.ofOutcomes ((placed.mergeSort fun a b => a.1 ≤ b.1).map (·.2))

end Completion

namespace Scenario

def runEach (launch : Launcher) (c : Configuration) :
    List Scenario → FileTree → List (Except Failure Outcome) × FileTree
  | [], t => ([], t)
  | s :: rest, t =>
    let (result, t) := (s.run launch c).run t
    let (results, t) := runEach launch c rest t
    (result :: results, t)

/-- Runs scenarios one after another up to the first that fails. -/
def runUntilFailure (launch : Launcher) (c : Configuration) :
    Nat → List Scenario → FileTree → List Completion × FileTree
  | _, [], t => ([], t)
  | place, s :: rest, t =>
    match (s.run launch c).run t with
    | (.error failure, t) => ([⟨place, .error failure⟩], t)
    | (.ok outcome, t) =>
      let (completions, t) := runUntilFailure launch c (place + 1) rest t
      (⟨place, .ok outcome⟩ :: completions, t)

def runAll (launch : Launcher) (c : Configuration) (scenarios : List Scenario) : Run Summary := do
  let (completions, t) := runUntilFailure launch c 0 scenarios (← get)
  set t
  match Completion.summarize completions with
  | .error failure => throw failure
  | .ok summary => pure summary

end Scenario

end Assay
