import Assay.Comparison.Images
import Assay.Scenario.Basic
import Assay.Workspace

namespace Assay

structure Outcome where
  name : String
  command : String
  exit : Exit
  outputDir : Path
  mismatches : List Mismatch
  deriving DecidableEq, Repr

def Outcome.passed (o : Outcome) : Bool :=
  o.mismatches.isEmpty

namespace Scenario

def judgeExit (expected : ExitClass) (exit : Exit) : Verdict :=
  match expected with
  | .success => .ofBool exit.isSuccess "exit code" ("expected 0, got " ++ exit.describe)
  | .failure => .ofBool (!exit.isSuccess) "exit code" "expected a non-zero exit code, got 0"

/-- The check of a produced file whose content is a text. -/
def judgeText (t : FileTree) (check : String) (produced : Path) (text : String) : Verdict :=
  match t.read produced with
  | .error cause => Comparison.unreadable check "file" produced cause
  | .ok content => Comparison.exactText check content text

/-- The check of an artifact. It fails only if a reference cannot be read. -/
def judge (w : Workspace) (t : FileTree) (a : Artifact) : Except Failure Verdict :=
  let check := a.produced
  let produced := w.outputPath check
  match a with
  | .exactText _ text => .ok (judgeText t check produced text)
  | .exactFile _ expected =>
    (Comparison.sameFiles t produced (w.expectedPath expected)).map (Verdict.relabel check)
  | .image _ expected tolerance =>
    (Comparison.sameImageFiles t produced (w.expectedPath expected)
      (tolerance.getD w.configuration.imageTolerance)).map (Verdict.relabel check)

def judgeAll (w : Workspace) (t : FileTree) : List Artifact → Except Failure (List Verdict)
  | [] => .ok []
  | a :: rest =>
    match judge w t a with
    | .error failure => .error failure
    | .ok v => (judgeAll w t rest).map (v :: ·)

def invocation (s : Scenario) (w : Workspace) : Invocation :=
  ⟨w.configuration.executable, s.args.map w.expand⟩

def run (launch : Launcher) (c : Configuration) (s : Scenario) : Run Outcome := do
  let w ← Workspace.enter c s.name
  s.outputSubdirs.forM fun relative => do
    let _ ← w.subdirectory relative
  let invocation := s.invocation w
  let result ← launch.run invocation s.mustSucceed
  match judgeAll w (← get) s.artifacts with
  | .error failure => throw failure
  | .ok artifacts =>
    let verdicts := judgeExit s.exit result.exit :: s.stdout.check "stdout" result.stdout ::
      s.stderr.check "stderr" result.stderr :: artifacts
    pure ⟨s.name, invocation.display, result.exit, w.directory,
      verdicts.filterMap Verdict.mismatch?⟩

end Scenario

end Assay
