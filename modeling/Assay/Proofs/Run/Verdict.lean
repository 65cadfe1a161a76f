import Mathlib.Data.List.Forall2
import Assay.Proofs.Workspace
import Assay.Run.Outcome

namespace Assay

/-- Whether a process ended in the class that is expected of it. -/
def ExitClass.Holds : ExitClass → Exit → Prop
  | .success, exit => exit = .code 0
  | .failure, exit => exit ≠ .code 0

namespace Scenario
open Run

def workspace (c : Configuration) (s : Scenario) : Workspace :=
  ⟨c, c.outputRoot.join ⟨s.name⟩⟩

/-- What has to hold before the program of a scenario is started: its name is one, its output directory
can be made, and the directories below it are allowed and can be made in order. -/
structure Prepared (c : Configuration) (s : Scenario) (t ready : FileTree) : Prop where
  named : Workspace.isName s.name = true
  inside : ∀ relative ∈ s.outputSubdirs, Workspace.staysInside ⟨relative⟩ = true
  made : Workspace.MakesAll t ((s.workspace c).directory ::
    s.outputSubdirs.map fun relative => (s.workspace c).directory.join ⟨relative⟩) ready

/-- What has to hold for a scenario to be judged: it is prepared, its program starts, a program that has to
succeed does, and every reference of an artifact can be read in the tree that the program left. -/
structure Completes (launch : Launcher) (c : Configuration) (s : Scenario) (t : FileTree)
    (result : ProcessResult) (left : FileTree) : Prop where
  started : ∃ ready, Prepared c s t ready ∧
    launch c.executable (s.args.map (s.workspace c).expand) ready = .ok (result, left)
  required : s.exit = .success → result.exit = .code 0
  judged : ∀ a ∈ s.artifacts, ∃ v, judge (s.workspace c) left a = .ok v

/-- The mismatch of the way a program ended. A program that has to succeed has no such mismatch: another end
of it is no outcome. -/
def exitMismatch? (s : Scenario) (exit : Exit) : Option Mismatch :=
  if s.exit = .failure ∧ exit = .code 0 then
    some ⟨"exit code", "expected a non-zero exit code, got 0"⟩
  else none

def artifactMismatch? (w : Workspace) (t : FileTree) (a : Artifact) : Option Mismatch :=
  match judge w t a with
  | .error _ => none
  | .ok v => v.mismatch?

def failing (c : Configuration) (s : Scenario) (result : ProcessResult) (left : FileTree) :
    List Mismatch :=
  (s.exitMismatch? result.exit).toList ++
    (s.stdout.check "stdout" result.stdout).mismatch?.toList ++
    (s.stderr.check "stderr" result.stderr).mismatch?.toList ++
    s.artifacts.filterMap (artifactMismatch? (s.workspace c) left)

def outcome (c : Configuration) (s : Scenario) (result : ProcessResult) (left : FileTree) : Outcome where
  name := s.name
  command := (s.invocation (s.workspace c)).display
  exit := result.exit
  outputDir := (s.workspace c).directory
  mismatches := s.failing c result left

theorem judgeAll_ok {w : Workspace} {t : FileTree} {artifacts : List Artifact} {vs : List Verdict}
    (h : judgeAll w t artifacts = .ok vs) :
    (∀ a ∈ artifacts, ∃ v, judge w t a = .ok v) ∧
      vs.filterMap Verdict.mismatch? = artifacts.filterMap (artifactMismatch? w t) := by
  induction artifacts generalizing vs with
  | nil =>
    cases h
    exact ⟨by simp, rfl⟩
  | cons a rest ih =>
    unfold judgeAll at h
    cases ha : judge w t a with
    | error failure => simp [ha] at h
    | ok v =>
      cases hr : judgeAll w t rest with
      | error failure => simp [ha, hr, Except.map] at h
      | ok rest' =>
        simp only [ha, hr, Except.map, Except.ok.injEq] at h
        subst h
        obtain ⟨hall, hm⟩ := ih hr
        refine ⟨List.forall_mem_cons.mpr ⟨⟨v, ha⟩, hall⟩, ?_⟩
        simp only [List.filterMap_cons, artifactMismatch?, ha, hm]

theorem judgeAll_total {w : Workspace} {t : FileTree} {artifacts : List Artifact}
    (h : ∀ a ∈ artifacts, ∃ v, judge w t a = .ok v) : ∃ vs, judgeAll w t artifacts = .ok vs := by
  induction artifacts with
  | nil => exact ⟨[], rfl⟩
  | cons a rest ih =>
    obtain ⟨⟨v, hv⟩, hr⟩ := List.forall_mem_cons.mp h
    obtain ⟨vs, hvs⟩ := ih hr
    exact ⟨v :: vs, by simp [judgeAll, hv, hvs, Except.map]⟩

theorem isSuccess_iff {exit : Exit} : exit.isSuccess = true ↔ exit = .code 0 := by
  simp [Exit.isSuccess]

theorem mustSucceed_iff {s : Scenario} : s.mustSucceed = true ↔ s.exit = .success := by
  simp [mustSucceed]

/-- Once a program that has to succeed did, the check of its end fails only for an unexpected success. -/
theorem judgeExit_mismatch {s : Scenario} {exit : Exit} (h : s.exit = .success → exit = .code 0) :
    (judgeExit s.exit exit).mismatch? = s.exitMismatch? exit := by
  cases hs : s.exit with
  | success =>
    simp [judgeExit, exitMismatch?, hs, h hs, Exit.isSuccess, Verdict.ofBool, Verdict.mismatch?]
  | failure =>
    by_cases he : exit = .code 0 <;>
      simp [judgeExit, exitMismatch?, hs, he, Exit.isSuccess, Verdict.ofBool, Verdict.mismatch?]

theorem prepared_iff {c : Configuration} {s : Scenario} {t ready : FileTree} :
    Prepared c s t ready ↔ ∃ made, onTree (Workspace.enter c s.name) t = (.ok (s.workspace c), made) ∧
      onTree (s.outputSubdirs.forM fun relative => do
        let _ ← (s.workspace c).subdirectory relative) made = (.ok (), ready) := by
  constructor
  · rintro ⟨named, inside, hm⟩
    obtain ⟨made, first, others⟩ := Workspace.makesAll_cons.mp hm
    exact ⟨made, Workspace.enter_ok.mpr ⟨named, rfl, first⟩,
      Workspace.subdirectories_ok.mpr ⟨inside, others⟩⟩
  · rintro ⟨made, he, hs⟩
    obtain ⟨named, _, first⟩ := Workspace.enter_ok.mp he
    obtain ⟨inside, others⟩ := Workspace.subdirectories_ok.mp hs
    exact ⟨named, inside, Workspace.makesAll_cons.mpr ⟨made, first, others⟩⟩

theorem filterMap_mismatch_cons (v : Verdict) (vs : List Verdict) :
    (v :: vs).filterMap Verdict.mismatch? = v.mismatch?.toList ++ vs.filterMap Verdict.mismatch? := by
  cases v <;> rfl

theorem failing_eq {c : Configuration} {s : Scenario} {result : ProcessResult} {left : FileTree}
    {vs : List Verdict} (hreq : s.exit = .success → result.exit = .code 0)
    (hm : vs.filterMap Verdict.mismatch? =
      s.artifacts.filterMap (artifactMismatch? (s.workspace c) left)) :
    (judgeExit s.exit result.exit :: s.stdout.check "stdout" result.stdout ::
      s.stderr.check "stderr" result.stderr :: vs).filterMap Verdict.mismatch? =
      s.failing c result left := by
  rw [failing, ← judgeExit_mismatch hreq, ← hm]
  simp only [filterMap_mismatch_cons, List.append_assoc]

/-- A run of a scenario that has a result is the outcome of a scenario that was judged, and the other way round. -/
theorem onTree_run_ok {launch : Launcher} {c : Configuration} {s : Scenario} {t left : FileTree}
    {o : Outcome} :
    onTree (s.run launch c) t = (.ok o, left) ↔
      ∃ result, Completes launch c s t result left ∧ o = s.outcome c result left := by
  unfold run
  constructor
  · intro h
    obtain ⟨w, made, he, h⟩ := bind_ok.mp h
    obtain ⟨_, ready, hs, h⟩ := bind_ok.mp h
    obtain ⟨result, there, hl, h⟩ := bind_ok.mp h
    rw [onTree_bind, onTree_get] at h
    have hw : w = s.workspace c := (Workspace.enter_ok.mp he).2.1
    subst hw
    obtain ⟨hstart, hmust⟩ := Launcher.run_ok.mp hl
    have hreq : s.exit = .success → result.exit = .code 0 := fun hx =>
      isSuccess_iff.mp (hmust (mustSucceed_iff.mpr hx))
    cases hj : judgeAll (s.workspace c) there s.artifacts with
    | error failure => simp [hj] at h
    | ok artifacts =>
      obtain ⟨hall, hm⟩ := judgeAll_ok hj
      simp only [hj, failing_eq hreq hm, onTree_pure, Prod.mk.injEq, Except.ok.injEq] at h
      obtain ⟨rfl, rfl⟩ := h
      exact ⟨result, ⟨⟨ready, prepared_iff.mpr ⟨made, he, hs⟩, hstart⟩, hreq, hall⟩, rfl⟩
  · rintro ⟨result, ⟨⟨ready, hp, hstart⟩, hreq, hall⟩, rfl⟩
    obtain ⟨made, he, hs⟩ := prepared_iff.mp hp
    obtain ⟨artifacts, hj⟩ := judgeAll_total hall
    have hl : onTree (launch.run (s.invocation (s.workspace c)) s.mustSucceed) ready =
        (.ok result, left) :=
      Launcher.run_ok.mpr ⟨hstart, fun hx => isSuccess_iff.mpr (hreq (mustSucceed_iff.mp hx))⟩
    refine bind_ok.mpr ⟨_, made, he, bind_ok.mpr ⟨_, ready, hs, bind_ok.mpr ⟨result, left, hl, ?_⟩⟩⟩
    rw [onTree_bind, onTree_get]
    simp only [hj, failing_eq hreq (judgeAll_ok hj).2]
    rfl

/-- An outcome passes exactly when the program ended as expected and every check passes. -/
theorem passed_outcome {launch : Launcher} {c : Configuration} {s : Scenario} {t left : FileTree}
    {result : ProcessResult} (h : Completes launch c s t result left) :
    (s.outcome c result left).passed = true ↔
      s.exit.Holds result.exit ∧ (s.stdout.check "stdout" result.stdout).isPass = true ∧
        (s.stderr.check "stderr" result.stderr).isPass = true ∧
        ∀ a ∈ s.artifacts, judge (s.workspace c) left a = .ok .pass := by
  have hexit : s.exitMismatch? result.exit = none ↔ s.exit.Holds result.exit := by
    cases hs : s.exit with
    | success => simp [exitMismatch?, hs, ExitClass.Holds, h.required hs]
    | failure => simp [exitMismatch?, hs, ExitClass.Holds]
  have hart : s.artifacts.filterMap (artifactMismatch? (s.workspace c) left) = [] ↔
      ∀ a ∈ s.artifacts, judge (s.workspace c) left a = .ok .pass := by
    rw [List.filterMap_eq_nil_iff]
    refine forall₂_congr ?_
    intro a ha
    obtain ⟨v, hv⟩ := h.judged a ha
    cases v <;> simp [artifactMismatch?, hv, Verdict.mismatch?]
  simp [Outcome.passed, outcome, failing, hexit, hart]

/-- A scenario has an outcome exactly when it can be judged, and the outcome holds the mismatches of the
checks that fail. It passes exactly when the program ended as expected, both streams are as expected and
every artifact is. -/
theorem outcome_exact (launch : Launcher) (c : Configuration) (s : Scenario) (t : FileTree) :
    (∀ o left, onTree (s.run launch c) t = (.ok o, left) ↔
      ∃ result, Completes launch c s t result left ∧ o = s.outcome c result left) ∧
    ∀ result left, Completes launch c s t result left →
      ((s.outcome c result left).passed = true ↔
        s.exit.Holds result.exit ∧ (s.stdout.check "stdout" result.stdout).isPass = true ∧
          (s.stderr.check "stderr" result.stderr).isPass = true ∧
          ∀ a ∈ s.artifacts, judge (s.workspace c) left a = .ok .pass) :=
  ⟨fun _ _ => onTree_run_ok, fun _ _ => passed_outcome⟩

def greeter : Launcher := fun _ args t =>
  .ok (⟨.code 3, Text.Utf8.ofString (String.intercalate " " args), []⟩, t)

def plainSettings : Configuration where
  executable := ⟨"bin/greeter"⟩
  outputRoot := ⟨"outputs"⟩
  dataDir := ⟨"data"⟩
  parameterDir := ⟨"params"⟩
  expectedDir := ⟨"expected"⟩
  programName := "greeter"
  version := "1"
  imageTolerance := 0

/-- A scenario that expects a refusal, with a directory below its own. -/
def greeting : Scenario where
  name := "greeting"
  description := none
  args := ["hello", "{out}"]
  outputSubdirs := ["logs"]
  exit := .failure
  stdout := .exact "hello outputs/greeting"
  stderr := .empty
  artifacts := []

def greetingTree : FileTree where
  entries := [(["outputs"], .directory), (["outputs", "greeting"], .directory),
    (["outputs", "greeting", "logs"], .directory)]
  workingDirectory := []

theorem outcome_exact_greeting :
    Completes greeter plainSettings greeting ⟨[], []⟩
      ⟨.code 3, Text.Utf8.ofString "hello outputs/greeting", []⟩ greetingTree ∧
    (greeting.outcome plainSettings ⟨.code 3, Text.Utf8.ofString "hello outputs/greeting", []⟩
      greetingTree).passed = true := by
  have hc : Completes greeter plainSettings greeting ⟨[], []⟩
      ⟨.code 3, Text.Utf8.ofString "hello outputs/greeting", []⟩ greetingTree := by
    refine ⟨⟨greetingTree, ⟨by decide +kernel, by decide +kernel, ?_⟩, by decide +kernel⟩,
      by simp [greeting], by simp [greeting]⟩
    have hown : (FileTree.mk [] []).makeDirectories ⟨"outputs/greeting"⟩ =
        (⟨[(["outputs"], .directory), (["outputs", "greeting"], .directory)], []⟩, .ok ()) := by
      decide +kernel
    exact .cons hown (.cons (by decide +kernel) (.nil _))
  refine ⟨hc, ((outcome_exact _ _ _ _).2 _ _ hc).mpr ⟨?_, ?_, ?_, ?_⟩⟩
  · simp [greeting, ExitClass.Holds]
  · decide +kernel
  · decide +kernel
  · simp [greeting]

end Scenario

end Assay
