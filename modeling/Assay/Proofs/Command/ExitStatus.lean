import Mathlib
import Assay.Command.Program
import Assay.Proofs.Run.Schedule

namespace Assay

/-- Either all results are outcomes, or one of them is a failure. -/
theorem outcomes_or_failure (results : List (Except Failure Outcome)) :
    (∃ outcomes : List Outcome, results = outcomes.map .ok) ∨ ∃ failure, .error failure ∈ results := by
  induction results with
  | nil => exact .inl ⟨[], rfl⟩
  | cons x rest ih =>
    cases x with
    | error failure => exact .inr ⟨failure, List.mem_cons_self⟩
    | ok o =>
      rcases ih with ⟨outcomes, rfl⟩ | ⟨failure, hm⟩
      · exact .inl ⟨o :: outcomes, rfl⟩
      · exact .inr ⟨failure, List.mem_cons_of_mem _ hm⟩

/-- Running up to the first failure meets one of the failures, if there is any. -/
theorem Scenario.collect_runUntilFailure {launch : Launcher} {c : Configuration}
    {scenarios : List Scenario} {t : FileTree} {failure : Failure}
    (h : .error failure ∈ (runEach launch c scenarios t).1) (place : Nat) :
    ∃ first, .error first ∈ (runEach launch c scenarios t).1 ∧
      Completion.collect (runUntilFailure launch c place scenarios t).1 = .error first := by
  induction scenarios generalizing place t with
  | nil => cases h
  | cons s rest ih =>
    rcases hs : (s.run launch c).run t with ⟨result, left⟩
    cases result with
    | error first => exact ⟨first, by simp [runEach, hs], by simp [runUntilFailure, hs, Completion.collect]⟩
    | ok o =>
      simp only [runEach, hs, List.mem_cons, reduceCtorEq, false_or] at h
      obtain ⟨first, hm, hc⟩ := ih h (place + 1)
      refine ⟨first, by simp [runEach, hs, hm], ?_⟩
      simp [runUntilFailure, hs, Completion.collect, hc, Except.map]

namespace Command

/-- What the results of the selected scenarios come to. -/
inductive Concludes (results : List (Except Failure Outcome)) : Except Failure Conclusion → Prop where
  | passed (agree : ∀ x ∈ results, ∃ o, x = .ok o ∧ o.mismatches = []) : Concludes results (.ok .passed)
  | failed {o : Outcome} (judged : ∀ x ∈ results, ∃ o, x = .ok o) (one : .ok o ∈ results)
    (differs : o.mismatches ≠ []) : Concludes results (.ok .failed)
  | fatal {failure : Failure} (one : .error failure ∈ results) : Concludes results (.error failure)

def ofSummary (summary : Summary) : Conclusion :=
  .ofBool summary.allPassed

section Results

variable {results : List (Except Failure Outcome)} {answer : Except Failure Conclusion}

theorem Concludes.passed_iff (h : Concludes results answer) :
    answer = .ok .passed ↔ ∀ x ∈ results, ∃ o, x = .ok o ∧ o.mismatches = [] := by
  cases h with
  | passed agree => exact iff_of_true rfl agree
  | failed judged one differs =>
    refine iff_of_false nofun fun agree => ?_
    obtain ⟨o, ho, hnone⟩ := agree _ one
    cases ho
    exact differs hnone
  | fatal one =>
    refine iff_of_false nofun fun agree => ?_
    obtain ⟨o, ho, _⟩ := agree _ one
    cases ho

theorem Concludes.failed_iff (h : Concludes results answer) :
    answer = .ok .failed ↔
      (∀ x ∈ results, ∃ o, x = .ok o) ∧ ∃ o, .ok o ∈ results ∧ o.mismatches ≠ [] := by
  cases h with
  | passed agree =>
    refine iff_of_false nofun ?_
    rintro ⟨_, o, one, differs⟩
    obtain ⟨o', ho, hnone⟩ := agree _ one
    cases ho
    exact differs hnone
  | failed judged one differs => exact iff_of_true rfl ⟨judged, _, one, differs⟩
  | fatal one =>
    refine iff_of_false nofun ?_
    rintro ⟨judged, _⟩
    obtain ⟨o, ho⟩ := judged _ one
    cases ho

theorem Concludes.error_iff (h : Concludes results answer) :
    (∃ failure, answer = .error failure) ↔ ¬∀ x ∈ results, ∃ o, x = .ok o := by
  cases h with
  | passed agree =>
    refine iff_of_false nofun (not_not.mpr fun x hx => ?_)
    obtain ⟨o, ho, _⟩ := agree x hx
    exact ⟨o, ho⟩
  | failed judged one differs => exact iff_of_false nofun (not_not.mpr judged)
  | fatal one =>
    refine iff_of_true ⟨_, rfl⟩ fun judged => ?_
    obtain ⟨o, ho⟩ := judged _ one
    cases ho

theorem concludes_outcomes (outcomes : List Outcome) :
    Concludes (outcomes.map .ok) (.ok (ofSummary (Summary.ofOutcomes outcomes))) := by
  have hpassed := Summary.allPassed_ofOutcomes outcomes
  rw [ofSummary]
  cases hall : (Summary.ofOutcomes outcomes).allPassed with
  | true =>
    refine .passed ?_
    simp only [List.forall_mem_map]
    intro o ho
    exact ⟨o, rfl, List.isEmpty_iff.mp (hpassed.mp hall o ho)⟩
  | false =>
    obtain ⟨o, ho, hfailed⟩ : ∃ o ∈ outcomes, o.passed = false := by simpa [hall] using hpassed
    refine .failed ?_ (List.mem_map_of_mem ho) (List.isEmpty_eq_false_iff.mp hfailed)
    simp only [List.forall_mem_map]
    exact fun o _ => ⟨o, rfl⟩

/-- Running scenarios one after another concludes what their results come to. -/
theorem concludes_runAll (launch : Launcher) (c : Configuration) (scenarios : List Scenario)
    (t : FileTree) :
    Concludes (Scenario.runEach launch c scenarios t).1
      ((Run.onTree (Scenario.runAll launch c scenarios) t).1.map ofSummary) := by
  -- the run stops at its first failure, which is one of the failures of running every scenario
  rcases outcomes_or_failure (Scenario.runEach launch c scenarios t).1 with ⟨outcomes, hall⟩ | ⟨failure, hm⟩
  · rw [Scenario.runAll_of_runEach hall, hall]
    exact concludes_outcomes outcomes
  · obtain ⟨first, hfirst, hcollect⟩ := Scenario.collect_runUntilFailure hm 0
    rw [Scenario.onTree_runAll, Completion.summarize, hcollect]
    exact .fatal hfirst

/-- The answer of any schedule concludes what the results come to. -/
theorem concludes_answer {result : Nat → Except Failure Outcome} {jobs scenarios : Nat} {p : Pool}
    (h : Pool.Kept result jobs scenarios p) {a : Except Failure Summary} (ha : p.answer? = some a) :
    Concludes ((List.range scenarios).map result) (a.map ofSummary) := by
  cases a with
  | error failure => exact .fatal (Pool.failure_of_answer h ha)
  | ok summary =>
    obtain ⟨outcomes, hall, rfl⟩ := Pool.summary_of_answer h ha
    rw [hall]
    exact concludes_outcomes outcomes

end Results

variable {s : Setup} {r : RunRequest} {t : FileTree} {c : Configuration} {chosen : List Scenario}

/-- What a run that is asked for concludes, or the failure that ends it. -/
def Setup.conclusion (s : Setup) (r : RunRequest) (t : FileTree) : Except Failure Conclusion :=
  (Run.onTree (s.execute (.run r)) t).1.map Answer.conclusion

/-- The settings and the scenarios of a run load, and some scenario is selected. -/
structure Ready (s : Setup) (r : RunRequest) (t : FileTree) (c : Configuration)
    (chosen : List Scenario) : Prop where
  settings : Configuration.resolve t s.environment r.settings = .ok c
  loaded : ∃ all, scenarios t r.scenarios c.programName c.version = .ok all ∧
    chosen = Catalog.select r.filter all
  some : chosen ≠ []

theorem selected_ok : selected t c r = .ok chosen ↔
    (∃ all, scenarios t r.scenarios c.programName c.version = .ok all ∧
      chosen = Catalog.select r.filter all) ∧ chosen ≠ [] := by
  rw [selected]
  cases scenarios t r.scenarios c.programName c.version with
  | error failure =>
    refine iff_of_false nofun ?_
    rintro ⟨⟨all, hall, _⟩, _⟩
    cases hall
  | ok all =>
    simp only [Except.ok.injEq, exists_eq_left']
    split_ifs with hempty
    · refine iff_of_false nofun ?_
      rintro ⟨rfl, hne⟩
      exact hne (List.isEmpty_iff.mp hempty)
    · rw [Except.ok.injEq]
      constructor
      · rintro rfl
        exact ⟨rfl, fun h => hempty (List.isEmpty_iff.mpr h)⟩
      · rintro ⟨rfl, _⟩
        rfl

/-- A run concludes what its scenarios do, once its settings and its scenarios are there. -/
theorem conclusion_eq (s : Setup) (r : RunRequest) (t : FileTree) :
    s.conclusion r t = (Configuration.resolve t s.environment r.settings).bind fun c =>
      (selected t c r).bind fun chosen =>
        (Run.onTree (Scenario.runAll s.launch c chosen) t).1.map ofSummary := by
  simp only [Setup.conclusion, Setup.execute, Setup.run, Run.onTree_bind, Run.onTree_get]
  cases Configuration.resolve t s.environment r.settings with
  | error failure => rfl
  | ok c =>
    simp only [orThrow, Run.onTree_pure, Except.bind]
    cases selected t c r with
    | error failure => rfl
    | ok chosen =>
      simp only [Run.onTree_pure]
      rcases Run.onTree (Scenario.runAll s.launch c chosen) t with ⟨result, left⟩
      cases result <;> rfl

/-- A run that is ready concludes what the results of its scenarios come to. -/
theorem concludes_of_ready (h : Ready s r t c chosen) :
    Concludes (Scenario.runEach s.launch c chosen t).1 (s.conclusion r t) := by
  rw [conclusion_eq, h.settings, Except.bind, selected_ok.mpr ⟨h.loaded, h.some⟩]
  exact concludes_runAll s.launch c chosen t

/-- A run that is not ready ends with a failure. -/
theorem conclusion_of_not_ready (h : ∀ c chosen, ¬Ready s r t c chosen) :
    ∃ failure, s.conclusion r t = .error failure := by
  rw [conclusion_eq]
  cases hc : Configuration.resolve t s.environment r.settings with
  | error failure => exact ⟨failure, rfl⟩
  | ok c =>
    rw [Except.bind]
    cases hs : selected t c r with
    | error failure => exact ⟨failure, rfl⟩
    | ok chosen =>
      obtain ⟨hloaded, hne⟩ := selected_ok.mp hs
      exact absurd ⟨hc, hloaded, hne⟩ (h c chosen)

/-- What the results have to be for a conclusion decides the conclusion, once a run is ready. -/
theorem conclusion_eq_ok {x : Conclusion} {P : List (Except Failure Outcome) → Prop}
    (decides : ∀ {results answer}, Concludes results answer → (answer = .ok x ↔ P results)) :
    s.conclusion r t = .ok x ↔
      ∃ c chosen, Ready s r t c chosen ∧ P (Scenario.runEach s.launch c chosen t).1 := by
  constructor
  · intro h
    -- a run that is not ready has no conclusion at all
    by_contra hnone
    obtain ⟨failure, hf⟩ : ∃ failure, s.conclusion r t = .error failure := by
      refine conclusion_of_not_ready fun c chosen ready => hnone ⟨c, chosen, ready, ?_⟩
      exact (decides (concludes_of_ready ready)).mp h
    rw [hf] at h
    cases h
  · rintro ⟨c, chosen, ready, hP⟩
    exact (decides (concludes_of_ready ready)).mpr hP

theorem Ready.unique {c' : Configuration} {chosen' : List Scenario} (h : Ready s r t c chosen)
    (h' : Ready s r t c' chosen') : c = c' ∧ chosen = chosen' := by
  obtain rfl : c = c' := Except.ok.inj (h.settings.symm.trans h'.settings)
  have hsame := (selected_ok.mpr ⟨h.loaded, h.some⟩).symm.trans (selected_ok.mpr ⟨h'.loaded, h'.some⟩)
  exact ⟨rfl, Except.ok.inj hsame⟩

/-- A run ends with a failure unless it is ready and every selected scenario has an outcome. -/
theorem conclusion_error : (∃ failure, s.conclusion r t = .error failure) ↔
    ¬∃ c chosen, Ready s r t c chosen ∧
      ∀ x ∈ (Scenario.runEach s.launch c chosen t).1, ∃ o, x = .ok o := by
  by_cases hready : ∃ c chosen, Ready s r t c chosen
  · obtain ⟨c, chosen, ready⟩ := hready
    rw [(concludes_of_ready ready).error_iff, not_iff_not]
    constructor
    · exact fun judged => ⟨c, chosen, ready, judged⟩
    · rintro ⟨c', chosen', ready', judged⟩
      obtain ⟨rfl, rfl⟩ := ready.unique ready'
      exact judged
  · refine iff_of_true (conclusion_of_not_ready fun c chosen ready => hready ⟨c, chosen, ready⟩) ?_
    rintro ⟨c, chosen, ready, _⟩
    exact hready ⟨c, chosen, ready⟩

/-- Neither the look of a report nor its form changes the conclusion. -/
theorem conclusion_of_report (palette : Report.Palette) (verbose json : Bool) :
    Setup.conclusion { s with palette := palette, verbose := verbose } { r with json := json } t =
      s.conclusion r t := by
  rw [conclusion_eq, conclusion_eq]
  rfl

def statusOf : Except Failure Conclusion → Nat
  | .ok conclusion => conclusion.code
  | .error _ => fatalCode

theorem exit_answerEnd (outcome : Except Failure Answer) :
    (answerEnd outcome).exit = .code (statusOf (outcome.map Answer.conclusion)) := by
  cases outcome <;> rfl

theorem exit_of_program {args : List String} {verbose : Bool}
    (h : read .program args = .ok ⟨verbose, .run r⟩) :
    (program s args t).1.exit = .code (statusOf (s.conclusion r t)) := by
  have hverbose : Setup.conclusion { s with verbose := verbose } r t = s.conclusion r t :=
    conclusion_of_report s.palette verbose r.json
  rw [program, h, ← hverbose]
  exact exit_answerEnd _

/-- The exit code of a run tells what it has concluded. -/
theorem exit_iff {args : List String} {verbose : Bool}
    (h : read .program args = .ok ⟨verbose, .run r⟩) :
    ((program s args t).1.exit = .code 0 ↔ s.conclusion r t = .ok .passed) ∧
    ((program s args t).1.exit = .code 1 ↔ s.conclusion r t = .ok .failed) ∧
    ((program s args t).1.exit = .code 2 ↔ ∃ failure, s.conclusion r t = .error failure) := by
  rw [exit_of_program h]
  rcases s.conclusion r t with failure | conclusion
  · simp [statusOf, fatalCode]
  · cases conclusion <;> simp [statusOf, Conclusion.code]

theorem conclusion_of_no_selection {all : List Scenario}
    (hc : Configuration.resolve t s.environment r.settings = .ok c)
    (hall : scenarios t r.scenarios c.programName c.version = .ok all)
    (hnone : Catalog.select r.filter all = []) :
    s.conclusion r t = .error (.noScenarios (r.filter.getD "")) := by
  rw [conclusion_eq, hc, Except.bind, selected, hall]
  simp only [hnone]
  rfl

/-- The exit status of a run. It is zero exactly when every selected scenario has an outcome without
mismatches, one exactly when all have outcomes and some outcome has a mismatch, and two in every other case; a
run that selects nothing is one of those. No report changes it, and however the scenarios share their slots, of
which there are as many as `Pool.slots` assumes, the answer is what their results come to. -/
theorem exit_status_exact (s : Setup) (r : RunRequest) (t : FileTree) :
    (s.conclusion r t = .ok .passed ↔ ∃ c chosen, Ready s r t c chosen ∧
      ∀ x ∈ (Scenario.runEach s.launch c chosen t).1, ∃ o, x = .ok o ∧ o.mismatches = []) ∧
    (s.conclusion r t = .ok .failed ↔ ∃ c chosen, Ready s r t c chosen ∧
      (∀ x ∈ (Scenario.runEach s.launch c chosen t).1, ∃ o, x = .ok o) ∧
      ∃ o, .ok o ∈ (Scenario.runEach s.launch c chosen t).1 ∧ o.mismatches ≠ []) ∧
    ((∃ failure, s.conclusion r t = .error failure) ↔ ¬∃ c chosen, Ready s r t c chosen ∧
      ∀ x ∈ (Scenario.runEach s.launch c chosen t).1, ∃ o, x = .ok o) ∧
    (∀ args verbose, read .program args = .ok ⟨verbose, .run r⟩ →
      ((program s args t).1.exit = .code 0 ↔ s.conclusion r t = .ok .passed) ∧
      ((program s args t).1.exit = .code 1 ↔ s.conclusion r t = .ok .failed) ∧
      ((program s args t).1.exit = .code 2 ↔ ∃ failure, s.conclusion r t = .error failure)) ∧
    (∀ c all, Configuration.resolve t s.environment r.settings = .ok c →
      scenarios t r.scenarios c.programName c.version = .ok all → Catalog.select r.filter all = [] →
      s.conclusion r t = .error (.noScenarios (r.filter.getD ""))) ∧
    (∀ palette verbose json,
      Setup.conclusion { s with palette := palette, verbose := verbose } { r with json := json } t =
        s.conclusion r t) ∧
    ∀ c chosen, Ready s r t c chosen → ∀ (result : Nat → Except Failure Outcome) (cores : Nat),
      Nonempty (Pool.Schedule result (r.jobs.getD cores) chosen.length) ∧
      ∀ schedule : Pool.Schedule result (r.jobs.getD cores) chosen.length,
        ∃ k a, (∀ i < k, (schedule.pool i).answer? = none) ∧ (schedule.pool k).answer? = some a ∧
          Concludes ((List.range chosen.length).map result) (a.map ofSummary) := by
  -- `P` is given, as it cannot be found by unification
  refine ⟨conclusion_eq_ok (P := fun results => ∀ x ∈ results, ∃ o, x = .ok o ∧ o.mismatches = [])
      Concludes.passed_iff,
    conclusion_eq_ok (P := fun results => (∀ x ∈ results, ∃ o, x = .ok o) ∧
      ∃ o, .ok o ∈ results ∧ o.mismatches ≠ []) Concludes.failed_iff,
    conclusion_error, fun _ _ => exit_iff, fun _ _ => conclusion_of_no_selection,
    conclusion_of_report, ?_⟩
  intro c chosen _ result cores
  refine ⟨Pool.Schedule.nonempty _ _ _, fun schedule => ?_⟩
  obtain ⟨k, a, hfirst, ha⟩ := schedule.answered
  exact ⟨k, a, hfirst, ha, concludes_answer (Pool.reachable_kept (schedule.reachable hfirst)) ha⟩

def refuser : Launcher := fun _ _ t =>
  .ok (⟨.code 1, [], Text.Utf8.ofString (Catalog.missingOption "-tp")⟩, t)

def refusalSetup : Setup where
  launch := refuser
  environment := ⟨none, none, ⟨[]⟩, ⟨"settings"⟩⟩
  palette := .plain
  verbose := false

def refusalFlags : Overrides :=
  ⟨some ⟨"./tool"⟩, some ⟨"outputs"⟩, none, none, none, none⟩

def refusalRequest (filter : String) : RunRequest where
  settings := refusalFlags
  scenarios := none
  filter := some filter
  jobs := none
  json := false

def refusalSettings : Configuration where
  executable := ⟨"./tool"⟩
  outputRoot := ⟨"outputs"⟩
  dataDir := Configuration.defaultDataDir
  parameterDir := Configuration.defaultParameterDir
  expectedDir := Configuration.defaultExpectedDir
  programName := Configuration.defaultProgramName
  version := Configuration.defaultVersion
  imageTolerance := Configuration.defaultTolerance

def refusalTree : FileTree where
  entries := [(["tool"], .file [] 0o755)]
  workingDirectory := []

def refusalScenarios (filter : String) : List Scenario :=
  Catalog.select (some filter)
    (Catalog.builtin Configuration.defaultProgramName Configuration.defaultVersion)

theorem resolve_refusalFlags :
    Configuration.resolve refusalTree refusalSetup.environment refusalFlags = .ok refusalSettings := by
  rfl

theorem outcome_of_map (results : List (Except Failure Outcome)) (passes : Bool)
    (h : results.map (fun x => x.toOption.map Outcome.passed) = [some passes]) :
    ∃ o, results = [.ok o] ∧ o.passed = passes := by
  obtain ⟨x, rfl, hx⟩ := List.map_eq_singleton_iff.mp h
  cases x with
  | error failure => cases hx
  | ok o => exact ⟨o, rfl, Option.some.inj hx⟩

theorem exit_status_of_refusal :
    (program refusalSetup ["run", "--exe", "./tool", "--output-root", "outputs", "--filter",
      "missing_tp"] refusalTree).1.exit = .code 0 ∧
    refusalSetup.conclusion (refusalRequest "missing_out") refusalTree = .ok .failed ∧
    refusalSetup.conclusion (refusalRequest "no such name") refusalTree =
      .error (.noScenarios "no such name") ∧
    ∃ schedule : Pool.Schedule (fun _ => .error .malformedSettings) 4
        (refusalScenarios "missing_tp").length,
      ∃ k a, (schedule.pool k).answer? = some a ∧
        Concludes ((List.range (refusalScenarios "missing_tp").length).map
          fun _ => .error .malformedSettings) (a.map ofSummary) := by
  have status := fun filter => exit_status_exact refusalSetup (refusalRequest filter) refusalTree
  have ready : ∀ filter, (refusalScenarios filter).isEmpty = false →
      Ready refusalSetup (refusalRequest filter) refusalTree refusalSettings (refusalScenarios filter) :=
    fun filter some => ⟨resolve_refusalFlags, ⟨_, rfl, rfl⟩, List.isEmpty_eq_false_iff.mp some⟩
  have hone := ready "missing_tp" (by decide +kernel)
  have hother := ready "missing_out" (by decide +kernel)
  refine ⟨?_, ?_, ?_, ?_⟩
  · obtain ⟨o, hresults, hpassed⟩ := outcome_of_map
      (Scenario.runEach refuser refusalSettings (refusalScenarios "missing_tp") refusalTree).1 true
      (by decide +kernel)
    refine ((status "missing_tp").2.2.2.1 _ false (by rfl)).1.mpr ((status "missing_tp").1.mpr
      ⟨_, _, hone, ?_⟩)
    intro x hx
    obtain rfl := List.mem_singleton.mp (hresults ▸ hx)
    exact ⟨o, rfl, List.isEmpty_iff.mp hpassed⟩
  · obtain ⟨o, hresults, hfailed⟩ := outcome_of_map
      (Scenario.runEach refuser refusalSettings (refusalScenarios "missing_out") refusalTree).1 false
      (by decide +kernel)
    refine (status "missing_out").2.1.mpr ⟨_, _, hother, ?_, o, ?_, List.isEmpty_eq_false_iff.mp hfailed⟩
    · intro x hx
      exact ⟨o, List.mem_singleton.mp (hresults ▸ hx)⟩
    · exact hresults ▸ List.mem_singleton_self _
  · exact (status "no such name").2.2.2.2.1 _ _ resolve_refusalFlags rfl
      (List.isEmpty_iff.mp (by decide +kernel))
  · obtain ⟨⟨schedule⟩, hanswer⟩ := (status "missing_tp").2.2.2.2.2.2 _ _ hone
      (fun _ => .error .malformedSettings) 4
    obtain ⟨k, a, _, ha, hconcludes⟩ := hanswer schedule
    exact ⟨schedule, k, a, ha, hconcludes⟩

end Command

end Assay
