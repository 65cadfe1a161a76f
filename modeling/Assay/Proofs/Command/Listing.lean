import Assay.Proofs.Command.ExitStatus
import Assay.Proofs.Configuration
import Assay.Proofs.Run.Verdict

namespace Assay

namespace Scenario

/-- A result is named for a scenario: if it is an outcome, that has the scenario's name. -/
def Names (result : Except Failure Outcome) (s : Scenario) : Prop :=
  ∀ o, result = .ok o → o.name = s.name

/-- The outcome of a scenario has its name, whatever program is started and on whatever tree. -/
theorem names_run (launch : Launcher) (c : Configuration) (s : Scenario) (t : FileTree) :
    Names (Run.onTree (s.run launch c) t).1 s := by
  intro o h
  obtain ⟨result, -, rfl⟩ := onTree_run_ok.mp (Prod.ext h rfl)
  rfl

theorem names_runEach (launch : Launcher) (c : Configuration) (scenarios : List Scenario) (t : FileTree) :
    List.Forall₂ Names (runEach launch c scenarios t).1 scenarios := by
  induction scenarios generalizing t with
  | nil => exact .nil
  | cons s rest ih => exact .cons (names_run launch c s t) (ih _)

/-- When all results are outcomes, these have the names of the scenarios, in order. -/
theorem map_name_eq {outcomes : List Outcome} {scenarios : List Scenario}
    (h : List.Forall₂ Names (outcomes.map .ok) scenarios) :
    outcomes.map Outcome.name = scenarios.map Scenario.name := by
  induction outcomes generalizing scenarios with
  | nil =>
    cases h
    rfl
  | cons o rest ih =>
    cases h with
    | cons hfirst hrest => simp [hfirst o rfl, ih hrest]

/-- The outcomes of a run have the names of its scenarios, in order. -/
theorem map_name_of_runAll {launch : Launcher} {c : Configuration} {scenarios : List Scenario}
    {t : FileTree} {summary : Summary}
    (h : (Run.onTree (runAll launch c scenarios) t).1 = .ok summary) :
    summary.outcomes.map Outcome.name = scenarios.map Scenario.name := by
  have hnames := names_runEach launch c scenarios t
  rcases outcomes_or_failure (runEach launch c scenarios t).1 with ⟨outcomes, hall⟩ | ⟨failure, hm⟩
  · rw [runAll_of_runEach hall] at h
    rw [hall] at hnames
    cases h
    exact map_name_eq hnames
  · -- a failure would have ended the run without a summary
    obtain ⟨first, -, hcollect⟩ := collect_runUntilFailure hm 0
    rw [onTree_runAll, Completion.summarize, hcollect] at h
    cases h

end Scenario

def Catalog.selectNames (filter : Option String) (names : List String) : List String :=
  match filter with
  | none => names
  | some text => names.filter fun name => Text.contains name text

theorem Catalog.map_name_select (filter : Option String) (scenarios : List Scenario) :
    (select filter scenarios).map Scenario.name = selectNames filter (scenarios.map Scenario.name) := by
  cases filter with
  | none => rfl
  | some text => simp [select, selectNames, List.filter_map, Function.comp_def]

namespace Report

/-- A line of a list shows a name: the painted name comes first, and at most a painted description behind it. -/
inductive NameLine (p : Palette) (name : String) : String → Prop
  | alone : NameLine p name (paint p .boldWhite name ++ "\n")
  | described (description : String) :
      NameLine p name (paint p .boldWhite name ++ "  " ++ paint p .dimmed description ++ "\n")

theorem nameLine_scenarioLine (p : Palette) (s : Scenario) : NameLine p s.name (scenarioLine p s) := by
  rw [scenarioLine]
  cases s.description with
  | none => exact .alone
  | some description => exact .described description

/-- A list has one line for each scenario, in order, and nothing else. -/
theorem catalog_lines (p : Palette) (scenarios : List Scenario) :
    ∃ lines, catalog p scenarios = String.join lines ∧
      List.Forall₂ (NameLine p) (scenarios.map Scenario.name) lines := by
  refine ⟨scenarios.map (scenarioLine p), rfl, ?_⟩
  rw [List.forall₂_map_left_iff, List.forall₂_map_right_iff, List.forall₂_same]
  exact fun s _ => nameLine_scenarioLine p s

example : catalog .plain [{ Scenario.greeting with description := some "polite" }, Scenario.greeting] =
    "greeting  polite\ngreeting\n" := by decide

end Report

namespace Command

variable {s : Setup} {r : RunRequest} {t : FileTree} {c : Configuration} {chosen : List Scenario}

def Setup.listed (s : Setup) (t : FileTree) (file settings : Option Path) :
    Except Failure (List Scenario) := do
  let f ← SettingsFile.load t s.environment.userSettings settings
  scenarios t file (f.programName.getD Configuration.defaultProgramName)
    (f.version.getD Configuration.defaultVersion)

/-- A list shows names: it ends well, and prints one line for each of them, in order. -/
def Setup.Shows (s : Setup) (t : FileTree) (file settings : Option Path) (names : List String) : Prop :=
  ∃ lines, List.Forall₂ (Report.NameLine s.palette) names lines ∧
    Run.onTree (s.execute (.list file settings)) t = (.ok ⟨.passed, String.join lines⟩, t) ∧
    ∀ args verbose, read .program args = .ok ⟨verbose, .list file settings⟩ →
      program s args t = (⟨.code 0, Text.Utf8.ofString (String.join lines), []⟩, t)

def Setup.summary (s : Setup) (r : RunRequest) (t : FileTree) : Except Failure Summary := do
  let c ← Configuration.resolve t s.environment r.settings
  let chosen ← selected t c r
  (Run.onTree (Scenario.runAll s.launch c chosen) t).1

/-- Results that the scenarios of a run can have when they share the tree: each is that of its own
scenario, which has found some tree and some behaviour of programs. -/
def Shared (c : Configuration) (chosen : List Scenario) (result : Nat → Except Failure Outcome) : Prop :=
  ∀ (place : Nat) (s : Scenario), chosen[place]? = some s →
    ∃ launch t, result place = (Run.onTree (s.run launch c) t).1

theorem list_answer (s : Setup) (t : FileTree) (file settings : Option Path) :
    Run.onTree (s.execute (.list file settings)) t =
      ((s.listed t file settings).map fun all => ⟨.passed, Report.catalog s.palette all⟩, t) := by
  simp only [Setup.execute, Run.onTree_bind, Run.onTree_get, Setup.list, Setup.listed]
  cases SettingsFile.load t s.environment.userSettings settings with
  | error failure => rfl
  | ok f =>
    change Run.onTree (orThrow (scenarios t file _ _ >>= _)) t = ((scenarios t file _ _).map _, t)
    cases scenarios t file (f.programName.getD Configuration.defaultProgramName)
      (f.version.getD Configuration.defaultVersion) <;> rfl

/-- A list shows the names of its scenarios, also when more is asked to be said. -/
theorem shows_of_listed {file settings : Option Path} {all : List Scenario}
    (h : s.listed t file settings = .ok all) : s.Shows t file settings (all.map Scenario.name) := by
  obtain ⟨lines, hlines, hnames⟩ := Report.catalog_lines s.palette all
  have hanswer : Run.onTree (s.execute (.list file settings)) t = (.ok ⟨.passed, String.join lines⟩, t) := by
    rw [list_answer, h, ← hlines]
    rfl
  refine ⟨lines, hnames, hanswer, fun args verbose hargs => ?_⟩
  have hverbose : ({ s with verbose := verbose }.execute (.list file settings)).run t =
      (.ok ⟨.passed, String.join lines⟩, t) := hanswer
  rw [program, hargs]
  simp only [hverbose]
  rfl

theorem run_answer (s : Setup) (r : RunRequest) (t : FileTree) :
    (Run.onTree (s.execute (.run r)) t).1 =
      (s.summary r t).map fun summary => ⟨.ofBool summary.allPassed, s.runReport r.json summary⟩ := by
  simp only [Setup.summary, Setup.execute, Setup.run, Run.onTree_bind, Run.onTree_get]
  cases Configuration.resolve t s.environment r.settings with
  | error failure => rfl
  | ok c =>
    simp only [orThrow, Run.onTree_pure]
    change _ = Except.map _ (selected t c r >>= _)
    cases selected t c r with
    | error failure => rfl
    | ok chosen =>
      simp only [Run.onTree_pure]
      change _ = Except.map _ (Run.onTree (Scenario.runAll s.launch c chosen) t).1
      rcases Run.onTree (Scenario.runAll s.launch c chosen) t with ⟨result, left⟩
      cases result <;> rfl

/-- A run with a summary was ready, and the summary is that of the scenarios that it selected. -/
theorem ready_of_summary {summary : Summary} (h : s.summary r t = .ok summary) :
    ∃ c chosen, Ready s r t c chosen ∧
      (Run.onTree (Scenario.runAll s.launch c chosen) t).1 = .ok summary := by
  obtain ⟨c, hc, h⟩ := Image.bind_eq_ok.mp h
  obtain ⟨chosen, hchosen, h⟩ := Image.bind_eq_ok.mp h
  obtain ⟨loaded, some⟩ := selected_ok.mp hchosen
  exact ⟨c, chosen, ⟨hc, loaded, some⟩, h⟩

/-- When a run is ready, a list of the same settings file and scenarios shows what the run selects from. -/
theorem listed_of_ready {lister : Setup} (h : Ready s r t c chosen)
    (same : r.settings.file = none → lister.environment.userSettings = s.environment.userSettings) :
    ∃ all, lister.listed t r.scenarios r.settings.file = .ok all ∧
      chosen.map Scenario.name = Catalog.selectNames r.filter (all.map Scenario.name) := by
  obtain ⟨file, hload, hfile⟩ := Configuration.readFrom_of_resolve h.settings
  obtain ⟨all, hall, rfl⟩ := h.loaded
  have hload' : SettingsFile.load t lister.environment.userSettings r.settings.file = .ok file := by
    cases hasked : r.settings.file with
    | none => rw [same hasked, ← hasked, hload]
    | some path =>
      -- the directory of the user's settings is looked at only when no file was asked for
      rw [hasked] at hload
      exact hload
  rw [hfile.programName, hfile.version] at hall
  refine ⟨all, ?_, Catalog.map_name_select r.filter all⟩
  unfold Setup.listed
  rw [hload']
  exact hall

theorem names_of_shared {result : Nat → Except Failure Outcome} (h : Shared c chosen result) :
    List.Forall₂ Scenario.Names ((List.range chosen.length).map result) chosen := by
  rw [List.forall₂_iff_get]
  refine ⟨by simp, fun place hplace hchosen => ?_⟩
  obtain ⟨launch, t, hresult⟩ := h place _ (List.getElem?_eq_getElem hchosen)
  simpa [hresult] using Scenario.names_run launch c chosen[place] t

/-- A summary that a schedule of a run answers has the names of the scenarios, in order. -/
theorem map_name_of_answer {result : Nat → Except Failure Outcome} {jobs : Nat} {p : Pool}
    {summary : Summary} (hkept : Pool.Kept result jobs chosen.length p) (hshared : Shared c chosen result)
    (ha : p.answer? = some (.ok summary)) :
    summary.outcomes.map Outcome.name = chosen.map Scenario.name := by
  obtain ⟨outcomes, hall, rfl⟩ := Pool.summary_of_answer hkept ha
  have hnames := names_of_shared hshared
  rw [hall] at hnames
  exact Scenario.map_name_eq hnames

/-- A list shows what a run runs. Unless it fails, a list prints one line for each of its scenarios, in order,
and each line shows a name. If a run with the same settings file and the same file of scenarios has a summary,
the list does not fail, and the names of the outcomes are the printed names that the filter of the run lets
through; without a filter these are all of them. The same holds for every schedule of the run over any number
of slots, whatever the scenarios that run at once do to each other. -/
theorem listed_names_run (lister runner : Setup) (r : RunRequest) (t : FileTree)
    (same : r.settings.file = none →
      lister.environment.userSettings = runner.environment.userSettings) :
    (∀ file settings,
      (∀ failure, lister.listed t file settings = .error failure →
        Run.onTree (lister.execute (.list file settings)) t = (.error failure, t)) ∧
      ∀ all, lister.listed t file settings = .ok all →
        lister.Shows t file settings (all.map Scenario.name)) ∧
    ((Run.onTree (runner.execute (.run r)) t).1 = (runner.summary r t).map fun summary =>
      ⟨.ofBool summary.allPassed, runner.runReport r.json summary⟩) ∧
    (∀ summary, runner.summary r t = .ok summary →
      ∃ all, lister.listed t r.scenarios r.settings.file = .ok all ∧
        lister.Shows t r.scenarios r.settings.file (all.map Scenario.name) ∧
        summary.outcomes.map Outcome.name = Catalog.selectNames r.filter (all.map Scenario.name)) ∧
    ∀ c chosen, Ready runner r t c chosen → ∀ result, Shared c chosen result →
      ∀ (cores : Nat) (schedule : Pool.Schedule result (r.jobs.getD cores) chosen.length) (k : Nat) summary,
        (∀ i < k, (schedule.pool i).answer? = none) → (schedule.pool k).answer? = some (.ok summary) →
        ∃ all, lister.listed t r.scenarios r.settings.file = .ok all ∧
          lister.Shows t r.scenarios r.settings.file (all.map Scenario.name) ∧
          summary.outcomes.map Outcome.name = Catalog.selectNames r.filter (all.map Scenario.name) := by
  refine ⟨fun file settings => ⟨fun failure h => ?_, fun all h => shows_of_listed h⟩,
    run_answer runner r t, ?_, ?_⟩
  · rw [list_answer, h]
    rfl
  · intro summary h
    obtain ⟨c, chosen, ready, hrun⟩ := ready_of_summary h
    obtain ⟨all, hall, hnames⟩ := listed_of_ready ready same
    exact ⟨all, hall, shows_of_listed hall, (Scenario.map_name_of_runAll hrun).trans hnames⟩
  · intro c chosen ready result hshared cores schedule k summary hfirst ha
    obtain ⟨all, hall, hnames⟩ := listed_of_ready ready same
    have hkept := Pool.reachable_kept (schedule.reachable hfirst)
    exact ⟨all, hall, shows_of_listed hall, (map_name_of_answer hkept hshared ha).trans hnames⟩

/-- The results of the scenarios of a run that refuses every call, each on the tree that the run starts with. -/
def refusalResult (filter : String) (place : Nat) : Except Failure Outcome :=
  match (refusalScenarios filter)[place]? with
  | some s => (Run.onTree (s.run refuser refusalSettings) refusalTree).1
  | none => .error (.noScenarios filter)

theorem shared_refusalResult (filter : String) :
    Shared refusalSettings (refusalScenarios filter) (refusalResult filter) := by
  intro place s h
  exact ⟨refuser, refusalTree, by simp [refusalResult, h]⟩

theorem listed_names_of_refusal :
    ∃ all, refusalSetup.listed refusalTree none none = .ok all ∧
      refusalSetup.Shows refusalTree none none (all.map Scenario.name) ∧
      (∃ summary, refusalSetup.summary (refusalRequest "missing") refusalTree = .ok summary ∧
        summary.outcomes.map Outcome.name =
          Catalog.selectNames (some "missing") (all.map Scenario.name)) ∧
      ∃ (schedule : Pool.Schedule (refusalResult "missing") 2 (refusalScenarios "missing").length)
        (k : Nat) (summary : Summary), (schedule.pool k).answer? = some (.ok summary) ∧
        summary.outcomes.map Outcome.name =
          Catalog.selectNames (some "missing") (all.map Scenario.name) := by
  have names := listed_names_run refusalSetup refusalSetup (refusalRequest "missing") refusalTree
    fun _ => rfl
  refine ⟨_, rfl, (names.1 none none).2 _ rfl, ?_, ?_⟩
  · have hsome : (refusalSetup.summary (refusalRequest "missing") refusalTree).toOption.isSome := by
      decide +kernel
    cases hsummary : refusalSetup.summary (refusalRequest "missing") refusalTree with
    | error failure => simp [hsummary, Except.toOption] at hsome
    | ok summary =>
      obtain ⟨all, hall, -, hnames⟩ := names.2.2.1 summary hsummary
      cases hall
      exact ⟨summary, rfl, hnames⟩
  · have ready : Ready refusalSetup (refusalRequest "missing") refusalTree refusalSettings
        (refusalScenarios "missing") :=
      ⟨resolve_refusalFlags, ⟨_, rfl, rfl⟩, List.isEmpty_eq_false_iff.mp (by decide +kernel)⟩
    have judged : ∀ x ∈ (List.range (refusalScenarios "missing").length).map (refusalResult "missing"),
        x.toOption.isSome := by
      decide +kernel
    obtain ⟨schedule⟩ := Pool.Schedule.nonempty (refusalResult "missing") 2
      (refusalScenarios "missing").length
    obtain ⟨k, a, hfirst, ha⟩ := schedule.answered
    cases a with
    | error failure =>
      have hkept := Pool.reachable_kept (schedule.reachable hfirst)
      have hfailed := judged _ (Pool.failure_of_answer hkept ha)
      simp [Except.toOption] at hfailed
    | ok summary =>
      obtain ⟨all, hall, -, hnames⟩ := names.2.2.2 _ _ ready _ (shared_refusalResult "missing") 2 schedule k
        summary hfirst ha
      cases hall
      exact ⟨schedule, k, summary, ha, hnames⟩

end Command

end Assay
