import Assay.Proofs.Command.ExitStatus
import Assay.Proofs.Configuration
import Assay.Proofs.Image.Safety
import Assay.Proofs.Run.Deeds
import Assay.Proofs.Scenario.Validation

namespace Assay

open Comparison

/-- A deed in which no images are compared within a tolerance that is none. -/
def Deed.IsSound : Deed → Prop
  | .start _ => True
  | .compare tolerance => isTolerance tolerance = true

def Artifact.tolerance? : Artifact → Option Float
  | .image _ _ tolerance => tolerance
  | .exactText _ _ | .exactFile _ _ => none

namespace Scenario

variable {c : Configuration} {s : Scenario} {a : Artifact} {seen : List String} {scenarios : List Scenario}
  {t : FileTree} {path : Path} {x : Float}

/-- The tolerances of scenarios that are found valid are tolerances. -/
theorem tolerances_of_validateFrom (h : validateFrom seen scenarios = .ok ()) :
    ∀ s ∈ scenarios, ∀ a ∈ s.artifacts, ∀ x, a.tolerance? = some x → isTolerance x = true := by
  obtain ⟨-, -, hsound⟩ := validateFrom_eq_ok.mp h
  intro s hs a ha x hx
  cases a with
  | exactText produced text => cases hx
  | exactFile produced expected => cases hx
  | image produced expected tolerance =>
    obtain rfl : tolerance = some x := hx
    exact isTolerance_iff.mpr ((hsound s hs).tolerances produced expected x ha)

/-- An artifact is judged within its own tolerance or the common one. -/
theorem compared_of_tolerances (hcommon : isTolerance c.imageTolerance = true)
    (hown : ∀ x, a.tolerance? = some x → isTolerance x = true) : Compared Deed.IsSound c a := by
  rintro produced expected tolerance rfl
  cases tolerance with
  | none => exact hcommon
  | some x => exact hown x rfl

/-- A file of scenarios is loaded when it can be decoded and the scenarios are found valid. -/
theorem load_ok : load t path = .ok scenarios ↔
    ∃ content, t.readText path = .ok content ∧ (Yaml.read? content).bind decodeFile = some scenarios ∧
      validate scenarios = .ok () := by
  rw [load]
  cases t.readText path with
  | error cause => exact iff_of_false nofun (by simp)
  | ok content =>
    simp only [Except.ok.injEq, exists_eq_left']
    cases (Yaml.read? content).bind decodeFile with
    | none => exact iff_of_false nofun (by simp)
    | some all =>
      dsimp only
      cases hv : validate all with
      | error failure =>
        refine iff_of_false nofun ?_
        rintro ⟨⟨⟩, hvalid⟩
        rw [hv] at hvalid
        cases hvalid
      | ok u =>
        rw [Except.ok.injEq, Option.some.injEq]
        refine ⟨?_, And.left⟩
        rintro rfl
        exact ⟨rfl, hv⟩

end Scenario

/-- The built-in scenarios have no tolerances of their own. -/
theorem Catalog.tolerance?_builtin (programName version : String) :
    ∀ s ∈ builtin programName version, ∀ a ∈ s.artifacts, a.tolerance? = none := by
  simp [builtin, banner, refused, transformed, imageArtifact, Artifact.tolerance?]

namespace Command

open Watched

variable {s : Setup} {r : RunRequest} {t : FileTree} {c : Configuration} {chosen : List Scenario}
  {given : Option Float} {x : Float}

/-- The scenarios of a run have tolerances, if any of their own. -/
theorem tolerances_of_selected (h : selected t c r = .ok chosen) :
    ∀ s ∈ chosen, ∀ a ∈ s.artifacts, ∀ x, a.tolerance? = some x → isTolerance x = true := by
  obtain ⟨⟨all, hall, rfl⟩, -⟩ := selected_ok.mp h
  intro scenario hs
  have hmem := (Catalog.select_sublist r.filter all).subset hs
  cases hfile : r.scenarios with
  | none =>
    rw [hfile, scenarios, Except.ok.injEq] at hall
    subst hall
    intro a ha x hx
    rw [Catalog.tolerance?_builtin _ _ scenario hmem a ha] at hx
    cases hx
  | some path =>
    rw [hfile, scenarios] at hall
    obtain ⟨content, -, -, hvalid⟩ := Scenario.load_ok.mp hall
    exact Scenario.tolerances_of_validateFrom hvalid scenario hmem

/-- The tolerance of a comparison is a tolerance, and the one that is given or else that of the settings. -/
theorem chosen_ok (h : s.chosenTolerance t given = .ok x) :
    isTolerance x = true ∧ (given = some x ∨ given = none ∧ ∃ file,
      SettingsFile.load t s.environment.userSettings none = .ok file ∧ file.imageTolerance = x) := by
  have hvalid : ∀ y : Float, (if isTolerance y then .ok y else .error (.settings (.badTolerance y)) :
      Except Failure Float) = .ok x → y = x ∧ isTolerance x = true := by
    intro y hy
    split_ifs at hy with hok
    cases hy
    exact ⟨rfl, hok⟩
  cases given with
  | some y =>
    obtain ⟨rfl, hok⟩ := hvalid y h
    exact ⟨hok, .inl rfl⟩
  | none =>
    unfold Setup.chosenTolerance at h
    cases hl : SettingsFile.load t s.environment.userSettings none with
    | error failure => simp [hl, Except.map] at h
    | ok file =>
      rw [hl] at h
      obtain ⟨hsame, hok⟩ := hvalid file.imageTolerance h
      exact ⟨hok, .inr ⟨rfl, file, rfl, hsame⟩⟩

def Setup.watchedRun (s : Setup) (r : RunRequest) : Watched Answer := do
  let c ← silent (reading fun t => Configuration.resolve t s.environment r.settings)
  let chosen ← silent (reading fun t => selected t c r)
  let summary ← Scenario.watchedRunAll s.launch c chosen
  pure ⟨.ofBool summary.allPassed, s.runReport r.json summary⟩

def Setup.watchedComparison (s : Setup) (actual expected : Path) (given : Option Float) : Watched Answer := do
  let x ← silent (reading fun t => s.chosenTolerance t given)
  let v ← watchedImageFiles actual expected x
  pure (s.verdictAnswer v)

/-- What a command asks for, watched. The other commands neither start programs nor compare images. -/
def Setup.watched (s : Setup) : Command → Watched Answer
  | .run r => s.watchedRun r
  | .compareImages actual expected given => s.watchedComparison actual expected given
  | .list file settings => silent (s.execute (.list file settings))
  | .compareFiles actual expected => silent (s.execute (.compareFiles actual expected))
  | .inspect path => silent (s.execute (.inspect path))

/-- The tolerances that a command reads. -/
inductive Reads (s : Setup) (t : FileTree) : Command → Float → Prop
  | settings {r : RunRequest} {file : SettingsFile}
    (load : SettingsFile.load t s.environment.userSettings r.settings.file = .ok file) :
    Reads s t (.run r) file.imageTolerance
  | scenario {r : RunRequest} {path : Path} {content : String} {all : List Scenario} {scenario : Scenario}
    {a : Artifact} {x : Float} (file : r.scenarios = some path) (text : t.readText path = .ok content)
    (decoded : (Yaml.read? content).bind Scenario.decodeFile = some all) (known : scenario ∈ all)
    (artifact : a ∈ scenario.artifacts) (own : a.tolerance? = some x) : Reads s t (.run r) x
  | given {actual expected : Path} {x : Float} : Reads s t (.compareImages actual expected (some x)) x
  | default {actual expected : Path} {file : SettingsFile}
    (load : SettingsFile.load t s.environment.userSettings none = .ok file) :
    Reads s t (.compareImages actual expected none) file.imageTolerance

theorem onTree_orThrow {α : Type} (result : Except Failure α) (t : FileTree) :
    Run.onTree (orThrow result) t = (result, t) := by
  cases result <;> rfl

theorem reading_ok {α : Type} {f : FileTree → Except Failure α} {a : α} {left : FileTree}
    (h : Run.onTree (reading f) t = (.ok a, left)) : f t = .ok a :=
  congrArg Prod.fst h

theorem watches_watchedRun (s : Setup) (r : RunRequest) :
    Watches Deed.IsSound (s.watchedRun r) (s.run r) := by
  refine (Watches.bind_of_ok (.silent _) fun t c _ hc => .bind_of_ok (.silent _) fun there chosen _ hs =>
    .bind (Scenario.watches_runAll s.launch (fun _ => trivial) fun scenario hm a ha =>
      Scenario.compared_of_tolerances ?_ (tolerances_of_selected (reading_ok hs) scenario hm a ha)) fun summary =>
        .pure _).congr fun t => ?_
  · obtain ⟨file, -, hfile⟩ := Configuration.readFrom_of_resolve (reading_ok hc)
    rw [hfile.imageTolerance]
    exact hfile.checked
  · simp only [Setup.run, Run.onTree_bind, Run.onTree_get, onTree_orThrow, onTree_reading]

theorem watches_watchedComparison (s : Setup) (actual expected : Path) (given : Option Float) :
    Watches Deed.IsSound (s.watchedComparison actual expected given)
      (s.execute (.compareImages actual expected given)) := by
  refine (Watches.bind_of_ok (.silent _) fun t x _ hx =>
    .bind (Scenario.watches_imageFiles (chosen_ok (reading_ok hx)).1 actual expected) fun v =>
      .pure _).congr fun t => ?_
  simp only [Setup.execute, Setup.compareImages, Run.onTree_bind, Run.onTree_get, onTree_orThrow,
    onTree_reading]
  cases s.chosenTolerance t given with
  | error failure => rfl
  | ok x =>
    dsimp only
    change _ = ((sameImageFiles t actual expected x).map s.verdictAnswer, t)
    cases sameImageFiles t actual expected x <;> rfl

/-- Watching a command changes neither its answer nor what it leaves, and images are compared only within
tolerances that are some. -/
theorem watches_execute (s : Setup) (command : Command) :
    Watches Deed.IsSound (s.watched command) (s.execute command) := by
  cases command with
  | run r => exact watches_watchedRun s r
  | compareImages actual expected given => exact watches_watchedComparison s actual expected given
  | list file settings => exact .silent _
  | compareFiles actual expected => exact .silent _
  | inspect path => exact .silent _

/-- A run that is ready does what its scenarios do. -/
theorem doesAll_of_ready (ready : Ready s r t c chosen) :
    Scenario.DoesAll s.launch c chosen t (s.watchedRun r t).1 := by
  have hselected : selected t c r = .ok chosen := selected_ok.mpr ⟨ready.loaded, ready.some⟩
  rw [Setup.watchedRun, silent_bind_ok (by rw [onTree_reading, ready.settings]),
    silent_bind_ok (by rw [onTree_reading, hselected]), deeds_bind_pure]
  exact Scenario.doesAll_watchedRunAll s.launch c chosen t

theorem deeds_watchedComparison {actual expected : Path} {reference produced : Image}
    (hx : s.chosenTolerance t given = .ok x) (hreference : Image.read t expected = .ok reference)
    (hproduced : Image.read t actual = .ok produced) :
    (s.watchedComparison actual expected given t).1 = [.compare x] := by
  rw [Setup.watchedComparison, silent_bind_ok (by rw [onTree_reading, hx]), deeds_bind_pure]
  exact Scenario.deeds_imageFiles hreference hproduced

/-- A step for which something cannot be read fails without a deed. -/
theorem refused_of_reading {α β : Type} {f : FileTree → Except Failure α} {g : α → Watched β}
    (h : ∀ a, f t ≠ .ok a) : ∃ failure, (silent (reading f) >>= g) t = ([], .error failure, t) := by
  cases hf : f t with
  | ok a => exact absurd hf (h a)
  | error failure => exact ⟨failure, silent_bind_error (by rw [onTree_reading, hf])⟩

/-- A run is refused without a deed when its scenarios cannot be selected. -/
theorem refused_of_selected (h : ∀ c chosen, selected t c r ≠ .ok chosen) :
    ∃ failure, s.watchedRun r t = ([], .error failure, t) := by
  cases hc : Configuration.resolve t s.environment r.settings with
  | error failure =>
    refine refused_of_reading fun c hok => ?_
    rw [hc] at hok
    cases hok
  | ok c =>
    rw [Setup.watchedRun, silent_bind_ok (by rw [onTree_reading, hc])]
    exact refused_of_reading (h c)

/-- A comparison is refused without a deed when it has no tolerance. -/
theorem refused_of_chosen {actual expected : Path} (h : ∀ y, s.chosenTolerance t given ≠ .ok y) :
    ∃ failure, s.watchedComparison actual expected given t = ([], .error failure, t) := by
  rw [Setup.watchedComparison]
  exact refused_of_reading h

theorem refused_of_reads {command : Command} (hr : Reads s t command x) (hx : ¬isTolerance x = true) :
    ∃ failure, s.watched command t = ([], .error failure, t) := by
  cases hr with
  | @settings r file load =>
    refine refused_of_reading fun c hc => ?_
    obtain ⟨other, hload, hfile⟩ := Configuration.readFrom_of_resolve hc
    obtain rfl : file = other := Except.ok.inj (load.symm.trans hload)
    exact hx hfile.checked
  | @scenario r path content all scenario a _ file text decoded known artifact own =>
    refine refused_of_selected fun c chosen hs => ?_
    obtain ⟨⟨loaded, hall, -⟩, -⟩ := selected_ok.mp hs
    rw [file, scenarios] at hall
    obtain ⟨content', htext, hdecoded, hvalid⟩ := Scenario.load_ok.mp hall
    obtain rfl : content = content' := Except.ok.inj (text.symm.trans htext)
    obtain rfl : all = loaded := Option.some.inj (decoded.symm.trans hdecoded)
    exact hx (Scenario.tolerances_of_validateFrom hvalid scenario known a artifact x own)
  | given =>
    refine refused_of_chosen fun y hy => ?_
    obtain ⟨hvalid, hsame | ⟨hnone, -⟩⟩ := chosen_ok hy
    · obtain rfl : x = y := Option.some.inj hsame
      exact hx hvalid
    · cases hnone
  | @default _ _ file load =>
    refine refused_of_chosen fun y hy => ?_
    obtain ⟨hvalid, hsome | ⟨-, other, hload, rfl⟩⟩ := chosen_ok hy
    · cases hsome
    · obtain rfl : file = other := Except.ok.inj (load.symm.trans hload)
      exact hx hvalid

/-- Only tolerances are compared within. Watched, a command answers and leaves what it does unwatched, and it tells
each start of a program and each comparison of images; whenever it compares images, the tolerance is finite and
not negative, and so it is when the artifacts of a run are judged in any order and on any tree. A command that
reads a tolerance that is not ends with a failure and leaves the tree as it was, before it has started a program or
compared an image. -/
theorem tolerances_checked (s : Setup) (command : Command) (t : FileTree) :
    (s.watched command t).2 = Run.onTree (s.execute command) t ∧
    (∀ r c chosen, command = .run r → Ready s r t c chosen →
      Scenario.DoesAll s.launch c chosen t (s.watched command t).1) ∧
    (∀ actual expected given x reference produced, command = .compareImages actual expected given →
      s.chosenTolerance t given = .ok x → Image.read t expected = .ok reference →
      Image.read t actual = .ok produced → (s.watched command t).1 = [.compare x]) ∧
    (∀ x, Deed.compare x ∈ (s.watched command t).1 → x.isFinite = true ∧ 0.0 ≤ x) ∧
    (∀ r c chosen, command = .run r → Ready s r t c chosen →
      ∀ scenario ∈ chosen, ∀ a ∈ scenario.artifacts, ∀ directory there x,
        Deed.compare x ∈ (Scenario.watchedJudge ⟨c, directory⟩ a there).1 →
          x.isFinite = true ∧ 0.0 ≤ x) ∧
    ∀ x, Reads s t command x → ¬(x.isFinite = true ∧ 0.0 ≤ x) →
      ∃ failure, s.watched command t = ([], .error failure, t) ∧
        Run.onTree (s.execute command) t = (.error failure, t) := by
  have hwatches := watches_execute s command
  refine ⟨hwatches.same t, ?_, ?_, fun x hx => isTolerance_iff.mp (hwatches.deeds t _ hx), ?_, ?_⟩
  · rintro r c chosen rfl ready
    exact doesAll_of_ready ready
  · rintro actual expected given x reference produced rfl hx hreference hproduced
    exact deeds_watchedComparison hx hreference hproduced
  · intro r c chosen _ ready scenario hs a ha directory there x hx
    obtain ⟨file, -, hfile⟩ := Configuration.readFrom_of_resolve ready.settings
    have hown := tolerances_of_selected (selected_ok.mpr ⟨ready.loaded, ready.some⟩)
    have hjudged := Scenario.watches_judge (w := ⟨c, directory⟩)
      (Scenario.compared_of_tolerances (hfile.imageTolerance ▸ hfile.checked) (hown scenario hs a ha))
    exact isTolerance_iff.mp (hjudged.deeds there _ hx)
  · intro x hreads hx
    obtain ⟨failure, hrefused⟩ := refused_of_reads hreads (mt isTolerance_iff.mp hx)
    have hsame := hwatches.same t
    rw [hrefused] at hsame
    exact ⟨failure, hrefused, hsame.symm⟩

def toleranceText : String :=
  "scenarios:\n  - name: odd\n    exit: success\n    artifacts:\n      - kind: image\n" ++
    "        produced: result.mhd\n        expected: result.mhd\n        tolerance: .nan\n"

def toleranceTree : FileTree where
  entries := [(["tool"], .file [] 0o755), (["odd.yaml"], .file (Text.Utf8.ofString toleranceText) 0o644),
    (["result.mhd"], .file Image.pairBytes 0o644), (["Testing"], .directory), (["Testing", "Data"], .directory),
    (["Testing", "Data", "2D_2x2_square_object_at_(1,3).mhd"], .file Image.pairBytes 0o644)]
  workingDirectory := []

/-- The scenarios of the file, of which the filter leaves none. -/
def toleranceRequest : RunRequest :=
  { refusalRequest "even" with scenarios := some ⟨"odd.yaml"⟩ }

/-- The same tree with an image that an earlier run of a built-in scenario left. -/
def comparedTree : FileTree :=
  { toleranceTree with
    entries := toleranceTree.entries ++ [(["outputs"], .directory),
      (["outputs", "translation_of_images"], .directory),
      (["outputs", "translation_of_images", "result.mhd"], .file Image.pairBytes 0o644)] }

def restingSetup : Setup :=
  { refusalSetup with launch := fun _ _ t => .ok (⟨.code 0, [], []⟩, t) }

def isComparison : Deed → Bool
  | .compare _ => true
  | .start _ => false

theorem exists_compare {deeds : List Deed} (h : deeds.any isComparison = true) : ∃ x, Deed.compare x ∈ deeds := by
  obtain ⟨d, hd, hcompare⟩ := List.any_eq_true.mp h
  cases d with
  | start i => cases hcompare
  | compare x => exact ⟨x, hd⟩

theorem exists_starts {deeds : List Deed} (h : deeds.map isComparison = [false, true, false]) :
    ∃ i x j, deeds = [.start i, .compare x, .start j] := by
  match deeds, h with
  | [.start i, .compare x, .start j], _ => exact ⟨i, x, j, rfl⟩

theorem exists_badTolerance {decoded : Option (List Scenario)}
    (h : decoded.map (fun all => all.map fun s => s.artifacts.map fun a => a.tolerance?.map isTolerance) =
      some [[some false]]) :
    ∃ all, decoded = some all ∧ ∃ scenario ∈ all, ∃ a ∈ scenario.artifacts, ∃ x,
      a.tolerance? = some x ∧ isTolerance x = false := by
  obtain ⟨all, rfl, hall⟩ := Option.map_eq_some_iff.mp h
  obtain ⟨scenario, rfl, hs⟩ := List.map_eq_singleton_iff.mp hall
  obtain ⟨a, ha, hown⟩ := List.map_eq_singleton_iff.mp hs
  obtain ⟨x, hx, hbad⟩ := Option.map_eq_some_iff.mp hown
  exact ⟨_, rfl, scenario, List.mem_singleton_self _, a, ha ▸ List.mem_singleton_self a, x, hx, hbad⟩

theorem reads_toleranceRequest :
    ∃ x, Reads refusalSetup toleranceTree (.run toleranceRequest) x ∧ ¬(x.isFinite = true ∧ 0.0 ≤ x) := by
  have htext : toleranceTree.readText ⟨"odd.yaml"⟩ = .ok toleranceText := by decide +kernel
  obtain ⟨all, hall, scenario, hs, a, ha, x, hx, hbad⟩ :=
    @exists_badTolerance ((Yaml.read? toleranceText).bind Scenario.decodeFile) (by decide +kernel)
  refine ⟨x, .scenario rfl htext hall hs ha hx, ?_⟩
  rw [← isTolerance_iff, hbad]
  exact Bool.false_ne_true

theorem selected_imageArtifact :
    ∃ scenario ∈ refusalScenarios "translation_of_images", Catalog.imageArtifact ∈ scenario.artifacts := by
  refine ⟨Catalog.transformed "translation_of_images" "Tests translation of images"
    ["-in", Catalog.inputImage, "-tp", Catalog.parameters, "-out", Catalog.outDirectory] []
    [Catalog.imageArtifact], List.mem_filter.mpr ⟨?_, by decide +kernel⟩, List.mem_singleton_self _⟩
  simp [Catalog.builtin]

theorem tolerances_checked_odd :
    (∃ i x j, (restingSetup.watched (.run (refusalRequest "translation_of_images")) comparedTree).1 =
        [.start i, .compare x, .start j] ∧ x.isFinite = true ∧
      Scenario.DoesAll restingSetup.launch refusalSettings (refusalScenarios "translation_of_images") comparedTree
        [.start i, .compare x, .start j]) ∧
    (refusalSetup.watched (.compareImages ⟨"result.mhd"⟩ ⟨"result.mhd"⟩ (some 0.5)) toleranceTree).1 =
      [.compare 0.5] ∧
    (∃ x, Deed.compare x ∈ (Scenario.watchedJudge ⟨refusalSettings, ⟨"."⟩⟩ Catalog.imageArtifact
        toleranceTree).1 ∧ x.isFinite = true) ∧
    (∃ failure, Run.onTree (refusalSetup.execute (.run toleranceRequest)) toleranceTree =
      (.error failure, toleranceTree)) ∧
    ∃ failure, Run.onTree (refusalSetup.execute
      (.compareImages ⟨"result.mhd"⟩ ⟨"result.mhd"⟩ (some (0.0 / 0.0)))) toleranceTree =
        (.error failure, toleranceTree) := by
  have hready : Ready refusalSetup (refusalRequest "translation_of_images") refusalTree refusalSettings
      (refusalScenarios "translation_of_images") :=
    ⟨resolve_refusalFlags, ⟨_, rfl, rfl⟩, List.isEmpty_eq_false_iff.mp (by decide +kernel)⟩
  have hresting : Ready restingSetup (refusalRequest "translation_of_images") comparedTree refusalSettings
      (refusalScenarios "translation_of_images") :=
    ⟨by rfl, ⟨_, rfl, rfl⟩, hready.some⟩
  refine ⟨?_, ?_, ?_, ?_, ?_⟩
  · obtain ⟨i, x, j, hdeeds⟩ := @exists_starts (restingSetup.watched
      (.run (refusalRequest "translation_of_images")) comparedTree).1 (by decide +kernel)
    obtain ⟨-, hdoes, -, hsound, -⟩ := tolerances_checked restingSetup
      (.run (refusalRequest "translation_of_images")) comparedTree
    have hdoes := hdoes _ _ _ rfl hresting
    rw [hdeeds] at hdoes
    exact ⟨i, x, j, hdeeds, (hsound x (by simp [hdeeds])).1, hdoes⟩
  · have hread : (Image.read toleranceTree ⟨"result.mhd"⟩).toOption.isSome := by decide +kernel
    cases himage : Image.read toleranceTree ⟨"result.mhd"⟩ with
    | error failure => simp [himage, Except.toOption] at hread
    | ok image =>
      exact (tolerances_checked refusalSetup (.compareImages ⟨"result.mhd"⟩ ⟨"result.mhd"⟩ (some 0.5))
        toleranceTree).2.2.1 _ _ _ _ _ _ rfl (by rfl) himage himage
  · obtain ⟨x, hx⟩ := @exists_compare (Scenario.watchedJudge ⟨refusalSettings, ⟨"."⟩⟩ Catalog.imageArtifact
      toleranceTree).1 (by decide +kernel)
    obtain ⟨scenario, hs, ha⟩ := selected_imageArtifact
    exact ⟨x, hx, ((tolerances_checked refusalSetup (.run (refusalRequest "translation_of_images"))
      refusalTree).2.2.2.2.1 _ _ _ rfl hready scenario hs _ ha _ _ x hx).1⟩
  · obtain ⟨x, hreads, hx⟩ := reads_toleranceRequest
    obtain ⟨failure, -, hrefused⟩ := (tolerances_checked _ _ _).2.2.2.2.2 x hreads hx
    exact ⟨failure, hrefused⟩
  · obtain ⟨failure, -, hrefused⟩ := (tolerances_checked _ _ _).2.2.2.2.2 (0.0 / 0.0) .given (by decide +kernel)
    exact ⟨failure, hrefused⟩

end Command

end Assay
