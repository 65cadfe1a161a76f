import Assay.Configuration.Resolution
import Assay.Proofs.Process.Lookup

namespace Assay

namespace Configuration

inductive Setting where
  | executable
  | outputRoot
  | dataDir
  | parameterDir
  | expectedDir
  | programName
  | version
  | imageTolerance
  deriving DecidableEq, Repr

/-- What the values of a setting are. -/
def Setting.Content : Setting → Type
  | programName | version => String
  | imageTolerance => Float
  | _ => Path

/-- The value of a setting in a configuration. -/
def value (c : Configuration) : (setting : Setting) → setting.Content
  | .executable => c.executable
  | .outputRoot => c.outputRoot
  | .dataDir => c.dataDir
  | .parameterDir => c.parameterDir
  | .expectedDir => c.expectedDir
  | .programName => c.programName
  | .version => c.version
  | .imageTolerance => c.imageTolerance

inductive Source where
  | flag
  | environment
  | file
  | builtIn
  deriving DecidableEq, Repr

/-- The rank of a source. A source with a lower rank goes in front. -/
def Source.rank : Source → Nat
  | flag => 0
  | environment => 1
  | file => 2
  | builtIn => 3

def Source.all : List Source := [flag, environment, file, builtIn]

theorem Source.mem_all (source : Source) : source ∈ all := by
  cases source <;> simp [all]

theorem Source.pairwise_all : all.Pairwise (fun a b => a.rank < b.rank) := by
  decide

theorem Source.rank_injective : Function.Injective rank := by
  intro a b h
  cases a <;> cases b <;> simp_all [rank]

structure Sources where
  overrides : Overrides
  environment : Environment
  file : SettingsFile

namespace Sources

/-- What the environment gives for a required setting. An empty variable gives nothing. -/
def fromEnvironment (sources : Sources) (setting : RequiredSetting) : Option Path :=
  ((sources.environment.get? setting).filter fun s => s ≠ "").map Path.mk

/-- What a source gives for a setting, if anything. Only the required settings have variables, only the paths
have flags, and only the required settings have no default. The tolerance of a settings file was given its
default when the file was read. -/
def given (sources : Sources) : (setting : Setting) → Source → Option setting.Content
  | .executable, .flag => sources.overrides.executable
  | .executable, .environment => sources.fromEnvironment .executable
  | .executable, .file => sources.file.executable
  | .outputRoot, .flag => sources.overrides.outputRoot
  | .outputRoot, .environment => sources.fromEnvironment .outputRoot
  | .outputRoot, .file => sources.file.outputRoot
  | .dataDir, .flag => sources.overrides.dataDir
  | .dataDir, .file => sources.file.dataDir
  | .dataDir, .builtIn => some defaultDataDir
  | .parameterDir, .flag => sources.overrides.parameterDir
  | .parameterDir, .file => sources.file.parameterDir
  | .parameterDir, .builtIn => some defaultParameterDir
  | .expectedDir, .flag => sources.overrides.expectedDir
  | .expectedDir, .file => sources.file.expectedDir
  | .expectedDir, .builtIn => some defaultExpectedDir
  | .programName, .file => sources.file.programName
  | .programName, .builtIn => some defaultProgramName
  | .version, .file => sources.file.version
  | .version, .builtIn => some defaultVersion
  | .imageTolerance, .file => some sources.file.imageTolerance
  | _, _ => none

/-- A source decides a setting when it gives a value for it and no source in front of it does. -/
structure Decides (sources : Sources) (setting : Setting) (source : Source) (x : setting.Content) : Prop where
  gives : sources.given setting source = some x
  first : ∀ other, other.rank < source.rank → sources.given setting other = none

def Silent (sources : Sources) (setting : Setting) : Prop :=
  ∀ source, sources.given setting source = none

/-- What a configuration takes for a setting: a program is looked up, all else is taken as it is. -/
def Taken (t : FileTree) (search : SearchPath) :
    (setting : Setting) → setting.Content → setting.Content → Prop
  | .executable, p, q => resolveExecutable t search p = .ok q
  | _, x, y => y = x

/-- Why sources are refused, each reason only if none in front of it applies. -/
inductive Refused (sources : Sources) (t : FileTree) : Failure → Prop
  | noExecutable (missing : sources.Silent .executable) : Refused sources t (.missingSetting .executable)
  | noOutputRoot (executable : ¬sources.Silent .executable) (missing : sources.Silent .outputRoot) :
    Refused sources t (.missingSetting .outputRoot)
  | tolerance (executable : ¬sources.Silent .executable) (outputRoot : ¬sources.Silent .outputRoot)
    (wrong : ¬(sources.file.imageTolerance.isFinite = true ∧ 0.0 ≤ sources.file.imageTolerance)) :
    Refused sources t (.settings (.badImageTolerance sources.file.imageTolerance))
  | program {source : Source} {p : Path} {fault : ExecutableFault} (decided : sources.Decides .executable source p)
    (outputRoot : ¬sources.Silent .outputRoot)
    (tolerance : sources.file.imageTolerance.isFinite = true ∧ 0.0 ≤ sources.file.imageTolerance)
    (unfit : resolveExecutable t sources.environment.searchPath p = .error (.executable p fault)) :
    Refused sources t (.executable p fault)

theorem Taken.unique {t t' : FileTree} {search search' : SearchPath} {setting : Setting} {x y y' : setting.Content}
    (h : Taken t search setting x y) (h' : Taken t' search' setting x y')
    (hprograms : setting = .executable → t' = t ∧ search' = search) : y' = y := by
  cases setting with
  | executable =>
    obtain ⟨rfl, rfl⟩ := hprograms rfl
    exact Except.ok.inj (h'.symm.trans h)
  | _ => exact h'.trans h.symm

section Decisions

variable {sources sources' : Sources} {setting : Setting} {source source' : Source} {x x' : setting.Content}

theorem Decides.source_unique (h : sources.Decides setting source x) (h' : sources.Decides setting source' x') :
    source' = source := by
  obtain hlt | heq | hgt := Nat.lt_trichotomy source.rank source'.rank
  · cases (h'.first source hlt).symm.trans h.gives
  · exact (Source.rank_injective heq).symm
  · cases (h.first source' hgt).symm.trans h'.gives

theorem Decides.unique (h : sources.Decides setting source x) (h' : sources.Decides setting source' x') :
    x' = x := by
  obtain rfl := h.source_unique h'
  exact Option.some.inj (h'.gives.symm.trans h.gives)

/-- Sources that agree as far as the one that decides are decided alike. -/
theorem Decides.congr (h : sources.Decides setting source x)
    (hsame : ∀ other, other.rank ≤ source.rank →
      sources'.given setting other = sources.given setting other) :
    sources'.Decides setting source x := by
  refine ⟨?_, fun other hlt => ?_⟩
  · rw [hsame source (Nat.le_refl _), h.gives]
  · rw [hsame other (Nat.le_of_lt hlt), h.first other hlt]

/-- What the first source gives that gives anything. -/
def decision? (sources : Sources) (setting : Setting) : Option setting.Content :=
  Source.all.findSome? (sources.given setting)

theorem decision?_eq_none : sources.decision? setting = none ↔ sources.Silent setting := by
  rw [decision?, List.findSome?_eq_none_iff]
  exact ⟨fun h source => h source source.mem_all, fun h source _ => h source⟩

theorem decides_of_decision? (h : sources.decision? setting = some x) :
    ∃ source, sources.Decides setting source x := by
  obtain ⟨front, source, back, hall, hgives, hfront⟩ := List.findSome?_eq_some_iff.mp h
  refine ⟨source, hgives, fun other hlt => hfront other ?_⟩
  -- a source of a lower rank is neither this one nor behind it
  have hpairs := Source.pairwise_all
  rw [hall, List.pairwise_append, List.pairwise_cons] at hpairs
  have hmem := other.mem_all
  rw [hall, List.mem_append, List.mem_cons] at hmem
  obtain hmem | rfl | hmem := hmem
  · exact hmem
  · exact absurd hlt (Nat.lt_irrefl _)
  · exact absurd hlt (Nat.lt_asymm (hpairs.2.1.1 other hmem))

theorem decision?_eq_some :
    sources.decision? setting = some x ↔ ∃ source, sources.Decides setting source x := by
  refine ⟨decides_of_decision?, ?_⟩
  rintro ⟨source, hdecides⟩
  cases hd : sources.decision? setting with
  | none => cases (decision?_eq_none.mp hd source).symm.trans hdecides.gives
  | some y =>
    obtain ⟨source', hdecides'⟩ := decides_of_decision? hd
    rw [hdecides.unique hdecides']

theorem not_silent_iff : ¬sources.Silent setting ↔ ∃ x, sources.decision? setting = some x := by
  rw [← decision?_eq_none, ← ne_eq, Option.ne_none_iff_exists']

end Decisions

end Sources

/-- The configuration of a program and an output root, with the other settings from their sources. -/
def Sources.configured (sources : Sources) (program outputRoot : Path) : Configuration where
  executable := program
  outputRoot := outputRoot
  dataDir := path sources.overrides.dataDir sources.file.dataDir defaultDataDir
  parameterDir := path sources.overrides.parameterDir sources.file.parameterDir defaultParameterDir
  expectedDir := path sources.overrides.expectedDir sources.file.expectedDir defaultExpectedDir
  programName := sources.file.programName.getD defaultProgramName
  version := sources.file.version.getD defaultVersion
  imageTolerance := sources.file.imageTolerance

/-- The four stages of a resolution: each required setting is decided, the tolerance is checked, and the program
is looked up. -/
theorem resolveWith_eq (sources : Sources) (t : FileTree) :
    resolveWith t sources.environment sources.overrides sources.file =
      match sources.decision? .executable, sources.decision? .outputRoot with
      | none, _ => .error (.missingSetting .executable)
      | some _, none => .error (.missingSetting .outputRoot)
      | some p, some root =>
        if Comparison.isTolerance sources.file.imageTolerance = true then
          (resolveExecutable t sources.environment.searchPath p).map (sources.configured · root)
        else .error (.settings (.badImageTolerance sources.file.imageTolerance)) := by
  have hrequired : ∀ (setting : RequiredSetting) (flag file : Option Path),
      requiredPath sources.environment setting flag file =
        ([flag, sources.fromEnvironment setting, file, none].findSome? id).elim
          (.error (.missingSetting setting)) .ok := by
    intro setting flag file
    rw [requiredPath, ← Sources.fromEnvironment]
    cases flag <;> cases sources.fromEnvironment setting <;> cases file <;> rfl
  have hexecutable : sources.decision? .executable =
      [sources.overrides.executable, sources.fromEnvironment .executable, sources.file.executable,
        none].findSome? id := rfl
  have houtputRoot : sources.decision? .outputRoot =
      [sources.overrides.outputRoot, sources.fromEnvironment .outputRoot, sources.file.outputRoot,
        none].findSome? id := rfl
  rw [resolveWith, hrequired, hrequired, ← hexecutable, ← houtputRoot]
  cases sources.decision? .executable with
  | none => rfl
  | some p =>
    cases sources.decision? .outputRoot with
    | none => rfl
    | some root =>
      cases ht : Comparison.isTolerance sources.file.imageTolerance with
      | false => rfl
      | true =>
        change (resolveExecutable t sources.environment.searchPath p >>= fun program =>
          pure (sources.configured program root)) =
            (resolveExecutable t sources.environment.searchPath p).map (sources.configured · root)
        cases resolveExecutable t sources.environment.searchPath p <;> rfl

variable {sources sources' : Sources} {t t' : FileTree} {c c' : Configuration} {failure : Failure}
  {setting : Setting}

/-- A resolution has a configuration when both required settings are decided, the tolerance of the file is one,
and the executable is found. -/
theorem resolveWith_eq_ok (h : resolveWith t sources.environment sources.overrides sources.file = .ok c) :
    ∃ p root, sources.decision? .executable = some p ∧ sources.decision? .outputRoot = some root ∧
      Comparison.isTolerance sources.file.imageTolerance = true ∧
      ∃ program, resolveExecutable t sources.environment.searchPath p = .ok program ∧
        c = sources.configured program root := by
  rw [resolveWith_eq] at h
  cases hp : sources.decision? .executable with
  | none =>
    rw [hp] at h
    cases h
  | some p =>
    cases hroot : sources.decision? .outputRoot with
    | none =>
      rw [hp, hroot] at h
      cases h
    | some root =>
      rw [hp, hroot] at h
      dsimp only at h
      split_ifs at h with htolerance
      cases hprogram : resolveExecutable t sources.environment.searchPath p with
      | error failure =>
        rw [hprogram] at h
        cases h
      | ok program =>
        rw [hprogram] at h
        cases h
        exact ⟨p, root, rfl, rfl, htolerance, program, hprogram, rfl⟩

/-- A path with a default is what its first source gives. -/
theorem findSome?_path (flag file : Option Path) (default : Path) :
    [flag, none, file, some default].findSome? id = some (path flag file default) := by
  cases flag <;> cases file <;> rfl

theorem findSome?_getD {α : Type} (file : Option α) (default : α) :
    [none, none, file, some default].findSome? id = some (file.getD default) := by
  cases file <;> rfl

/-- Every setting of a configuration is taken from what decides it. -/
theorem taken_of_resolveWith (h : resolveWith t sources.environment sources.overrides sources.file = .ok c)
    (setting : Setting) : ∃ x, sources.decision? setting = some x ∧
      Sources.Taken t sources.environment.searchPath setting x (c.value setting) := by
  obtain ⟨p, root, hp, hroot, -, program, hprogram, rfl⟩ := resolveWith_eq_ok h
  cases setting with
  | executable => exact ⟨p, hp, hprogram⟩
  | outputRoot => exact ⟨root, hroot, rfl⟩
  | dataDir => exact ⟨_, findSome?_path _ _ _, rfl⟩
  | parameterDir => exact ⟨_, findSome?_path _ _ _, rfl⟩
  | expectedDir => exact ⟨_, findSome?_path _ _ _, rfl⟩
  | programName => exact ⟨_, findSome?_getD _ _, rfl⟩
  | version => exact ⟨_, findSome?_getD _ _, rfl⟩
  | imageTolerance => exact ⟨_, rfl, rfl⟩

/-- Sources are refused for the first reason there is, and for no other. -/
theorem refused_iff : resolveWith t sources.environment sources.overrides sources.file = .error failure ↔
    sources.Refused t failure := by
  rw [resolveWith_eq]
  constructor
  · intro h
    cases hp : sources.decision? .executable with
    | none =>
      rw [hp] at h
      cases h
      exact .noExecutable (Sources.decision?_eq_none.mp hp)
    | some p =>
      have hexecutable := Sources.not_silent_iff.mpr ⟨p, hp⟩
      cases hroot : sources.decision? .outputRoot with
      | none =>
        rw [hp, hroot] at h
        cases h
        exact .noOutputRoot hexecutable (Sources.decision?_eq_none.mp hroot)
      | some root =>
        have houtputRoot := Sources.not_silent_iff.mpr ⟨root, hroot⟩
        rw [hp, hroot] at h
        dsimp only at h
        split_ifs at h with htolerance
        · cases hprogram : resolveExecutable t sources.environment.searchPath p with
          | ok program =>
            rw [hprogram] at h
            cases h
          | error found =>
            rw [hprogram] at h
            cases h
            obtain ⟨fault, rfl⟩ := resolveExecutable_error hprogram
            obtain ⟨source, hdecides⟩ := Sources.decides_of_decision? hp
            exact .program hdecides houtputRoot (Comparison.isTolerance_iff.mp htolerance) hprogram
        · cases h
          exact .tolerance hexecutable houtputRoot (mt Comparison.isTolerance_iff.mpr htolerance)
  · intro h
    cases h with
    | noExecutable missing => rw [Sources.decision?_eq_none.mpr missing]
    | noOutputRoot executable missing =>
      obtain ⟨p, hp⟩ := Sources.not_silent_iff.mp executable
      rw [hp, Sources.decision?_eq_none.mpr missing]
    | tolerance executable outputRoot wrong =>
      obtain ⟨p, hp⟩ := Sources.not_silent_iff.mp executable
      obtain ⟨root, hroot⟩ := Sources.not_silent_iff.mp outputRoot
      rw [hp, hroot]
      exact if_neg (mt Comparison.isTolerance_iff.mp wrong)
    | program decided outputRoot tolerance unfit =>
      obtain ⟨root, hroot⟩ := Sources.not_silent_iff.mp outputRoot
      rw [Sources.decision?_eq_some.mpr ⟨_, decided⟩, hroot]
      dsimp only
      rw [if_pos (Comparison.isTolerance_iff.mpr tolerance), unfit]
      rfl

/-- Sources are refused exactly when something is missing or wrong. -/
theorem exists_refused_iff : (∃ failure, sources.Refused t failure) ↔
    sources.Silent .executable ∨ sources.Silent .outputRoot ∨
      ¬(sources.file.imageTolerance.isFinite = true ∧ 0.0 ≤ sources.file.imageTolerance) ∨
      ∃ source p fault, sources.Decides .executable source p ∧
        resolveExecutable t sources.environment.searchPath p = .error (.executable p fault) := by
  constructor
  · rintro ⟨_, h⟩
    cases h with
    | noExecutable missing => exact .inl missing
    | noOutputRoot executable missing => exact .inr (.inl missing)
    | tolerance executable outputRoot wrong => exact .inr (.inr (.inl wrong))
    | program decided outputRoot tolerance unfit => exact .inr (.inr (.inr ⟨_, _, _, decided, unfit⟩))
  · intro h
    by_cases hexecutable : sources.Silent .executable
    · exact ⟨_, .noExecutable hexecutable⟩
    by_cases houtputRoot : sources.Silent .outputRoot
    · exact ⟨_, .noOutputRoot hexecutable houtputRoot⟩
    by_cases htolerance : sources.file.imageTolerance.isFinite = true ∧ 0.0 ≤ sources.file.imageTolerance
    · obtain h | h | h | ⟨source, p, fault, hdecided, hunfit⟩ := h
      · exact absurd h hexecutable
      · exact absurd h houtputRoot
      · exact absurd htolerance h
      · exact ⟨_, .program hdecided houtputRoot htolerance hunfit⟩
    · exact ⟨_, .tolerance hexecutable houtputRoot htolerance⟩

/-- Each setting of a configuration is taken from the first of its sources that gives a value. In every other
resolution with the same values in the sources up to that one, it is the same, whatever the sources behind it
and those of other settings give; for the executable, as long as the same programs are there. A resolution
fails exactly when a required setting is missing, the tolerance of the file is none or the executable is not
found, and the first of these is told. -/
theorem settings_by_precedence (t : FileTree) (sources : Sources) :
    (∀ c, resolveWith t sources.environment sources.overrides sources.file = .ok c → ∀ setting,
      ∃ source x, sources.Decides setting source x ∧
        Sources.Taken t sources.environment.searchPath setting x (c.value setting) ∧
        ∀ t' (sources' : Sources) c',
          resolveWith t' sources'.environment sources'.overrides sources'.file = .ok c' →
          (setting = .executable →
            t' = t ∧ sources'.environment.searchPath = sources.environment.searchPath) →
          (∀ other, other.rank ≤ source.rank →
            sources'.given setting other = sources.given setting other) →
          c'.value setting = c.value setting) ∧
    (∀ failure, resolveWith t sources.environment sources.overrides sources.file = .error failure ↔
      sources.Refused t failure) ∧
    ((∃ failure, resolveWith t sources.environment sources.overrides sources.file = .error failure) ↔
      sources.Silent .executable ∨ sources.Silent .outputRoot ∨
        ¬(sources.file.imageTolerance.isFinite = true ∧ 0.0 ≤ sources.file.imageTolerance) ∨
        ∃ source p fault, sources.Decides .executable source p ∧
          resolveExecutable t sources.environment.searchPath p = .error (.executable p fault)) := by
  refine ⟨fun c h setting => ?_, fun failure => refused_iff, ?_⟩
  · obtain ⟨x, hx, htaken⟩ := taken_of_resolveWith h setting
    obtain ⟨source, hdecides⟩ := Sources.decides_of_decision? hx
    refine ⟨source, x, hdecides, htaken, fun t' sources' c' h' hprograms hsame => ?_⟩
    obtain ⟨x', hx', htaken'⟩ := taken_of_resolveWith h' setting
    obtain ⟨source', hdecides'⟩ := Sources.decides_of_decision? hx'
    obtain rfl := (hdecides.congr hsame).unique hdecides'
    exact htaken.unique htaken' hprograms
  · simp only [refused_iff]
    exact exists_refused_iff

/-- A program named by a flag, in front of a variable, with an output root from the environment. -/
def flagged : Sources where
  overrides := ⟨some ⟨"other"⟩, none, none, none, none, none⟩
  environment := ⟨some "tool", some "out", Host.binHost.searchPath, ⟨"settings"⟩⟩
  file := SettingsFile.empty

def flaggedAgain : Sources where
  overrides := ⟨some ⟨"other"⟩, none, some ⟨"data"⟩, none, none, none⟩
  environment := ⟨some "", some "elsewhere", Host.binHost.searchPath, ⟨"settings"⟩⟩
  file := ⟨some ⟨"missing"⟩, some ⟨"root"⟩, none, none, none, some "other", none, 0.5⟩

theorem settings_by_precedence_flagged :
    ∃ c c', resolveWith Host.shadowedTree flagged.environment flagged.overrides flagged.file = .ok c ∧
      resolveWith Host.shadowedTree flaggedAgain.environment flaggedAgain.overrides flaggedAgain.file = .ok c' ∧
      c'.value .executable = c.value .executable ∧
      resolveWith Host.shadowedTree ⟨none, some "", ⟨[]⟩, ⟨"settings"⟩⟩ flagged.overrides SettingsFile.empty =
        .error (.missingSetting .outputRoot) := by
  have hfound : resolveExecutable Host.shadowedTree Host.binHost.searchPath ⟨"other"⟩ =
      .ok ⟨"bin/other"⟩ := rfl
  have hc : resolveWith Host.shadowedTree flagged.environment flagged.overrides flagged.file =
      .ok (flagged.configured ⟨"bin/other"⟩ ⟨"out"⟩) := by
    rw [resolveWith_eq]
    refine (if_pos (by decide +kernel)).trans ?_
    exact congrArg (Except.map (flagged.configured · ⟨"out"⟩)) hfound
  have hc' : resolveWith Host.shadowedTree flaggedAgain.environment flaggedAgain.overrides flaggedAgain.file =
      .ok (flaggedAgain.configured ⟨"bin/other"⟩ ⟨"elsewhere"⟩) := by
    rw [resolveWith_eq]
    refine (if_pos (by decide +kernel)).trans ?_
    exact congrArg (Except.map (flaggedAgain.configured · ⟨"elsewhere"⟩)) hfound
  refine ⟨_, _, hc, hc', ?_, ?_⟩
  · obtain ⟨source, x, hdecides, -, hsame⟩ :=
      (settings_by_precedence Host.shadowedTree flagged).1 _ hc .executable
    have hflag : flagged.Decides .executable .flag ⟨"other"⟩ :=
      ⟨rfl, fun _ hlt => absurd hlt (Nat.not_lt_zero _)⟩
    obtain rfl := hflag.source_unique hdecides
    refine hsame _ _ _ hc' (fun _ => ⟨rfl, rfl⟩) fun other hle => ?_
    cases other <;> first | rfl | simp [Source.rank] at hle
  · have hsilent : Sources.Silent
        ⟨flagged.overrides, ⟨none, some "", ⟨[]⟩, ⟨"settings"⟩⟩, SettingsFile.empty⟩ .outputRoot := by
      rintro (_ | _ | _ | _) <;> rfl
    refine ((settings_by_precedence Host.shadowedTree
      ⟨flagged.overrides, ⟨none, some "", ⟨[]⟩, ⟨"settings"⟩⟩, SettingsFile.empty⟩).2.1 _).mpr
        (.noOutputRoot (fun hflag => nomatch hflag .flag) hsilent)

end Configuration

end Assay
