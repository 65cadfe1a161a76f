import Mathlib.Tactic.ByContra
import Mathlib.Tactic.SplitIfs
import Assay.Scenario.Catalog
import Assay.Scenario.Validation

namespace Assay

theorem Catalog.select_sublist (filter : Option String) (scenarios : List Scenario) :
    (select filter scenarios).Sublist scenarios := by
  cases filter with
  | none => exact List.Sublist.refl scenarios
  | some text => exact List.filter_sublist

/-- The names of the built-in scenarios do not depend on the program. -/
theorem Catalog.map_name_builtin (program version : String) :
    (builtin program version).map Scenario.name =
      ["without_arguments", "help", "version", "extended_version", "missing_tp_commandline_option",
        "missing_out_commandline_option", "missing_input_commandline_option", "translation_of_images",
        "translation_of_points", "translation_of_images_and_points"] := rfl

namespace Scenario

/-- A scenario that can stand in a catalog as far as it is concerned itself. -/
structure IsSound (s : Scenario) : Prop where
  artifacts : s.exit = .failure → s.artifacts = []
  tolerances : ∀ produced expected x, .image produced expected (some x) ∈ s.artifacts →
    x.isFinite = true ∧ 0.0 ≤ x

/-- A scenario that repeats one of the names in front of it, or is not sound. -/
def Offends (earlier : List String) (s : Scenario) : Prop :=
  s.name ∈ earlier ∨ (s.exit = .failure ∧ s.artifacts ≠ []) ∨
    ∃ produced expected x, .image produced expected (some x) ∈ s.artifacts ∧
      ¬(x.isFinite = true ∧ 0.0 ≤ x)

/-- What is told of a scenario: a name that was there before, or else artifacts that a failure cannot have, or
else the first tolerance of its artifacts that is none. -/
inductive Blame (earlier : List String) (s : Scenario) : Failure → Prop
  | repeated (name : s.name ∈ earlier) : Blame earlier s (.duplicateScenario s.name)
  | artifacts (name : s.name ∉ earlier) (exit : s.exit = .failure) (some : s.artifacts ≠ []) :
    Blame earlier s (.invalidScenario s.name .failureWithArtifacts)
  | tolerance {front back : List Artifact} {produced expected : String} {x : Float} (name : s.name ∉ earlier)
    (none : s.exit = .failure → s.artifacts = [])
    (split : s.artifacts = front ++ .image produced expected (some x) :: back)
    (first : ∀ produced expected y, .image produced expected (some y) ∈ front →
      y.isFinite = true ∧ 0.0 ≤ y)
    (wrong : ¬(x.isFinite = true ∧ 0.0 ≤ x)) :
    Blame earlier s (.invalidScenario s.name (.badTolerance x))

variable {a : Artifact} {s : Scenario} {seen : List String} {scenarios : List Scenario} {failure : Failure}
  {x : Float}

section OneScenario

theorem badTolerance?_eq_some : badTolerance? a = some x ↔
    (∃ produced expected, a = .image produced expected (some x)) ∧ ¬(x.isFinite = true ∧ 0.0 ≤ x) := by
  cases a with
  | exactText produced text => exact iff_of_false nofun nofun
  | exactFile produced expected => exact iff_of_false nofun nofun
  | image produced expected tolerance =>
    cases tolerance with
    | none => exact iff_of_false nofun nofun
    | some y =>
      rw [badTolerance?, ← Comparison.isTolerance_iff]
      split_ifs with hy
      · refine iff_of_false nofun ?_
        rintro ⟨⟨_, _, heq⟩, hwrong⟩
        cases heq
        exact hwrong hy
      · constructor
        · intro heq
          cases heq
          exact ⟨⟨produced, expected, rfl⟩, hy⟩
        · rintro ⟨⟨_, _, heq⟩, -⟩
          cases heq
          rfl

theorem badTolerance?_eq_none : badTolerance? a = none ↔
    ∀ produced expected x, a = .image produced expected (some x) → x.isFinite = true ∧ 0.0 ≤ x := by
  rw [Option.eq_none_iff_forall_ne_some]
  constructor
  · intro h produced expected x ha
    by_contra hwrong
    exact h x (badTolerance?_eq_some.mpr ⟨⟨produced, expected, ha⟩, hwrong⟩)
  · intro h x hx
    obtain ⟨⟨produced, expected, ha⟩, hwrong⟩ := badTolerance?_eq_some.mp hx
    exact hwrong (h produced expected x ha)

theorem noBadTolerance_iff {artifacts : List Artifact} : (∀ a ∈ artifacts, badTolerance? a = none) ↔
    ∀ produced expected x, .image produced expected (some x) ∈ artifacts →
      x.isFinite = true ∧ 0.0 ≤ x := by
  simp only [badTolerance?_eq_none]
  exact ⟨fun h produced expected x hm => h _ hm _ _ _ rfl, fun h a hm _ _ _ ha => h _ _ _ (ha ▸ hm)⟩

theorem fault?_eq_some : fault? seen s = some failure ↔ Blame seen s failure := by
  rw [fault?]
  split_ifs with hname hartifacts
  · rw [List.contains_iff_mem] at hname
    constructor
    · intro h
      cases h
      exact .repeated hname
    · rintro (_ | ⟨hnew, -, -⟩ | ⟨hnew, -, -, -, -⟩)
      · rfl
      · exact absurd hname hnew
      · exact absurd hname hnew
  · rw [List.contains_iff_mem] at hname
    rw [Bool.not_eq_true', List.isEmpty_eq_false_iff] at hartifacts
    constructor
    · intro h
      cases h
      exact .artifacts hname hartifacts.1 hartifacts.2
    · rintro (hseen | - | ⟨-, hnone, -, -, -⟩)
      · exact absurd hseen hname
      · rfl
      · exact absurd (hnone hartifacts.1) hartifacts.2
  · rw [List.contains_iff_mem] at hname
    rw [Bool.not_eq_true', List.isEmpty_eq_false_iff, not_and, Decidable.not_not] at hartifacts
    simp only [Option.map_eq_some_iff, List.findSome?_eq_some_iff, noBadTolerance_iff, badTolerance?_eq_some]
    constructor
    · rintro ⟨x, ⟨front, _, back, hsplit, ⟨⟨produced, expected, rfl⟩, hwrong⟩, hfirst⟩, rfl⟩
      exact .tolerance hname hartifacts hsplit hfirst hwrong
    · rintro (hseen | ⟨-, hexit, hsome⟩ | ⟨-, -, hsplit, hfirst, hwrong⟩)
      · exact absurd hseen hname
      · exact absurd (hartifacts hexit) hsome
      · exact ⟨_, ⟨_, _, _, hsplit, ⟨⟨_, _, rfl⟩, hwrong⟩, hfirst⟩, rfl⟩

theorem fault?_eq_none : fault? seen s = none ↔ s.name ∉ seen ∧ s.IsSound := by
  rw [fault?]
  split_ifs with hname hartifacts
  · rw [List.contains_iff_mem] at hname
    exact iff_of_false nofun fun h => h.1 hname
  · rw [Bool.not_eq_true', List.isEmpty_eq_false_iff] at hartifacts
    exact iff_of_false nofun fun h => hartifacts.2 (h.2.artifacts hartifacts.1)
  · rw [List.contains_iff_mem] at hname
    rw [Bool.not_eq_true', List.isEmpty_eq_false_iff, not_and, Decidable.not_not] at hartifacts
    rw [Option.map_eq_none_iff, List.findSome?_eq_none_iff, noBadTolerance_iff]
    exact ⟨fun h => ⟨hname, hartifacts, h⟩, fun h => h.2.tolerances⟩

theorem not_offends_iff : ¬Offends seen s ↔ s.name ∉ seen ∧ s.IsSound := by
  constructor
  · intro h
    refine ⟨fun hname => h (.inl hname), fun hexit => ?_, fun produced expected x hm => ?_⟩
    · by_contra hsome
      exact h (.inr (.inl ⟨hexit, hsome⟩))
    · by_contra hwrong
      exact h (.inr (.inr ⟨produced, expected, x, hm, hwrong⟩))
  · rintro ⟨hname, hsound⟩ (hseen | ⟨hexit, hsome⟩ | ⟨produced, expected, x, hm, hwrong⟩)
    · exact hname hseen
    · exact hsome (hsound.artifacts hexit)
    · exact hwrong (hsound.tolerances produced expected x hm)

/-- Names that were seen count by what they are, not by when they were seen. -/
theorem fault?_congr {seen' : List String} (h : ∀ name, name ∈ seen ↔ name ∈ seen') :
    fault? seen s = fault? seen' s := by
  have hcontains : seen.contains s.name = seen'.contains s.name := by
    rw [Bool.eq_iff_iff, List.contains_iff_mem, List.contains_iff_mem, h]
  rw [fault?, fault?, hcontains]

end OneScenario

/-- Scenarios are valid behind those with certain names when each is sound, they have names of their own, and
none of the names was there before. -/
theorem validateFrom_eq_ok : validateFrom seen scenarios = .ok () ↔
    (scenarios.map Scenario.name).Nodup ∧ (∀ s ∈ scenarios, s.name ∉ seen) ∧
      ∀ s ∈ scenarios, s.IsSound := by
  induction scenarios generalizing seen with
  | nil => simp [validateFrom]
  | cons s rest ih =>
    rw [validateFrom, List.map_cons, List.nodup_cons, List.forall_mem_cons, List.forall_mem_cons]
    cases hf : fault? seen s with
    | some failure =>
      refine iff_of_false nofun ?_
      rintro ⟨-, ⟨hname, -⟩, hsound, -⟩
      rw [fault?_eq_none.mpr ⟨hname, hsound⟩] at hf
      cases hf
    | none =>
      obtain ⟨hname, hsound⟩ := fault?_eq_none.mp hf
      -- a name that was not seen with this one among those seen is another one
      have hseen : (∀ r ∈ rest, r.name ∉ s.name :: seen) ↔
          s.name ∉ rest.map Scenario.name ∧ ∀ r ∈ rest, r.name ∉ seen := by
        simp only [List.mem_cons, not_or, List.mem_map, not_exists, not_and]
        exact ⟨fun h => ⟨fun r hr => (h r hr).1, fun r hr => (h r hr).2⟩,
          fun h r hr => ⟨h.1 r hr, h.2 r hr⟩⟩
      dsimp only
      rw [ih, hseen]
      constructor
      · rintro ⟨hnodup, ⟨hfirst, hnew⟩, hall⟩
        exact ⟨⟨hfirst, hnodup⟩, ⟨hname, hnew⟩, hsound, hall⟩
      · rintro ⟨⟨hfirst, hnodup⟩, ⟨-, hnew⟩, -, hall⟩
        exact ⟨hnodup, ⟨hfirst, hnew⟩, hall⟩

def namesBefore (scenarios : List Scenario) (i : Nat) : List String :=
  (scenarios.take i).map Scenario.name

theorem fault?_namesBefore_cons {other : Scenario} (i : Nat) :
    fault? (namesBefore (s :: scenarios) (i + 1) ++ seen) other =
      fault? (namesBefore scenarios i ++ s.name :: seen) other := by
  apply fault?_congr
  intro name
  simp only [namesBefore, List.take_succ_cons, List.map_cons, List.cons_append, List.mem_append, List.mem_cons]
  exact or_left_comm

/-- What is told of scenarios that are not valid behind those with certain names: the fault of the first that
has one. -/
theorem validateFrom_eq_error : validateFrom seen scenarios = .error failure ↔
    ∃ i s, scenarios[i]? = some s ∧ fault? (namesBefore scenarios i ++ seen) s = some failure ∧
      ∀ j < i, ∀ other, scenarios[j]? = some other →
        fault? (namesBefore scenarios j ++ seen) other = none := by
  induction scenarios generalizing seen with
  | nil => simp [validateFrom]
  | cons s rest ih =>
    rw [validateFrom]
    cases hf : fault? seen s with
    | some found =>
      dsimp only
      rw [Except.error.injEq]
      constructor
      · rintro rfl
        exact ⟨0, s, rfl, hf, fun j hj => absurd hj (Nat.not_lt_zero j)⟩
      · rintro ⟨i, other, hi, hother, hfirst⟩
        cases i with
        | zero =>
          cases hi
          exact Option.some.inj (hf.symm.trans hother)
        | succ i =>
          cases hf.symm.trans (hfirst 0 (Nat.succ_pos i) s rfl)
    | none =>
      dsimp only
      rw [ih]
      constructor
      · rintro ⟨i, other, hi, hother, hfirst⟩
        refine ⟨i + 1, other, hi, (fault?_namesBefore_cons i).trans hother, fun j hj another hanother => ?_⟩
        cases j with
        | zero =>
          cases hanother
          exact hf
        | succ j => exact (fault?_namesBefore_cons j).trans (hfirst j (Nat.lt_of_succ_lt_succ hj) another hanother)
      · rintro ⟨i, other, hi, hother, hfirst⟩
        cases i with
        | zero =>
          cases hi
          cases hf.symm.trans hother
        | succ i =>
          refine ⟨i, other, hi, (fault?_namesBefore_cons i).symm.trans hother, fun j hj another hanother => ?_⟩
          exact (fault?_namesBefore_cons j).symm.trans (hfirst (j + 1) (Nat.succ_lt_succ hj) another hanother)

/-- Valid scenarios stay valid when some of them are left out. -/
theorem validate_sublist {kept : List Scenario} (hkept : kept.Sublist scenarios)
    (h : validate scenarios = .ok ()) : validate kept = .ok () := by
  obtain ⟨hnodup, -, hsound⟩ := validateFrom_eq_ok.mp h
  exact validateFrom_eq_ok.mpr ⟨hnodup.sublist (hkept.map Scenario.name), fun _ _ => List.not_mem_nil,
    fun s hs => hsound s (hkept.subset hs)⟩

theorem validate_builtin (program version : String) : validate (Catalog.builtin program version) = .ok () := by
  have hsound : ∀ s ∈ Catalog.builtin program version, s.IsSound := by
    simp only [Catalog.builtin, List.forall_mem_cons, List.not_mem_nil, false_imp_iff, implies_true, and_true]
    refine ⟨?_, ?_, ?_, ?_, ?_, ?_, ?_, ?_, ?_, ?_⟩ <;> constructor <;>
      simp [Catalog.banner, Catalog.refused, Catalog.transformed, Catalog.imageArtifact]
  refine validateFrom_eq_ok.mpr ⟨?_, fun _ _ => List.not_mem_nil, hsound⟩
  rw [Catalog.map_name_builtin]
  decide

/-- A catalog is accepted exactly when its names are different, no scenario for a failure has artifacts and every
tolerance is finite and not negative. Otherwise the first scenario that offends is told, with the worst that is
wrong with it. What is selected from an accepted catalog is accepted, and so are the built-in scenarios. -/
theorem validate_exact (scenarios : List Scenario) :
    (validate scenarios = .ok () ↔ (scenarios.map Scenario.name).Nodup ∧
      (∀ s ∈ scenarios, s.exit = .failure → s.artifacts = []) ∧
      ∀ s ∈ scenarios, ∀ produced expected x, .image produced expected (some x) ∈ s.artifacts →
        x.isFinite = true ∧ 0.0 ≤ x) ∧
    (∀ failure, validate scenarios = .error failure ↔ ∃ i s, scenarios[i]? = some s ∧
      Blame (namesBefore scenarios i) s failure ∧
      ∀ j < i, ∀ other, scenarios[j]? = some other → ¬Offends (namesBefore scenarios j) other) ∧
    (∀ filter, validate scenarios = .ok () → validate (Catalog.select filter scenarios) = .ok ()) ∧
    ∀ program version, validate (Catalog.builtin program version) = .ok () := by
  refine ⟨?_, fun failure => ?_, fun filter => ?_, validate_builtin⟩
  · rw [validate, validateFrom_eq_ok]
    constructor
    · rintro ⟨hnodup, -, hsound⟩
      exact ⟨hnodup, fun s hs => (hsound s hs).artifacts, fun s hs => (hsound s hs).tolerances⟩
    · rintro ⟨hnodup, hartifacts, htolerances⟩
      exact ⟨hnodup, fun _ _ => List.not_mem_nil, fun s hs => ⟨hartifacts s hs, htolerances s hs⟩⟩
  · simp only [validate, validateFrom_eq_error, List.append_nil, fault?_eq_some, not_offends_iff,
      fault?_eq_none]
  · exact validate_sublist (Catalog.select_sublist filter scenarios)

def tolerant (name : String) (exit : ExitClass) (tolerance : Float) : Scenario :=
  ⟨name, none, [], [], exit, .any, .any, [.image "a.mhd" "b.mhd" (some tolerance)]⟩

/-- A repeated name is told in front of everything else that is wrong with a scenario, and what comes behind it
is not told. -/
theorem validate_exact_doubled :
    validate [tolerant "a" .success 0.5, tolerant "a" .failure (-1.0), tolerant "b" .success (-1.0)] =
      .error (.duplicateScenario "a") := by
  refine ((validate_exact _).2.1 _).mpr ⟨1, _, rfl, .repeated List.mem_cons_self, fun j hj other hother => ?_⟩
  obtain rfl : j = 0 := Nat.lt_one_iff.mp hj
  cases hother
  have hsound : (tolerant "a" .success 0.5).IsSound := by
    refine ⟨nofun, fun produced expected x hm => ?_⟩
    cases List.mem_singleton.mp hm
    decide +kernel
  exact not_offends_iff.mpr ⟨List.not_mem_nil, hsound⟩

end Scenario

end Assay
