import Assay.Proofs.FileTree.Directories
import Assay.Proofs.Path.Components
import Assay.Proofs.Run.Verdict
import Assay.Proofs.Scenario.Validation

namespace Assay

namespace Scenario

/-- Two different scenarios of a valid catalog have different names. -/
theorem name_ne_of_validate {scenarios : List Scenario} {s s' : Scenario} {i j : Nat}
    (h : validate scenarios = .ok ()) (hi : scenarios[i]? = some s) (hj : scenarios[j]? = some s')
    (hne : i ≠ j) : s.name ≠ s'.name := by
  intro hname
  have hnodup := (validateFrom_eq_ok.mp h).1
  have hi' : (scenarios.map Scenario.name)[i]? = some s.name := by rw [List.getElem?_map, hi]; rfl
  have hj' : (scenarios.map Scenario.name)[j]? = some s.name := by rw [List.getElem?_map, hj, hname]; rfl
  obtain ⟨hlt, -⟩ := List.getElem?_eq_some_iff.mp hi'
  exact hne ((List.getElem?_inj hlt hnodup).mp (hi'.trans hj'.symm))

end Scenario

namespace Workspace
open Run FileTree

/-- Two directories with different steps, neither of which lies in the other. -/
structure Apart (p q : Path) : Prop where
  different : p.components ≠ q.components
  left : ¬p.components <+: q.components
  right : ¬q.components <+: p.components

/-- A path whose steps are those of a directory with names behind them. -/
def Within (directory p : Path) : Prop :=
  ∃ names : List String, p.components = directory.components ++ names.map Component.name

def making (directory : Path) : Run Path := do
  make directory
  pure directory

/-- A workspace below whose directory every other is made: a request is refused without a trace, or it is
that for a path within the directory. -/
def Confined (w : Workspace) : Prop :=
  ∀ (relative : String) (t : FileTree),
    onTree (w.subdirectory relative) t = (.error (.settings (.escapingDirectory relative)), t) ∨
      Within w.directory (w.directory.join ⟨relative⟩) ∧
        onTree (w.subdirectory relative) t = onTree (making (w.directory.join ⟨relative⟩)) t

/-- Making a directory with those above it, none of which lies in another directory. -/
def AddsOutside (avoided made : Path) (t left : FileTree) : Prop :=
  left = t ∨ Adds made.ancestors t left ∧ ∀ q ∈ made.ancestors, ¬avoided.components <+: q.components

def Entered (c : Configuration) (name : String) (w : Workspace) : Prop :=
  ∃ t left, onTree (enter c name) t = (.ok w, left)

section Names

theorem isName_toList {name : String} (h : isName name = true) : Path.IsName name.toList := by
  simp only [isName, Bool.not_eq_true', Bool.or_eq_false_iff, beq_eq_false_iff_ne] at h
  obtain ⟨⟨⟨⟨hempty, hdot⟩, hback⟩, hslash⟩, -⟩ := h
  have hne : ∀ other : String, name ≠ other → name.toList ≠ other.toList := fun other hother he =>
    hother (String.toList_inj.mp he)
  refine ⟨?_, hne ".." hback, ?_⟩
  · rw [Path.isIdle, Bool.or_eq_false_iff, beq_eq_false_iff_ne, beq_eq_false_iff_ne]
    refine ⟨?_, hne "." hdot⟩
    rintro hnil
    rw [String.toList_eq_nil_iff.mp hnil] at hempty
    cases hempty
  · intro hm
    rw [List.contains_iff_mem.mpr hm] at hslash
    cases hslash

variable {c : Configuration} {name other : String} {w w' : Workspace}

theorem Entered.named (h : Entered c name w) : Path.IsName name.toList := by
  obtain ⟨t, left, he⟩ := h
  exact isName_toList (enter_ok.mp he).1

theorem Entered.eq (h : Entered c name w) : w = ⟨c, c.outputRoot.join ⟨name⟩⟩ := by
  obtain ⟨t, left, he⟩ := h
  exact (enter_ok.mp he).2.1

theorem Entered.components (h : Entered c name w) :
    w.directory.components = c.outputRoot.components ++ [.name name] := by
  rw [h.eq]
  exact Path.components_join_name h.named c.outputRoot

theorem Entered.ne_nil (h : Entered c name w) : w.directory.text.toList ≠ [] := by
  rw [h.eq]
  exact Path.join_ne_nil c.outputRoot h.named.ne_nil

/-- What starts with the steps of one directory does not start with those of its neighbour. -/
theorem Entered.not_above (h : Entered c name w) (h' : Entered c other w') (hne : name ≠ other)
    {p : Path} {names : List String}
    (hp : p.components = w.directory.components ++ names.map Component.name) :
    ¬w'.directory.components <+: p.components := by
  rw [hp, h.components, h'.components, List.append_assoc, List.prefix_append_right_inj,
    List.singleton_append, List.cons_prefix_cons]
  rintro ⟨hname, -⟩
  exact hne (Component.name.inj hname).symm

theorem Entered.apart (h : Entered c name w) (h' : Entered c other w') (hne : name ≠ other) :
    Apart w.directory w'.directory := by
  have hself : ∀ p : Path, p.components = p.components ++ ([] : List String).map Component.name :=
    fun p => (List.append_nil _).symm
  have hleft := h'.not_above h (Ne.symm hne) (hself w'.directory)
  have hright := h.not_above h' hne (hself w.directory)
  exact ⟨fun he => hleft (he ▸ List.prefix_rfl), hleft, hright⟩

end Names

section Subdirectories

variable {c : Configuration} {name other : String} {w w' : Workspace}

theorem subdirectory_refused {relative : String} (h : staysInside ⟨relative⟩ = false) (t : FileTree) :
    onTree (w.subdirectory relative) t = (.error (.settings (.escapingDirectory relative)), t) := by
  unfold subdirectory
  rw [h]
  rfl

theorem subdirectory_made {relative : String} (h : staysInside ⟨relative⟩ = true) (t : FileTree) :
    onTree (w.subdirectory relative) t = onTree (making (w.directory.join ⟨relative⟩)) t := by
  unfold subdirectory
  rw [h]
  rfl

theorem Entered.within (h : Entered c name w) {relative : String}
    (hin : staysInside ⟨relative⟩ = true) :
    Within w.directory (w.directory.join ⟨relative⟩) := by
  rw [staysInside, Bool.and_eq_true, Bool.not_eq_true', Bool.not_eq_true'] at hin
  obtain ⟨hrelative, hparent⟩ := hin
  have hdown : Component.parent ∉ (Path.mk relative).components := by
    intro hm
    rw [List.contains_iff_mem.mpr hm] at hparent
    cases hparent
  obtain ⟨names, hnames⟩ := Path.exists_names hdown
  exact ⟨names, by rw [Path.components_join h.ne_nil hrelative, hnames]⟩

theorem Entered.confined (h : Entered c name w) : w.Confined := by
  intro relative t
  cases hin : staysInside ⟨relative⟩ with
  | false => exact .inl (subdirectory_refused hin t)
  | true => exact .inr ⟨h.within hin, subdirectory_made hin t⟩

theorem onTree_make (p : Path) (t : FileTree) :
    onTree (make p) t =
      ((t.makeDirectories p).2.mapError (Failure.outputDirectory p), (t.makeDirectories p).1) := by
  unfold make
  rw [onTree_bind, onTree_get]
  cases h : t.makeDirectories p with
  | mk made result =>
    cases result with
    | error cause => simp [h, onTree_bind, Except.mapError]
    | ok _ => simp [h, Except.mapError]

theorem left_bind_pure {α β : Type} (x : Run α) (b : β) (t : FileTree) :
    (onTree (x >>= fun _ => pure b) t).2 = (onTree x t).2 :=
  left_bind_of_reads fun _ _ => rfl

theorem left_making (p : Path) (t : FileTree) :
    (onTree (making p) t).2 = (t.makeDirectories p).1 := by
  unfold making
  rw [left_bind_pure, onTree_make]

theorem enter_of_name (c : Configuration) (h : isName name = true) :
    enter c name = (make (c.outputRoot.join ⟨name⟩) >>= fun _ =>
      pure ⟨c, c.outputRoot.join ⟨name⟩⟩) := by
  unfold enter
  rw [h]
  rfl

/-- A name that is none leaves no trace. -/
theorem enter_refused (h : isName name = false) (t : FileTree) :
    onTree (enter c name) t = (.error (.invalidScenario name .badName), t) := by
  unfold enter
  rw [h]
  rfl

/-- The directories above one whose steps start with those of an output directory do not lie in another
output directory. -/
theorem Entered.spares (h : Entered c name w) (h' : Entered c other w') (hne : name ≠ other) {p : Path}
    (hp : Within w.directory p) : ∀ q ∈ p.ancestors, ¬w'.directory.components <+: q.components := by
  obtain ⟨names, hnames⟩ := hp
  intro q hq hbelow
  exact h.not_above h' hne hnames (hbelow.trans (Path.components_ancestors hq))

theorem Entered.enter_outside (h : Entered c name w) (h' : Entered c other w') (hne : name ≠ other)
    (t : FileTree) : AddsOutside w'.directory w.directory t (onTree (enter c name) t).2 := by
  obtain ⟨u, left, he⟩ := h
  have hself : Within w.directory w.directory := ⟨[], (List.append_nil _).symm⟩
  refine .inr ⟨?_, Entered.spares ⟨u, left, he⟩ h' hne hself⟩
  obtain ⟨hname, hw, -⟩ := enter_ok.mp he
  rw [enter_of_name c hname, left_bind_pure, onTree_make, hw]
  exact adds_makeDirectories t _

theorem Entered.subdirectory_outside (h : Entered c name w) (h' : Entered c other w')
    (hne : name ≠ other) (relative : String) (t : FileTree) :
    AddsOutside w'.directory (w.directory.join ⟨relative⟩) t (onTree (w.subdirectory relative) t).2 := by
  rcases h.confined relative t with hrefused | ⟨hwithin, hmade⟩
  · left
    rw [hrefused]
  · right
    rw [hmade, left_making]
    exact ⟨adds_makeDirectories t _, h.spares h' hne hwithin⟩

end Subdirectories

/-- In a valid catalog, the output directories of two scenarios are apart, each workspace makes directories
in its own only, none that is made for one lies in the directory of the other, and a name that is refused
leaves no trace. -/
theorem outputs_disjoint {c : Configuration} {scenarios : List Scenario}
    (hv : Scenario.validate scenarios = .ok ()) :
    (∀ (i j : Nat) (s s' : Scenario) (w w' : Workspace), i ≠ j → scenarios[i]? = some s →
      scenarios[j]? = some s' → Entered c s.name w → Entered c s'.name w' →
        Apart w.directory w'.directory ∧
        (∀ t, AddsOutside w'.directory w.directory t (onTree (enter c s.name) t).2) ∧
        ∀ relative t, AddsOutside w'.directory (w.directory.join ⟨relative⟩) t
          (onTree (w.subdirectory relative) t).2) ∧
    (∀ name w, Entered c name w → w.Confined) ∧
    ∀ name, isName name = false → ∀ t,
      onTree (enter c name) t = (.error (.invalidScenario name .badName), t) := by
  refine ⟨?_, fun _ _ h => h.confined, fun _ h t => enter_refused h t⟩
  intro i j s s' w w' hne hi hj hw hw'
  have hnames := Scenario.name_ne_of_validate hv hi hj hne
  exact ⟨hw.apart hw' hnames, hw.enter_outside hw' hnames, hw.subdirectory_outside hw' hnames⟩

def neighbour : Scenario :=
  { Scenario.greeting with name := "greeting." }

theorem entered_greeting : Entered Scenario.plainSettings "greeting"
    (Scenario.greeting.workspace Scenario.plainSettings) := by
  have hmade : (FileTree.mk [] []).makeDirectories ⟨"outputs/greeting"⟩ =
      (⟨[(["outputs"], .directory), (["outputs", "greeting"], .directory)], []⟩, .ok ()) := by
    decide +kernel
  exact ⟨_, _, enter_ok.mpr ⟨by decide +kernel, rfl, hmade⟩⟩

theorem entered_neighbour : Entered Scenario.plainSettings "greeting."
    (neighbour.workspace Scenario.plainSettings) := by
  have hmade : (FileTree.mk [] []).makeDirectories ⟨"outputs/greeting."⟩ =
      (⟨[(["outputs"], .directory), (["outputs", "greeting."], .directory)], []⟩, .ok ()) := by
    decide +kernel
  exact ⟨_, _, enter_ok.mpr ⟨by decide +kernel, rfl, hmade⟩⟩

theorem outputs_disjoint_neighbours :
    Scenario.validate [Scenario.greeting, neighbour] = .ok () ∧
      Apart ⟨"outputs/greeting"⟩ ⟨"outputs/greeting."⟩ ∧
      ∀ relative t, AddsOutside ⟨"outputs/greeting."⟩ (Path.join ⟨"outputs/greeting"⟩ ⟨relative⟩) t
        (onTree ((Scenario.greeting.workspace Scenario.plainSettings).subdirectory relative) t).2 := by
  have hv : Scenario.validate [Scenario.greeting, neighbour] = .ok () := rfl
  obtain ⟨hapart, -, hbelow⟩ := (@outputs_disjoint Scenario.plainSettings _ hv).1 0 1 Scenario.greeting
    neighbour _ _ (by decide) rfl rfl entered_greeting entered_neighbour
  have hown : (Scenario.greeting.workspace Scenario.plainSettings).directory = ⟨"outputs/greeting"⟩ := by
    decide +kernel
  have hother : (neighbour.workspace Scenario.plainSettings).directory = ⟨"outputs/greeting."⟩ := by
    decide +kernel
  rw [hown, hother] at hapart
  rw [hown, hother] at hbelow
  exact ⟨hv, hapart, hbelow⟩

end Workspace

end Assay
