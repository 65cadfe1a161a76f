import Assay.Proofs.Path.Components
import Assay.Proofs.Workspace.Disjoint

namespace Assay

namespace Workspace

def ofName (c : Configuration) (name : String) : Workspace :=
  ⟨c, c.outputRoot.join ⟨name⟩⟩

def leads (w : Workspace) (template : String) : Bool :=
  w.placeholders.any fun p => p.1.isPrefixOf template.toList

/-- The path that a template is meant to be: by itself if it starts with a placeholder or becomes absolute,
else below a directory. -/
def anchored (w : Workspace) (base : Path) (template : String) : Path :=
  if w.leads template || (Path.mk (w.expand template)).isAbsolute then ⟨w.expand template⟩
  else base.join ⟨w.expand template⟩

/-- A template that starts with a brace, but with no placeholder, and does not become absolute. -/
structure Stray (w : Workspace) (template : String) : Prop where
  brace : template.toList.head? = some '\x7b'
  leads : w.leads template = false
  relative : (Path.mk (w.expand template)).isAbsolute = false

variable {w : Workspace} {base : Path} {template : String}

/-- Every placeholder starts with a brace. -/
theorem brace_of_leads (h : w.leads template = true) : template.toList.head? = some '\x7b' := by
  obtain ⟨p, hp, hprefix⟩ := List.any_eq_true.mp h
  obtain ⟨rest, hrest⟩ := List.isPrefixOf_iff_prefix.mp hprefix
  have hbrace : p.1.head? = some '\x7b' := by
    simp only [placeholders, List.mem_cons, List.not_mem_nil, or_false] at hp
    rcases hp with rfl | rfl | rfl | rfl <;> rfl
  rw [← hrest, List.head?_append, hbrace]
  rfl

theorem expandBelow_of_stray (h : w.Stray template) (base : Path) :
    w.expandBelow base template = ⟨w.expand template⟩ := by
  rw [expandBelow, h.relative, h.brace]
  rfl

theorem anchored_of_stray (h : w.Stray template) (base : Path) :
    w.anchored base template = base.join ⟨w.expand template⟩ := by
  rw [anchored, h.relative, h.leads]
  rfl

theorem expandBelow_of_not_stray (h : ¬w.Stray template) (base : Path) :
    w.expandBelow base template = w.anchored base template := by
  rw [expandBelow, anchored]
  cases habsolute : (Path.mk (w.expand template)).isAbsolute with
  | true => simp
  | false =>
    cases hleads : w.leads template with
    | true => simp [brace_of_leads hleads]
    | false =>
      have hbrace : template.toList.head? ≠ some '\x7b' := fun hb => h ⟨hb, hleads, habsolute⟩
      simp [hbrace]

/-- A template has the path that it is meant to be unless it is stray, which then is taken to be relative to
another directory than that of the scenario. -/
theorem expandBelow_eq_anchored_iff :
    w.expandBelow base template = w.anchored base template ↔ (w.Stray template → base.text = "") := by
  by_cases hstray : w.Stray template
  · rw [expandBelow_of_stray hstray, anchored_of_stray hstray, forall_prop_of_true hstray]
    constructor
    · intro heq
      by_contra hbase
      exact Path.join_ne_self (mt String.toList_eq_nil_iff.mp hbase) hstray.relative heq.symm
    · intro hbase
      exact (Path.join_of_empty (String.toList_eq_nil_iff.mpr hbase) hstray.relative).symm
  · exact iff_of_true (expandBelow_of_not_stray hstray base) fun h => absurd h hstray

theorem ofName_ne_empty (c : Configuration) {name : String} (h : isName name = true) :
    (ofName c name).directory.text ≠ "" := by
  rw [ne_eq, ← String.toList_eq_nil_iff]
  exact Path.join_ne_nil c.outputRoot (isName_toList h).ne_nil

/-- Templates of produced files are anchored in the output directory, and those of reference files in the
directory of expected files, unless they are stray. A stray template is taken by itself, so only where the
directory of expected files is the working directory it has the path that it is meant to be. -/
theorem paths_anchored_iff (c : Configuration) {name : String} (h : isName name = true) (template : String) :
    ((ofName c name).outputPath template =
        (ofName c name).anchored (ofName c name).directory template ↔ ¬(ofName c name).Stray template) ∧
    ((ofName c name).expectedPath template = (ofName c name).anchored c.expectedDir template ↔
      ((ofName c name).Stray template → c.expectedDir.text = "")) ∧
    ((ofName c name).Stray template →
      (ofName c name).outputPath template = ⟨(ofName c name).expand template⟩ ∧
        (ofName c name).expectedPath template = ⟨(ofName c name).expand template⟩) := by
  refine ⟨?_, expandBelow_eq_anchored_iff, fun hstray => ?_⟩
  · rw [outputPath, expandBelow_eq_anchored_iff]
    exact imp_congr_right fun _ => iff_of_false (ofName_ne_empty c h) id
  · exact ⟨expandBelow_of_stray hstray _, expandBelow_of_stray hstray _⟩

/-- A placeholder that does not stand at the start does not replace the directory. -/
theorem paths_anchored_iff_points :
    isName "points" = true ∧
      (ofName Scenario.plainSettings "points").outputPath "r-{data}" = ⟨"outputs/points/r-data"⟩ ∧
      (ofName Scenario.plainSettings "points").expectedPath "r-{data}" = ⟨"expected/r-data"⟩ := by
  have hname : isName "points" = true := by decide +kernel
  have hstray : ¬(ofName Scenario.plainSettings "points").Stray "r-{data}" := fun h =>
    absurd h.brace (by decide)
  obtain ⟨hout, hexpected, -⟩ := paths_anchored_iff Scenario.plainSettings hname "r-{data}"
  refine ⟨hname, (hout.mpr hstray).trans ?_, (hexpected.mpr fun h => absurd h hstray).trans ?_⟩
  · decide +kernel
  · decide +kernel

/-- A template may start with a brace that belongs to no placeholder; its path then leaves the output
directory and the directory of expected files. -/
theorem stray_not_anchored : isName "points" = true ∧
    (ofName Scenario.plainSettings "points").leads "{run}.txt" = false ∧
    (Path.mk ((ofName Scenario.plainSettings "points").expand "{run}.txt")).isAbsolute = false ∧
    (ofName Scenario.plainSettings "points").outputPath "{run}.txt" ≠
      (ofName Scenario.plainSettings "points").directory.join
        ⟨(ofName Scenario.plainSettings "points").expand "{run}.txt"⟩ ∧
    (ofName Scenario.plainSettings "points").expectedPath "{run}.txt" ≠
      Path.join ⟨"expected"⟩ ⟨(ofName Scenario.plainSettings "points").expand "{run}.txt"⟩ := by
  decide +kernel

end Workspace

end Assay
