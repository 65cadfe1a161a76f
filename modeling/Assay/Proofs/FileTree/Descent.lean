import Assay.Proofs.FileTree.Directories
import Assay.Proofs.Path.Components

namespace Assay

namespace Path

def stepOf (part : List Char) : Component :=
  if part = ['.', '.'] then .parent else .name (String.ofList part)

theorem stepOf_injective : Function.Injective stepOf := by
  intro part other h
  unfold stepOf at h
  split_ifs at h with hpart hother hother
  · rw [hpart, hother]
  · exact String.ofList_injective (Component.name.inj h)

/-- The steps of a text are those of its parts that lead somewhere. -/
theorem steps_eq_map (s : List Char) : steps s = (leading (segments s)).map stepOf := by
  rw [steps]
  induction segments s with
  | nil => rfl
  | cons part rest ih =>
    cases hi : isIdle part with
    | true =>
      have hnone : componentOf? part = none := by rw [componentOf?, if_pos hi]
      have hdropped : leading (part :: rest) = leading rest := List.filter_cons_of_neg (by simp [hi])
      rw [List.filterMap_cons_none hnone, hdropped, ih]
    | false =>
      have hsome : componentOf? part = some (stepOf part) := by
        rw [componentOf?, hi, if_neg Bool.false_ne_true, stepOf]
        split_ifs <;> rfl
      have hkept : leading (part :: rest) = part :: leading rest := List.filter_cons_of_pos (by simp [hi])
      rw [List.filterMap_cons_some hsome, hkept, List.map_cons, ih]

/-- Whether a step is one of a part, and not the start of a path. -/
def isInner : Component → Bool
  | .root | .current => false
  | .parent | .name _ => true

theorem filter_components (p : Path) : p.components.filter isInner = steps p.text.toList := by
  have hanchor : (anchorStep p.text.toList).filter isInner = [] := by
    rw [anchorStep]
    split_ifs <;> rfl
  have hsteps : (steps p.text.toList).filter isInner = steps p.text.toList := by
    rw [List.filter_eq_self, steps_eq_map]
    intro step hm
    obtain ⟨part, -, rfl⟩ := List.mem_map.mp hm
    unfold stepOf
    split_ifs <;> rfl
  rw [components_eq, List.filter_append, hanchor, hsteps, List.nil_append]

theorem head_components {p : Path} : p.components.head? = some .root ↔ p.isAbsolute = true := by
  rw [components_eq, isAbsolute, decide_eq_true_eq, anchorStep, steps_eq_map]
  split_ifs with habsolute hhere
  · exact iff_of_true rfl habsolute
  · exact iff_of_false (by simp) habsolute
  · refine iff_of_false ?_ habsolute
    cases leading (segments p.text.toList) with
    | nil => simp
    | cons part rest =>
      rw [List.nil_append, List.map_cons, List.head?_cons, stepOf]
      split_ifs <;> simp

/-- A path whose steps are those of a directory with names behind them. -/
theorem leading_of_components {p q : Path} {names : List String}
    (h : q.components = p.components ++ names.map Component.name) :
    ∃ more : List (List Char), (∀ part ∈ more, IsName part) ∧ more.length = names.length ∧
      leading (segments q.text.toList) = leading (segments p.text.toList) ++ more := by
  have hnames : (names.map Component.name).filter isInner = names.map Component.name := by
    rw [List.filter_eq_self]
    intro step hm
    obtain ⟨name, -, rfl⟩ := List.mem_map.mp hm
    rfl
  have hsteps : (leading (segments q.text.toList)).map stepOf =
      (leading (segments p.text.toList)).map stepOf ++ names.map Component.name := by
    rw [← steps_eq_map, ← steps_eq_map, ← filter_components, ← filter_components, h, List.filter_append,
      hnames]
  obtain ⟨front, more, hsplit, hfront, hmore⟩ := List.map_eq_append_iff.mp hsteps
  obtain rfl : front = leading (segments p.text.toList) :=
    List.map_injective_iff.mpr stepOf_injective hfront
  have hlength : more.length = names.length := by simpa using congrArg List.length hmore
  refine ⟨more, fun part hm => ?_, hlength, hsplit⟩
  have hin : part ∈ leading (segments q.text.toList) := hsplit ▸ List.mem_append_right _ hm
  obtain ⟨hpart, hidle⟩ := List.mem_filter.mp hin
  refine ⟨by simpa using hidle, ?_, slash_notMem hpart⟩
  -- a step back is no name
  rintro rfl
  have hback : stepOf ['.', '.'] ∈ names.map Component.name := hmore ▸ List.mem_map_of_mem hm
  obtain ⟨name, -, hname⟩ := List.mem_map.mp hback
  cases hname

end Path

namespace FileTree

open Assay.Path (leading segments IsName)

variable {t made : FileTree} {here there own location : Location} {p q : Path}

/-- Names lead below where they start. -/
theorem prefix_of_walk {names : List (List Char)} (hn : ∀ part ∈ names, IsName part)
    (h : t.walk here names = .ok there) : here <+: there := by
  induction names generalizing here with
  | nil =>
    cases h
    exact List.prefix_rfl
  | cons part rest ih =>
    obtain ⟨hname, hrest⟩ := List.forall_mem_cons.mp hn
    rw [walk_cons] at h
    cases hs : t.step here part with
    | error c => simp [hs] at h
    | ok next =>
      simp only [hs] at h
      rw [step_name_ok hname hs] at h
      exact (List.prefix_append here _).trans (ih hrest h)

theorem leading_parts_eq (p : Path) : leading (parts p) = leading (segments p.text.toList) := by
  rw [parts]
  split_ifs with habsolute
  · rw [Path.isAbsolute, decide_eq_true_eq] at habsolute
    obtain ⟨rest, htext⟩ := List.head?_eq_some_iff.mp habsolute
    rw [htext, Path.segments_slash]
    rfl
  · rfl

/-- A path leads along its parts that lead somewhere. -/
theorem walk_of_find {e : Entry} (h : t.find p = .ok (location, e)) :
    t.walk (t.start p) (leading (segments p.text.toList)) = .ok location := by
  rw [← leading_parts_eq]
  exact walk_leading_ok (find_ok.mp h).2.1

/-- Two paths with the same first step start at the same location. -/
theorem start_of_components {steps : List Component} (t : FileTree)
    (h : q.components = p.components ++ steps) (hne : p.components ≠ []) : t.start q = t.start p := by
  have habsolute : q.isAbsolute = p.isAbsolute := by
    rw [Bool.eq_iff_iff, ← Path.head_components, ← Path.head_components, h,
      List.head?_append_of_ne_nil _ hne]
  rw [start, start, habsolute]

/-- A path with the steps of a directory and names behind them leads below that directory. -/
theorem prefix_of_find {e e' : Entry} {names : List String}
    (h : q.components = p.components ++ names.map Component.name) (hne : p.components ≠ [])
    (hp : t.find p = .ok (own, e)) (hq : t.find q = .ok (location, e')) : own <+: location := by
  obtain ⟨more, hnames, -, hleading⟩ := Path.leading_of_components h
  have hwalk := walk_of_find hq
  rw [start_of_components t h hne, hleading, walk_append, walk_of_find hp] at hwalk
  exact prefix_of_walk hnames hwalk

theorem hasDirectory_iff : t.hasDirectory p = true ↔ ∃ location, t.find p = .ok (location, .directory) := by
  rw [hasDirectory]
  cases t.find p with
  | error c => exact iff_of_false Bool.false_ne_true nofun
  | ok found =>
    obtain ⟨location, e⟩ := found
    cases e with
    | directory => exact iff_of_true rfl ⟨location, rfl⟩
    | file content mode => exact iff_of_false Bool.false_ne_true nofun

/-- When the first of some directories could be made, its path leads to a directory. -/
theorem find_of_makeChain {above : List Path} (hne : p.text.isEmpty = false)
    (h : t.makeChain (p :: above) = (made, .ok ())) : made.hasDirectory p = true := by
  rw [makeChain, hne, if_neg Bool.false_ne_true] at h
  have hmakes : ∀ {old new : FileTree}, old.makeDirectory p = .ok new → new.hasDirectory p = true := by
    intro old new hm
    obtain ⟨location, -, -, hfind⟩ := makeDirectory_ok hm
    exact hasDirectory_iff.mpr ⟨location, hfind⟩
  -- a directory that could not be made is the end of the chain only if it is there
  have hstays : ∀ {old : FileTree} {c : SystemCause},
      (if old.hasDirectory p then (old, .ok ()) else (old, .error c) : FileTree × Except SystemCause Unit) =
        (made, .ok ()) → made.hasDirectory p = true := by
    intro old c hm
    split_ifs at hm with hthere
    · cases hm
      exact hthere
    · cases hm
  split at h
  · rename_i found hm
    cases h
    exact hmakes hm
  · split at h
    · cases h
    · split at h
      · rename_i hm
        cases h
        exact hmakes hm
      · exact hstays h
  · exact hstays h

theorem find_of_makeDirectories (hne : p.text.isEmpty = false)
    (h : t.makeDirectories p = (made, .ok ())) : ∃ own, made.find p = .ok (own, .directory) := by
  have hancestors : ∃ above, p.ancestors = p :: above := by
    rw [Path.ancestors, Path.ancestorsWithin]
    cases p.parent? with
    | none => exact ⟨[], rfl⟩
    | some q => exact ⟨_, rfl⟩
  obtain ⟨above, hchain⟩ := hancestors
  rw [makeDirectories, hchain] at h
  exact hasDirectory_iff.mp (find_of_makeChain hne h)

end FileTree

end Assay
