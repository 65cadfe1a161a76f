import Assay.Proofs.Path

namespace Assay.Path

section Steps

def steps (s : List Char) : List Component :=
  (segments s).filterMap componentOf?

/-- The step that a text has in front of those of its parts. -/
def anchorStep (s : List Char) : List Component :=
  if s.head? = some '/' then [.root]
  else if (segments s).head? = some ['.'] then [.current]
  else []

theorem components_eq (p : Path) : p.components = anchorStep p.text.toList ++ steps p.text.toList := by
  simp only [components, isAbsolute, startsHere, decide_eq_true_eq, anchorStep, steps]

@[simp] theorem steps_nil : steps [] = [] := rfl

theorem steps_append (s u : List Char) : steps (s ++ '/' :: u) = steps s ++ steps u := by
  rw [steps, segments_append, List.filterMap_append, steps, steps]

/-- What follows a slash does not change how a path starts. -/
theorem anchorStep_append {s : List Char} (hs : s ≠ []) (u : List Char) :
    anchorStep (s ++ '/' :: u) = anchorStep s := by
  have hhead : (s ++ '/' :: u).head? = s.head? := List.head?_append_of_ne_nil s hs
  have hfirst : (segments (s ++ '/' :: u)).head? = (segments s).head? := by
    rw [segments_append, List.head?_append_of_ne_nil (segments s) (List.splitOn_ne_nil '/' s)]
  rw [anchorStep, anchorStep, hhead, hfirst]

theorem anchorStep_slash (s u v : List Char) :
    anchorStep (s ++ '/' :: u) = anchorStep (s ++ '/' :: v) := by
  by_cases hs : s = []
  · rw [hs]
    rfl
  · rw [anchorStep_append hs, anchorStep_append hs]

end Steps

section Join

variable {p q : Path}

/-- A relative path that is joined to a path adds its steps. -/
theorem components_join (hp : p.text.toList ≠ []) (hq : q.isAbsolute = false) :
    (p.join q).components = p.components ++ steps q.text.toList := by
  rw [components_eq, components_eq, join, hq, if_neg Bool.false_ne_true, String.toList_ofList]
  by_cases hend : p.text.toList.getLast? = some '/'
  · obtain ⟨front, hfront⟩ := List.getLast?_eq_some_iff.mp hend
    rw [if_pos (by simp [hend]), hfront, List.append_nil, List.append_assoc, List.singleton_append,
      anchorStep_slash front _ [], steps_append, steps_append, steps_nil, List.append_nil,
      List.append_assoc]
  · rw [if_neg (by simp [hend, hp]), List.append_assoc, List.singleton_append, anchorStep_append hp,
      steps_append, List.append_assoc]

/-- Joined to the empty path, a relative path stays. -/
theorem join_of_empty (hp : p.text.toList = []) (hq : q.isAbsolute = false) : p.join q = q := by
  rw [join, hq, if_neg Bool.false_ne_true, hp]
  simp

/-- A path with a text has one also when it is joined to another. -/
theorem join_ne_nil (p : Path) (hq : q.text.toList ≠ []) : (p.join q).text.toList ≠ [] := by
  rw [join]
  split_ifs
  · exact hq
  · simp [hq]

/-- A relative path that is joined to a path with a text becomes longer. -/
theorem join_ne_self (hp : p.text.toList ≠ []) (hq : q.isAbsolute = false) : p.join q ≠ q := by
  intro hjoin
  have hlength := congrArg (fun r : Path => r.text.toList.length) hjoin
  rw [join, hq, if_neg Bool.false_ne_true] at hlength
  simp only [String.toList_ofList, List.length_append] at hlength
  exact hp (List.eq_nil_of_length_eq_zero (by omega))

theorem segments_name {name : List Char} (h : IsName name) : segments name = [name] :=
  List.splitOn_eq_singleton h.whole

theorem steps_name {name : List Char} (h : IsName name) :
    steps name = [.name (String.ofList name)] := by
  rw [steps, segments_name h, List.filterMap_cons, componentOf?,
    if_neg (by rw [h.leads]; exact Bool.false_ne_true), if_neg h.enters]
  rfl

theorem anchorStep_name {name : List Char} (h : IsName name) : anchorStep name = [] := by
  have hdot : (segments name).head? ≠ some ['.'] := by
    rw [segments_name h, List.head?_cons, ne_eq, Option.some.injEq]
    rintro rfl
    cases h.leads
  rw [anchorStep, if_neg h.head_ne, if_neg hdot]

/-- A name that is joined to a path becomes its last step. -/
theorem components_join_name {name : String} (h : IsName name.toList) (p : Path) :
    (p.join ⟨name⟩).components = p.components ++ [.name name] := by
  have hrelative : (Path.mk name).isAbsolute = false := by
    rw [isAbsolute, decide_eq_false_iff_not]
    exact h.head_ne
  have hsteps : steps name.toList = [.name name] := by rw [steps_name h, String.ofList_toList]
  by_cases hp : p.text.toList = []
  · rw [join_of_empty hp hrelative, components_eq, components_eq, hp, anchorStep_name h, hsteps]
    rfl
  · rw [components_join hp hrelative, hsteps]

/-- A path that stays below another adds names only. -/
theorem exists_names {q : Path} (h : .parent ∉ q.components) :
    ∃ names : List String, steps q.text.toList = names.map Component.name := by
  rw [components_eq, List.mem_append, not_or] at h
  obtain ⟨-, h⟩ := h
  rw [steps] at h ⊢
  generalize segments q.text.toList = parts at h ⊢
  induction parts with
  | nil => exact ⟨[], rfl⟩
  | cons part rest ih =>
    cases hc : componentOf? part with
    | none =>
      rw [List.filterMap_cons_none hc] at h ⊢
      exact ih h
    | some step =>
      rw [List.filterMap_cons_some hc, List.mem_cons, not_or] at h
      obtain ⟨names, hnames⟩ := ih h.2
      have hname : ∃ name, step = .name name := by
        rw [componentOf?] at hc
        split_ifs at hc
        · exact absurd (Option.some.inj hc) h.1
        · exact ⟨_, (Option.some.inj hc).symm⟩
      obtain ⟨name, rfl⟩ := hname
      exact ⟨name :: names, by rw [List.filterMap_cons_some hc, hnames, List.map_cons]⟩

end Join

section Ancestors

variable {p q : Path} {parts : List (List Char)}

theorem steps_joined (h : ∀ part ∈ parts, '/' ∉ part) :
    steps (joined parts) = parts.filterMap componentOf? := by
  by_cases hne : parts = []
  · rw [hne]
    rfl
  · rw [steps, segments_joined h hne]

/-- The steps of the first parts of a text are the first of its steps. -/
theorem prefix_steps {s : List Char} (h : parts <+: segments s) : steps (joined parts) <+: steps s := by
  rw [steps_joined fun part hm => slash_notMem (h.subset hm), steps]
  exact h.filterMap _

/-- The parts of a parent's text behind its start. -/
def parentParts (s : List Char) : List (List Char) :=
  dropIdle (dropIdle (segments s)).dropLast

theorem prefix_parentParts (s : List Char) : parentParts s <+: segments s :=
  (prefix_dropIdle _).trans ((List.dropLast_prefix _).trans (prefix_dropIdle _))

theorem parent_text {rest : List Char} (ht : p.text.toList = p.anchor ++ rest)
    (h : p.parent? = some q) :
    q.text.toList = [] ∨ q.text.toList = p.anchor ++ joined (parentParts rest) := by
  rw [parent?, ht, List.drop_left] at h
  split_ifs at h
  · cases h
    exact .inl rfl
  · cases h
    exact .inr String.toList_ofList

theorem joined_append {parts others : List (List Char)} (hp : parts ≠ []) (ho : others ≠ []) :
    joined (parts ++ others) = joined parts ++ '/' :: joined others := by
  induction parts with
  | nil => exact absurd rfl hp
  | cons part rest ih =>
    cases rest with
    | nil =>
      have hone : joined [part] = part := List.intercalate_singleton
      rw [List.singleton_append, joined_cons ho, hone]
    | cons next rest =>
      rw [List.cons_append, joined_cons (by simp), ih (by simp), @joined_cons part (next :: rest) (by simp),
        List.append_assoc, List.cons_append]

theorem prefix_joined {others : List (List Char)} (h : parts <+: others) :
    joined parts <+: joined others := by
  obtain ⟨more, rfl⟩ := h
  by_cases hp : parts = []
  · rw [hp]
    exact List.nil_prefix
  · by_cases hm : more = []
    · rw [hm, List.append_nil]
    · rw [joined_append hp hm]
      exact List.prefix_append _ _

/-- The first parts of a relative text start as the text does. -/
theorem anchorStep_joined {s : List Char} (hs : s.head? ≠ some '/') (h : parts <+: segments s)
    (hne : parts ≠ []) : anchorStep (joined parts) = anchorStep s := by
  have hprefix : joined parts <+: s := by
    have hjoined := prefix_joined h
    rwa [joined_segments] at hjoined
  have hrelative : (joined parts).head? ≠ some '/' := by
    obtain ⟨more, hmore⟩ := hprefix
    cases hj : joined parts with
    | nil => exact Option.some_ne_none _ ∘ Eq.symm
    | cons c rest =>
      rw [hj] at hmore
      rw [← hmore] at hs
      exact hs
  have hfirst : (segments (joined parts)).head? = (segments s).head? := by
    rw [segments_joined (fun part hm => slash_notMem (h.subset hm)) hne]
    obtain ⟨more, hmore⟩ := h
    rw [← hmore, List.head?_append_of_ne_nil parts hne]
  rw [anchorStep, anchorStep, if_neg hs, if_neg hrelative, hfirst]

theorem joined_dot (parts : List (List Char)) : joined (['.'] :: parts) = '.' :: joined ([] :: parts) := by
  cases parts <;> rfl

/-- The parent of a relative path has the first of its parts. -/
theorem parent_relative (hs : p.text.toList.head? ≠ some '/') (h : p.parent? = some q) :
    q.text.toList = [] ∨ ∃ parts, parts <+: segments p.text.toList ∧ q.text.toList = joined parts := by
  have hrelative : ¬p.isAbsolute = true := by rwa [isAbsolute, decide_eq_true_eq]
  by_cases hhere : p.startsHere = true
  · have hanchor : p.anchor = ['.'] := by rw [anchor, if_neg hrelative, if_pos hhere]
    rw [startsHere, decide_eq_true_eq, List.head?_eq_some_iff] at hhere
    obtain ⟨others, hsplit⟩ := hhere
    have htext : p.text.toList = '.' :: joined ([] :: others) := by
      rw [← joined_dot, ← hsplit, joined_segments]
    have hothers : ∀ part ∈ [] :: others, '/' ∉ part := by
      intro part hm
      rcases List.mem_cons.mp hm with rfl | hm
      · exact List.not_mem_nil
      · exact slash_notMem (s := p.text.toList) (by rw [hsplit]; exact List.mem_cons_of_mem _ hm)
    rcases @parent_text p q (joined ([] :: others)) (by rw [hanchor, htext]; rfl) h with hq | hq
    · exact .inl hq
    · have hparts := prefix_parentParts (joined ([] :: others))
      rw [segments_joined hothers (by simp), List.prefix_cons_iff] at hparts
      rw [hanchor, List.singleton_append] at hq
      rw [hsplit]
      rcases hparts with hnone | ⟨tail, htail, hprefix⟩
      · rw [hnone] at hq
        exact .inr ⟨[['.']], (List.prefix_append [['.']] others), hq⟩
      · rw [htail, ← joined_dot] at hq
        exact .inr ⟨['.'] :: tail, (List.prefix_cons_inj _).mpr hprefix, hq⟩
  · have hanchor : p.anchor = [] := by rw [anchor, if_neg hrelative, if_neg hhere]
    rcases parent_text (by rw [hanchor]; rfl) h with hq | hq
    · exact .inl hq
    · rw [hanchor] at hq
      exact .inr ⟨_, prefix_parentParts _, hq⟩

theorem components_parent (h : p.parent? = some q) : q.components <+: p.components := by
  rw [components_eq, components_eq]
  by_cases habsolute : p.text.toList.head? = some '/'
  · obtain ⟨rest, ht⟩ := List.head?_eq_some_iff.mp habsolute
    have hanchor : p.anchor = ['/'] := by
      rw [anchor, isAbsolute, decide_eq_true habsolute, if_pos rfl]
    rcases parent_text (by rw [ht, hanchor]; rfl) h with hq | hq
    · rw [hq]
      exact List.nil_prefix
    · rw [hq, ht, hanchor, List.singleton_append]
      have hsteps : ∀ s, steps ('/' :: s) = steps s := fun s => steps_append [] s
      rw [hsteps, hsteps]
      exact (List.prefix_append_right_inj _).mpr (prefix_steps (prefix_parentParts rest))
  · rcases parent_relative habsolute h with hq | ⟨parts, hprefix, hq⟩
    · rw [hq]
      exact List.nil_prefix
    · rw [hq]
      by_cases hne : parts = []
      · rw [hne]
        exact List.nil_prefix
      · rw [anchorStep_joined habsolute hprefix hne]
        exact (List.prefix_append_right_inj _).mpr (prefix_steps hprefix)

theorem components_ancestors (h : q ∈ p.ancestors) : q.components <+: p.components := by
  have hwithin : ∀ n p, q ∈ ancestorsWithin n p → q.components <+: p.components := by
    intro n
    induction n with
    | zero => intro p hm; cases hm
    | succ n ih =>
      intro p hm
      rw [ancestorsWithin] at hm
      cases hp : p.parent? with
      | none =>
        rw [hp, List.mem_singleton] at hm
        rw [hm]
      | some above =>
        rw [hp, List.mem_cons] at hm
        rcases hm with rfl | hm
        · exact List.prefix_rfl
        · exact (ih above hm).trans (components_parent hp)
  exact hwithin _ p h

end Ancestors

end Assay.Path
