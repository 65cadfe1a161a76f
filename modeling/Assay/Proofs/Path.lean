import Mathlib.Data.List.Basic
import Mathlib.Data.List.Infix
import Mathlib.Data.List.TakeWhile
import Assay.Path

namespace Assay.Path

section Parts

@[simp] theorem joined_segments (s : List Char) : joined (segments s) = s :=
  List.intercalate_splitOn '/'

theorem segments_joined {parts : List (List Char)} (h : ∀ part ∈ parts, '/' ∉ part)
    (hne : parts ≠ []) : segments (joined parts) = parts :=
  List.splitOn_intercalate '/' h hne

theorem segments_append (s u : List Char) : segments (s ++ '/' :: u) = segments s ++ segments u :=
  List.splitOn_append_cons_self s u

theorem segments_slash (s : List Char) : segments ('/' :: s) = [] :: segments s := by
  rw [segments, List.splitOn_cons_eq_if_modifyHead, if_pos (beq_self_eq_true '/'), segments]

theorem slash_notMem {s part : List Char} (h : part ∈ segments s) : '/' ∉ part := by
  induction s generalizing part with
  | nil =>
    rw [segments, List.splitOn_nil, List.mem_singleton] at h
    rw [h]
    exact List.not_mem_nil
  | cons c rest ih =>
    rw [segments, List.splitOn_cons_eq_if_modifyHead] at h
    split_ifs at h with hc
    · rcases List.mem_cons.mp h with rfl | h
      · exact List.not_mem_nil
      · exact ih h
    · obtain ⟨first, others, hs⟩ := List.exists_cons_of_ne_nil (List.splitOn_ne_nil '/' rest)
      rw [hs, List.modifyHead_cons] at h
      rcases List.mem_cons.mp h with rfl | h
      · rintro (_ | ⟨_, hm⟩)
        · exact hc rfl
        · exact ih (by rw [segments, hs]; exact List.mem_cons_self) hm
      · exact ih (by rw [segments, hs]; exact List.mem_cons_of_mem first h)

theorem joined_cons {part : List Char} {parts : List (List Char)} (h : parts ≠ []) :
    joined (part :: parts) = part ++ '/' :: joined parts := by
  rw [joined, List.intercalate_cons_of_ne_nil h, List.append_assoc]
  rfl

theorem joined_concat {parts : List (List Char)} (h : parts ≠ []) (last : List Char) :
    joined (parts ++ [last]) = joined parts ++ '/' :: last := by
  induction parts with
  | nil => exact absurd rfl h
  | cons part rest ih =>
    cases rest with
    | nil =>
      rw [List.singleton_append, joined_cons (by simp)]
      simp [joined]
    | cons next rest =>
      rw [List.cons_append, joined_cons (by simp), ih (by simp), @joined_cons part _ (by simp),
        List.append_assoc, List.cons_append]

/-- A text that is joined to parts adds its own parts. -/
theorem segments_joined_concat {parts : List (List Char)} (h : ∀ part ∈ parts, '/' ∉ part)
    (s : List Char) : segments (joined (parts ++ [s])) = parts ++ segments s := by
  by_cases hne : parts = []
  · have hone : joined [s] = s := List.intercalate_singleton
    rw [hne, List.nil_append, List.nil_append, hone]
  · rw [joined_concat hne, segments_append, segments_joined h hne]

theorem joined_sublist {parts others : List (List Char)} (h : parts.Sublist others) :
    (joined parts).Sublist (joined others) := by
  induction h with
  | slnil => exact List.Sublist.refl _
  | @cons parts others part h ih =>
    cases others with
    | nil =>
      rw [List.sublist_nil.mp h]
      exact List.nil_sublist _
    | cons next rest =>
      rw [joined_cons (by simp)]
      exact ih.trans ((List.sublist_cons_self _ _).trans (List.sublist_append_right _ _))
  | @cons_cons parts others part h ih =>
    cases parts with
    | nil =>
      cases others with
      | nil => exact List.Sublist.refl _
      | cons next rest =>
        rw [@joined_cons part (next :: rest) (by simp)]
        simp [joined]
    | cons next rest =>
      have hne : others ≠ [] := by
        rintro rfl
        cases h
      rw [joined_cons (by simp), joined_cons hne]
      exact (List.Sublist.refl part).append (ih.cons_cons '/')

end Parts

section Idle

theorem dropIdle_concat {last : List Char} (h : isIdle last = false) (parts : List (List Char)) :
    dropIdle (parts ++ [last]) = parts ++ [last] := by
  rw [dropIdle, List.reverse_append, List.reverse_singleton, List.singleton_append,
    List.dropWhile_cons_of_neg (by rw [h]; exact Bool.false_ne_true), List.reverse_cons,
    List.reverse_reverse]

/-- The parts behind the last that leads somewhere lead nowhere. -/
theorem dropIdle_split (parts : List (List Char)) :
    ∃ idle, parts = dropIdle parts ++ idle ∧ ∀ part ∈ idle, isIdle part = true := by
  refine ⟨(parts.reverse.takeWhile isIdle).reverse, ?_, ?_⟩
  · rw [dropIdle, ← List.reverse_append, List.takeWhile_append_dropWhile, List.reverse_reverse]
  · intro part hm
    exact List.mem_takeWhile_imp (List.mem_reverse.mp hm)

theorem prefix_dropIdle (parts : List (List Char)) : dropIdle parts <+: parts := by
  obtain ⟨idle, hsplit, _⟩ := dropIdle_split parts
  exact ⟨idle, hsplit.symm⟩

theorem isIdle_getLast_dropIdle {parts : List (List Char)} {last : List Char}
    (h : (dropIdle parts).getLast? = some last) : isIdle last = false := by
  rw [dropIdle, List.getLast?_reverse] at h
  obtain ⟨rest, hrest⟩ := List.head?_eq_some_iff.mp h
  have hhead := List.head?_dropWhile_not isIdle parts.reverse
  rw [h] at hhead
  simpa using hhead

def leading (parts : List (List Char)) : List (List Char) :=
  parts.filter fun part => !isIdle part

theorem leading_append (parts others : List (List Char)) :
    leading (parts ++ others) = leading parts ++ leading others :=
  List.filter_append _ _

theorem leading_dropIdle (parts : List (List Char)) : leading (dropIdle parts) = leading parts := by
  obtain ⟨idle, hsplit, hidle⟩ := dropIdle_split parts
  have hnone : leading idle = [] := by
    rw [leading, List.filter_eq_nil_iff]
    intro part hm
    rw [hidle part hm]
    exact Bool.false_ne_true
  conv_rhs => rw [hsplit, leading_append, hnone, List.append_nil]

end Idle

section Names

structure IsName (part : List Char) : Prop where
  leads : isIdle part = false
  enters : part ≠ ['.', '.']
  whole : '/' ∉ part

theorem IsName.ne_nil {part : List Char} (h : IsName part) : part ≠ [] := by
  rintro rfl
  cases h.leads

theorem IsName.head_ne {part : List Char} (h : IsName part) : part.head? ≠ some '/' :=
  fun hhead => h.whole (List.mem_of_head? hhead)

/-- A part that ends in anything but a dot is a name. -/
theorem isName_of_getLast {part : List Char} {c : Char} (h : part.getLast? = some c) (hdot : c ≠ '.')
    (hslash : '/' ∉ part) : IsName part := by
  refine ⟨?_, ?_, hslash⟩
  · by_contra hidle
    rw [Bool.not_eq_false, isIdle, Bool.or_eq_true, beq_iff_eq, beq_iff_eq] at hidle
    rcases hidle with rfl | rfl
    · cases h
    · cases h
      exact hdot rfl
  · rintro rfl
    cases h
    exact hdot rfl

/-- A path that ends in a name, with the parts in front of it. -/
structure EndsIn (p : Path) (front : List (List Char)) (last : List Char) : Prop where
  parts : segments p.text.toList = front ++ [last]
  name : IsName last

variable {p : Path} {front : List (List Char)} {last : List Char}

theorem EndsIn.text (h : EndsIn p front last) : p.text.toList = joined (front ++ [last]) := by
  rw [← h.parts, joined_segments]

theorem endsIn_joined {name : List Char} (hfront : ∀ part ∈ front, '/' ∉ part) (hname : IsName name) :
    EndsIn ⟨String.ofList (joined (front ++ [name]))⟩ front name := by
  refine ⟨?_, hname⟩
  rw [String.toList_ofList]
  apply segments_joined _ (by simp)
  intro part hm
  rcases List.mem_append.mp hm with hm | hm
  · exact hfront part hm
  · rw [List.mem_singleton.mp hm]
    exact hname.whole

theorem EndsIn.slash_notMem (h : EndsIn p front last) : ∀ part ∈ front, '/' ∉ part := by
  intro part hm
  apply Path.slash_notMem (s := p.text.toList)
  rw [h.parts]
  exact List.mem_append_left _ hm

theorem EndsIn.fileName (h : EndsIn p front last) : p.fileName? = some (String.ofList last) := by
  have hlast : componentOf? last = some (.name (String.ofList last)) := by
    rw [componentOf?, if_neg (by rw [h.name.leads]; exact Bool.false_ne_true),
      if_neg h.name.enters]
  rw [fileName?, components, h.parts, List.filterMap_append, List.filterMap_cons_some hlast,
    List.filterMap_nil, ← List.append_assoc]
  simp

theorem EndsIn.text_ne_nil (h : EndsIn p front last) : p.text.toList ≠ [] := by
  intro hnil
  have hparts := h.parts
  rw [hnil, segments, List.splitOn_nil] at hparts
  have hlast := congrArg List.getLast? hparts
  rw [List.getLast?_concat, List.getLast?_singleton, Option.some.injEq] at hlast
  exact h.name.ne_nil hlast.symm

/-- A change of the extension replaces the name. -/
theorem EndsIn.withExtension (h : EndsIn p front last) (extension : String) :
    p.withExtension extension =
      ⟨String.ofList (joined (front ++ [stem last ++ '.' :: extension.toList]))⟩ := by
  rw [Path.withExtension, h.fileName]
  simp only [h.parts, dropIdle_concat h.name.leads, List.dropLast_concat, String.toList_ofList]

/-- A path is absolute when the first of its parts is empty. -/
theorem EndsIn.isAbsolute_iff (h : EndsIn p front last) :
    p.isAbsolute = true ↔ front.head? = some [] := by
  have hparts := h.parts
  rw [isAbsolute, decide_eq_true_eq]
  cases hs : p.text.toList with
  | nil => exact absurd hs h.text_ne_nil
  | cons c rest =>
    rw [hs, segments, List.splitOn_cons_eq_if_modifyHead] at hparts
    rw [List.head?_cons, Option.some.injEq]
    split_ifs at hparts with hc
    · have hc' : c = '/' := by simpa using hc
      cases front with
      | nil =>
        have hlast := (List.cons.inj hparts).1
        exact absurd hlast.symm h.name.ne_nil
      | cons part others =>
        have hpart := (List.cons.inj hparts).1
        rw [← hpart]
        exact iff_of_true hc' rfl
    · have hc' : c ≠ '/' := by simpa using hc
      obtain ⟨first, others, hsplit⟩ := List.exists_cons_of_ne_nil (List.splitOn_ne_nil '/' rest)
      rw [hsplit, List.modifyHead_cons] at hparts
      cases front with
      | nil => simp [hc']
      | cons part others =>
        have hpart := (List.cons.inj hparts).1
        rw [← hpart]
        simp [hc']

/-- A relative path joined to a path stands behind its parts. -/
theorem join_joined {parts : List (List Char)} {name : List Char}
    (hlast : ∀ part, parts.getLast? = some part → part ≠ [] ∧ '/' ∉ part)
    (hname : name.head? ≠ some '/') :
    (Path.mk (String.ofList (joined parts))).join ⟨String.ofList name⟩ =
      ⟨String.ofList (joined (parts ++ [name]))⟩ := by
  have hrelative : (Path.mk (String.ofList name)).isAbsolute = false := by
    rwa [isAbsolute, decide_eq_false_iff_not, String.toList_ofList]
  rw [join, hrelative, if_neg Bool.false_ne_true]
  simp only [String.toList_ofList]
  rcases List.eq_nil_or_concat' parts with rfl | ⟨front, part, rfl⟩
  · simp [joined]
  · obtain ⟨hne, hslash⟩ := hlast part List.getLast?_concat
    have hend : ∃ start, joined (front ++ [part]) = start ++ part := by
      cases front with
      | nil => exact ⟨[], by simp [joined]⟩
      | cons first rest => exact ⟨_, by rw [joined_concat (by simp), List.append_cons]⟩
    obtain ⟨start, hstart⟩ := hend
    have hfilled : start ++ part ≠ [] := by simp [hne]
    have hopen : (start ++ part).getLast? ≠ some '/' := by
      rw [List.getLast?_append_of_ne_nil start hne]
      exact fun hl => hslash (List.mem_of_getLast? hl)
    have hconcat := @joined_concat (front ++ [part]) (by simp) name
    have hslashes : ¬((start ++ part).isEmpty || (start ++ part).getLast? = some '/') = true := by
      rw [Bool.or_eq_true, List.isEmpty_iff, decide_eq_true_eq, not_or]
      exact ⟨hfilled, hopen⟩
    rw [hconcat, hstart, if_neg hslashes, List.append_assoc]
    rfl

theorem dropIdle_cons_idle {part : List Char} (h : isIdle part = true) (parts : List (List Char)) :
    dropIdle (part :: parts) = if dropIdle parts = [] then [] else part :: dropIdle parts := by
  rw [dropIdle, List.reverse_cons, List.dropWhile_append, dropIdle]
  split_ifs with hempty hnil hnil
  · simp [h]
  · simp only [List.isEmpty_iff] at hempty
    simp [hempty] at hnil
  · simp only [List.reverse_eq_nil_iff] at hnil
    simp [hnil] at hempty
  · rw [List.reverse_append]
    rfl

theorem EndsIn.parent (h : EndsIn p front last) {between : List (List Char)}
    (hb : segments (p.text.toList.drop p.anchor.length) = between ++ [last]) :
    p.parent? = some ⟨String.ofList (p.anchor ++ joined (dropIdle between))⟩ := by
  rw [parent?, hb, dropIdle_concat h.name.leads]
  simp

theorem getLast_dropIdle {parts : List (List Char)} (h : ∀ part ∈ parts, '/' ∉ part) :
    ∀ part, (dropIdle parts).getLast? = some part → part ≠ [] ∧ '/' ∉ part := by
  intro part hl
  refine ⟨?_, h part ((prefix_dropIdle parts).subset (List.mem_of_getLast? hl))⟩
  rintro rfl
  cases isIdle_getLast_dropIdle hl

/-- A path in the same directory as another: its name is joined to the parent of the other. -/
def beside (p : Path) (name : List Char) : Path :=
  (p.parent?.getD ⟨"."⟩).join ⟨String.ofList name⟩

theorem beside_absolute {rest : List (List Char)} (h : EndsIn p ([] :: rest) last) {name : List Char}
    (hname : name.head? ≠ some '/') :
    p.beside name = ⟨String.ofList (joined ([] :: dropIdle rest ++ [name]))⟩ := by
  have habsolute : p.isAbsolute = true := h.isAbsolute_iff.mpr rfl
  have hanchor : p.anchor = ['/'] := by rw [anchor, if_pos habsolute]
  have hslash : ∀ part ∈ rest, '/' ∉ part := fun part hm =>
    h.slash_notMem part (List.mem_cons_of_mem _ hm)
  have htext : p.text.toList = '/' :: joined (rest ++ [last]) := by
    rw [h.text, List.cons_append, joined_cons (by simp), List.nil_append]
  have hb : segments (p.text.toList.drop p.anchor.length) = rest ++ [last] := by
    have hparts := h.parts
    rw [htext, segments_slash] at hparts
    rw [hanchor, htext]
    exact (List.cons.inj hparts).2
  rw [beside, h.parent hb, hanchor, Option.getD_some]
  cases hd : dropIdle rest with
  | nil =>
    have hrelative : (Path.mk (String.ofList name)).isAbsolute = false := by
      rwa [isAbsolute, decide_eq_false_iff_not, String.toList_ofList]
    rw [join, hrelative, if_neg Bool.false_ne_true]
    simp [joined]
  | cons first others =>
    have hbase : '/' :: joined (first :: others) = joined ([] :: first :: others) := by
      rw [@joined_cons [] (first :: others) (by simp), List.nil_append]
    rw [List.singleton_append, hbase]
    refine join_joined ?_ hname
    intro part hl
    rw [List.getLast?_cons_cons, ← hd] at hl
    exact getLast_dropIdle hslash part hl

theorem beside_here {rest : List (List Char)} (h : EndsIn p (['.'] :: rest) last) {name : List Char}
    (hname : name.head? ≠ some '/') :
    p.beside name = ⟨String.ofList (joined (['.'] :: dropIdle rest ++ [name]))⟩ := by
  have hrelative : ¬p.isAbsolute = true := fun ha => by simpa using h.isAbsolute_iff.mp ha
  have hhere : p.startsHere = true := by
    rw [startsHere, decide_eq_true_eq, h.parts]
    rfl
  have hanchor : p.anchor = ['.'] := by rw [anchor, if_neg hrelative, if_pos hhere]
  have hslash : ∀ part ∈ rest, '/' ∉ part := fun part hm =>
    h.slash_notMem part (List.mem_cons_of_mem _ hm)
  have hb : segments (p.text.toList.drop p.anchor.length) = ([] :: rest) ++ [last] := by
    rw [hanchor, h.text, List.cons_append, joined_cons (by simp)]
    change segments ('/' :: joined (rest ++ [last])) = _
    rw [segments_slash, segments_joined _ (by simp)]
    · rfl
    · intro part hm
      rcases List.mem_append.mp hm with hm | hm
      · exact hslash part hm
      · rw [List.mem_singleton.mp hm]
        exact h.name.whole
  have hbase : ['.'] ++ joined (dropIdle ([] :: rest)) = joined (['.'] :: dropIdle rest) := by
    rw [dropIdle_cons_idle rfl]
    split_ifs with hd
    · simp [hd, joined]
    · rw [joined_cons hd, joined_cons hd]
      rfl
  rw [beside, h.parent hb, hanchor, Option.getD_some, hbase]
  refine join_joined ?_ hname
  intro part hl
  cases hd : dropIdle rest with
  | nil =>
    rw [hd, List.getLast?_singleton, Option.some.injEq] at hl
    rw [← hl]
    decide
  | cons next others =>
    rw [hd, List.getLast?_cons_cons, ← hd] at hl
    exact getLast_dropIdle hslash part hl

theorem EndsIn.beside_split (h : EndsIn p front last) {name : List Char} (hname : name.head? ≠ some '/') :
    ∃ lead rest, front = lead ++ rest ∧
      p.beside name = ⟨String.ofList (joined (lead ++ dropIdle rest ++ [name]))⟩ ∧
      (lead = [] → p.isAbsolute = false) := by
  by_cases habsolute : p.isAbsolute = true
  · obtain ⟨rest, rfl⟩ := List.head?_eq_some_iff.mp (h.isAbsolute_iff.mp habsolute)
    exact ⟨[[]], rest, rfl, beside_absolute h hname, by simp⟩
  · have hrelative : p.isAbsolute = false := by simpa using habsolute
    by_cases hhere : front.head? = some ['.']
    · obtain ⟨rest, rfl⟩ := List.head?_eq_some_iff.mp hhere
      exact ⟨[['.']], rest, rfl, beside_here h hname, fun _ => hrelative⟩
    · have hstart : p.startsHere = false := by
        rw [startsHere, decide_eq_false_iff_not, h.parts]
        cases front with
        | nil =>
          intro hlast
          have hidle := h.name.leads
          rw [List.nil_append, List.head?_cons, Option.some.injEq] at hlast
          rw [hlast] at hidle
          cases hidle
        | cons first rest => exact hhere
      have hanchor : p.anchor = [] := by
        rw [anchor, if_neg habsolute, hstart, if_neg Bool.false_ne_true]
      have hb : segments (p.text.toList.drop p.anchor.length) = front ++ [last] := by
        rw [hanchor, List.length_nil, List.drop_zero, h.parts]
      refine ⟨[], front, rfl, ?_, fun _ => hrelative⟩
      rw [Path.beside, h.parent hb, hanchor, Option.getD_some, List.nil_append, List.nil_append]
      exact join_joined (getLast_dropIdle h.slash_notMem) hname

/-- A path beside another has the same parts in front of its name, without some that lead nowhere. -/
theorem EndsIn.beside (h : EndsIn p front last) {name : List Char} (hname : name.head? ≠ some '/') :
    ∃ others, p.beside name = ⟨String.ofList (joined (others ++ [name]))⟩ ∧ others.Sublist front ∧
      leading others = leading front ∧ (others.head? = some [] ↔ front.head? = some []) := by
  obtain ⟨lead, rest, rfl, hbeside, hrelative⟩ := h.beside_split hname
  have hkept : lead ++ dropIdle rest <+: lead ++ rest :=
    (List.prefix_append_right_inj lead).mpr (prefix_dropIdle rest)
  refine ⟨_, hbeside, hkept.sublist, ?_, ?_⟩
  · rw [leading_append, leading_dropIdle, ← leading_append]
  · -- without a lead the path is relative, so its first part is not empty and stays the first
    cases lead with
    | cons first others => exact Iff.rfl
    | nil =>
      have hnone : ¬([] ++ rest).head? = some [] := by
        rw [← h.isAbsolute_iff, hrelative rfl]
        exact Bool.false_ne_true
      refine iff_of_false (fun hsome => hnone ?_) hnone
      obtain ⟨others, hothers⟩ := List.head?_eq_some_iff.mp hsome
      obtain ⟨tail, htail⟩ := hkept
      rw [← htail, hothers]
      rfl

end Names

end Assay.Path
