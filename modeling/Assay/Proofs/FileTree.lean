import Mathlib.Data.List.Flatten
import Assay.FileTree.Basic
import Assay.Proofs.Path

namespace Assay.FileTree

open Assay.Path (isIdle leading segments IsName EndsIn)

section Walking

variable {t : FileTree} {here there location : Location} {part : List Char}
  {parts : List (List Char)}

theorem walk_cons (t : FileTree) (here : Location) (part : List Char) (parts : List (List Char)) :
    t.walk here (part :: parts) =
      match t.step here part with
      | .error c => .error c
      | .ok there => t.walk there parts :=
  rfl

theorem walk_append (t : FileTree) (here : Location) (parts others : List (List Char)) :
    t.walk here (parts ++ others) =
      match t.walk here parts with
      | .error c => .error c
      | .ok there => t.walk there others := by
  induction parts generalizing here with
  | nil => rfl
  | cons part rest ih =>
    rw [List.cons_append, walk_cons, walk_cons]
    cases t.step here part with
    | error c => rfl
    | ok there => exact ih there

theorem directory_of_step (h : t.step here part = .ok there) :
    t.entryAt? here = some .directory := by
  rw [step] at h
  cases he : t.entryAt? here with
  | none => simp [he] at h
  | some e =>
    cases e with
    | directory => rfl
    | file content mode => simp [he] at h

theorem step_idle (h : isIdle part = true) (hd : t.entryAt? here = some .directory) :
    t.step here part = .ok here := by
  rw [step, hd]
  exact if_pos h

/-- Where there is no directory, all steps fail in the same way. -/
theorem step_of_ne (hd : t.entryAt? here ≠ some .directory) (part other : List Char) :
    t.step here part = t.step here other ∧ ∃ c, t.step here part = .error c := by
  rw [step, step]
  cases he : t.entryAt? here with
  | none => exact ⟨rfl, _, rfl⟩
  | some e =>
    cases e with
    | directory => exact absurd he hd
    | file content mode => exact ⟨rfl, _, rfl⟩

/-- In front of a name, the parts that lead nowhere do not matter. -/
theorem walk_leading (t : FileTree) (here : Location) (parts : List (List Char)) (last : List Char) :
    t.walk here (parts ++ [last]) = t.walk here (leading parts ++ [last]) := by
  induction parts generalizing here with
  | nil => rfl
  | cons part rest ih =>
    rw [List.cons_append, walk_cons]
    cases hi : isIdle part with
    | false =>
      have hkept : leading (part :: rest) = part :: leading rest := by
        rw [leading, List.filter_cons_of_pos (by simp [hi]), leading]
      rw [hkept, List.cons_append, walk_cons]
      cases t.step here part with
      | error c => rfl
      | ok there => exact ih there
    | true =>
      have hdropped : leading (part :: rest) = leading rest := by
        rw [leading, List.filter_cons_of_neg (by simp [hi]), leading]
      rw [hdropped]
      by_cases hd : t.entryAt? here = some .directory
      · rw [step_idle hi hd]
        exact ih here
      · -- no directory stands here, so the next name fails as the idle part does
        obtain ⟨first, others, hfirst⟩ : ∃ first others, leading rest ++ [last] = first :: others :=
          List.exists_cons_of_ne_nil (by simp)
        obtain ⟨hsame, c, hc⟩ := step_of_ne hd part first
        rw [hfirst, walk_cons, ← hsame, hc]

/-- The parts that lead nowhere do not change where a way leads. -/
theorem walk_leading_ok (h : t.walk here parts = .ok there) :
    t.walk here (leading parts) = .ok there := by
  induction parts generalizing here with
  | nil => exact h
  | cons part rest ih =>
    rw [walk_cons] at h
    cases hs : t.step here part with
    | error c => simp [hs] at h
    | ok next =>
      simp only [hs] at h
      cases hi : isIdle part with
      | false =>
        rw [leading, List.filter_cons_of_pos (by simp [hi]), walk_cons, hs]
        exact ih h
      | true =>
        rw [leading, List.filter_cons_of_neg (by simp [hi])]
        rw [step_idle hi (directory_of_step hs), Except.ok.injEq] at hs
        exact ih (hs ▸ h)

/-- A way to a directory starts at one. -/
theorem directory_of_walk (h : t.walk here parts = .ok there)
    (hd : t.entryAt? there = some .directory) : t.entryAt? here = some .directory := by
  cases parts with
  | nil =>
    cases h
    exact hd
  | cons part rest =>
    rw [walk_cons] at h
    cases hs : t.step here part with
    | error c => simp [hs] at h
    | ok _ => exact directory_of_step hs

/-- A way to a directory may have parts that lead nowhere. -/
theorem walk_of_leading (h : t.walk here (leading parts) = .ok there)
    (hd : t.entryAt? there = some .directory) : t.walk here parts = .ok there := by
  induction parts generalizing here with
  | nil => exact h
  | cons part rest ih =>
    cases hi : isIdle part with
    | false =>
      rw [leading, List.filter_cons_of_pos (by simp [hi]), walk_cons] at h
      rw [walk_cons]
      cases hs : t.step here part with
      | error c => simp [hs] at h
      | ok next =>
        simp only [hs] at h
        exact ih h
    | true =>
      rw [leading, List.filter_cons_of_neg (by simp [hi])] at h
      rw [walk_cons, step_idle hi (directory_of_walk h hd)]
      exact ih h

theorem find_ok {p : Path} {e : Entry} :
    t.find p = .ok (location, e) ↔
      pathFault? p = none ∧ t.walk (t.start p) (FileTree.parts p) = .ok location ∧
        t.entryAt? location = some e := by
  rw [find]
  cases pathFault? p with
  | some c => simp
  | none =>
    cases hw : t.walk (t.start p) (FileTree.parts p) with
    | error c => simp
    | ok there =>
      cases he : t.entryAt? there with
      | none =>
        simp only [he, reduceCtorEq, Except.ok.injEq, true_and, false_iff, not_and]
        rintro rfl
        simp [he]
      | some found =>
        simp only [he, Except.ok.injEq, Prod.mk.injEq, true_and]
        constructor
        · rintro ⟨rfl, rfl⟩
          exact ⟨rfl, he⟩
        · rintro ⟨rfl, hfound⟩
          rw [he] at hfound
          exact ⟨rfl, Option.some.inj hfound⟩

theorem read_ok {p : Path} {content : Bytes} :
    t.read p = .ok content ↔ ∃ location mode, t.find p = .ok (location, .file content mode) := by
  rw [read]
  cases hf : t.find p with
  | error c => simp
  | ok found =>
    obtain ⟨there, e⟩ := found
    cases e with
    | directory => simp
    | file held mode => simp

end Walking

section Putting

/-- Two trees that differ at most at some locations. -/
def SameOutside (locations : List Location) (t t' : FileTree) : Prop :=
  t'.workingDirectory = t.workingDirectory ∧
    ∀ location, location ∉ locations → t'.entryAt? location = t.entryAt? location

variable {t : FileTree} {here there location : Location} {parts : List (List Char)} {content : Bytes}
  {mode : Nat}

/-- A file that is put where no directory stands leaves the directories as they were. -/
theorem directory_put (hl : t.entryAt? location ≠ some .directory)
    (hd : t.entryAt? here = some .directory) :
    (t.put location (.file content mode)).entryAt? here = some .directory := by
  have hne : here ≠ location := by
    rintro rfl
    exact hl hd
  rw [entryAt?_put_ne hne, hd]

theorem ne_nil_of_ne_directory (hl : t.entryAt? location ≠ some .directory) : location ≠ [] := by
  rintro rfl
  exact hl rfl

theorem isSome_put (hl : t.entryAt? location ≠ some .directory)
    (hs : (t.entryAt? there).isSome = true) :
    ((t.put location (.file content mode)).entryAt? there).isSome = true := by
  by_cases he : there = location
  · rw [he, entryAt?_put_self (ne_nil_of_ne_directory hl)]
    rfl
  · rw [entryAt?_put_ne he, hs]

theorem step_put {part : List Char} (hl : t.entryAt? location ≠ some .directory)
    (h : t.step here part = .ok there) :
    (t.put location (.file content mode)).step here part = .ok there := by
  have hd := directory_of_step h
  rw [step, hd] at h
  rw [step, directory_put hl hd]
  dsimp only at h ⊢
  split_ifs at h ⊢ with hidle hback hlong hput hsome hsome
  · exact h
  · exact h
  · exact h
  · exact absurd (isSome_put hl hsome) hput

/-- A way that led somewhere leads there when a file has been put where no directory stands. -/
theorem walk_put (hl : t.entryAt? location ≠ some .directory) (h : t.walk here parts = .ok there) :
    (t.put location (.file content mode)).walk here parts = .ok there := by
  induction parts generalizing here with
  | nil => exact h
  | cons part rest ih =>
    rw [walk_cons] at h ⊢
    cases hs : t.step here part with
    | error c => simp [hs] at h
    | ok next =>
      simp only [hs] at h
      rw [step_put hl hs]
      exact ih h

end Putting

section Targets

def below (directory : Location) (name : List Char) : Location :=
  directory ++ [String.ofList name]

/-- Where a path that can be written leads: past directories to a name, at which no directory stands. -/
structure Target (t : FileTree) (p : Path) (front : List (List Char)) (last : List Char)
    (directory : Location) : Prop where
  sound : pathFault? p = none
  ends : EndsIn p front last
  short : Text.Utf8.size last ≤ longestName
  leads : t.walk (t.start p) (leading front) = .ok directory
  isDirectory : t.entryAt? directory = some .directory
  free : t.entryAt? (below directory last) ≠ some .directory

variable {t : FileTree} {p : Path} {front : List (List Char)} {last : List Char} {directory : Location}
  {content : Bytes} {mode : Nat}

theorem parts_concat (hs : segments p.text.toList = front ++ [last]) :
    parts p = (if p.isAbsolute then front.drop 1 else front) ++ [last] := by
  rw [parts, hs]
  split_ifs with habsolute
  · cases front with
    | nil =>
      have htext : p.text.toList = last := by
        rw [← Path.joined_segments p.text.toList, hs]
        simp [Path.joined]
      have hslash : '/' ∉ last := Path.slash_notMem (s := p.text.toList) (by simp [hs])
      rw [Path.isAbsolute, decide_eq_true_eq, htext] at habsolute
      exact absurd (List.mem_of_head? habsolute) hslash
    | cons first rest => rfl
  · rfl

theorem leading_parts (hs : segments p.text.toList = front ++ [last]) :
    leading (if p.isAbsolute then front.drop 1 else front) = leading front := by
  split_ifs with habsolute
  · rw [Path.isAbsolute, decide_eq_true_eq] at habsolute
    obtain ⟨rest, htext⟩ := List.head?_eq_some_iff.mp habsolute
    rw [htext, Path.segments_slash] at hs
    cases front with
    | nil => rfl
    | cons first others =>
      rw [← (List.cons.inj hs).1]
      rfl
  · rfl

/-- Only the parts that lead somewhere matter for where a path leads. -/
theorem walk_parts (t : FileTree) (hs : segments p.text.toList = front ++ [last]) :
    t.walk (t.start p) (parts p) = t.walk (t.start p) (leading front ++ [last]) := by
  rw [parts_concat hs, walk_leading, leading_parts hs]

/-- A path leads to the entry at its target. -/
theorem Target.find (h : Target t p front last directory) {e : Entry}
    (he : t.entryAt? (below directory last) = some e) :
    t.find p = .ok (below directory last, e) := by
  have hlast : t.step directory last = .ok (below directory last) := by
    have hfound : (t.entryAt? (directory ++ [String.ofList last])).isSome = true := by
      rw [below] at he
      rw [he]
      rfl
    rw [step, h.isDirectory]
    dsimp only
    rw [if_neg (by rw [h.ends.name.leads]; exact Bool.false_ne_true), if_neg h.ends.name.enters,
      if_neg (Nat.not_lt.mpr h.short), if_pos hfound, below]
  have hwalk : t.walk (t.start p) (parts p) = .ok (below directory last) := by
    rw [walk_parts t h.ends.parts, walk_append, h.leads]
    dsimp only
    rw [walk_cons, hlast]
    rfl
  rw [FileTree.find, h.sound]
  simp only [hwalk, he]

/-- What a path leads to is one step away from where its other parts lead. -/
theorem step_of_find {there : Location} {e : Entry} (hs : segments p.text.toList = front ++ [last])
    (hleads : t.walk (t.start p) (leading front) = .ok directory) (hf : t.find p = .ok (there, e)) :
    t.step directory last = .ok there := by
  obtain ⟨_, hwalk, _⟩ := find_ok.mp hf
  rw [walk_parts t hs, walk_append, hleads] at hwalk
  dsimp only at hwalk
  rw [walk_cons] at hwalk
  cases hlast : t.step directory last with
  | error c => simp [hlast] at hwalk
  | ok next =>
    rw [hlast] at hwalk
    exact hwalk

theorem step_name_ok {here there : Location} {name : List Char} (hn : IsName name)
    (h : t.step here name = .ok there) : there = below here name := by
  rw [step, directory_of_step h] at h
  dsimp only at h
  rw [if_neg (by rw [hn.leads]; exact Bool.false_ne_true), if_neg hn.enters] at h
  split_ifs at h
  exact (Except.ok.inj h).symm

/-- Only the name of an entry leads to it from its directory. -/
theorem eq_of_step_below {here : Location} {part name : List Char}
    (h : t.step here part = .ok (below here name)) : part = name := by
  have hlonger : (below here name).length = here.length + 1 := by simp [below]
  rw [step, directory_of_step h] at h
  dsimp only at h
  -- every other part leads to the directory itself or out of it
  split_ifs at h
  · rw [← Except.ok.inj h] at hlonger
    omega
  · rw [← Except.ok.inj h, List.length_dropLast] at hlonger
    omega
  · have hnames := List.append_cancel_left (Except.ok.inj h)
    exact String.ofList_injective (List.singleton_inj.mp hnames)

/-- A file that is put where no directory stands leaves the targets as they were. -/
theorem Target.put (h : Target t p front last directory) {location : Location}
    (hl : t.entryAt? location ≠ some .directory) :
    Target (t.put location (.file content mode)) p front last directory := by
  refine ⟨h.sound, h.ends, h.short, walk_put hl h.leads, directory_put hl h.isDirectory, ?_⟩
  by_cases he : below directory last = location
  · rw [he, entryAt?_put_self (ne_nil_of_ne_directory hl)]
    simp
  · rw [entryAt?_put_ne he]
    exact h.free

/-- A path that differs from another in parts that lead nowhere has the same target. -/
theorem Target.of_leading (h : Target t p front last directory) {q : Path}
    {others : List (List Char)} (hends : EndsIn q others last) (hsound : pathFault? q = none)
    (habsolute : q.isAbsolute = p.isAbsolute) (hleading : leading others = leading front) :
    Target t q others last directory := by
  refine ⟨hsound, hends, h.short, ?_, h.isDirectory, h.free⟩
  have hstart : t.start q = t.start p := by rw [start, start, habsolute]
  rw [hstart, hleading, h.leads]

theorem Target.same_directory {q : Path} {final : List Char} {place : Location}
    (h : Target t p front last directory) (h' : Target t q front final place) : directory = place := by
  have habsolute : p.isAbsolute = q.isAbsolute := by
    rw [Bool.eq_iff_iff, h.ends.isAbsolute_iff, h'.ends.isAbsolute_iff]
  have hstart : t.start p = t.start q := by rw [start, start, habsolute]
  have hleads := h.leads
  rw [hstart, h'.leads] at hleads
  cases hleads
  rfl

theorem below_ne {name other : List Char} (h : name ≠ other) :
    below directory name ≠ below directory other := by
  intro he
  rw [below, below, List.append_cancel_left_eq, List.singleton_inj, String.ofList_inj] at he
  exact h he

theorem place_ok {here : Location} {ps : List (List Char)} {q : Place} (h : t.place here ps = .ok q) :
    t.walk here ps.dropLast = .ok q.directory ∧ t.entryAt? q.directory = some .directory ∧
      q.last = ps.getLast?.getD [] := by
  rw [place] at h
  cases hw : t.walk here ps.dropLast with
  | error c => simp [hw] at h
  | ok there =>
    simp only [hw] at h
    cases he : t.entryAt? there with
    | none => simp [he] at h
    | some e =>
      cases e with
      | file content mode => simp [he] at h
      | directory =>
        simp only [he, Except.ok.injEq] at h
        rw [← h]
        exact ⟨rfl, he, rfl⟩

theorem eq_nil_or_slash {s : List Char} (h : segments s = front ++ [[]]) :
    s = [] ∨ s.getLast? = some '/' := by
  have hs := Path.joined_segments s
  rw [h] at hs
  rcases List.eq_nil_or_concat' front with rfl | ⟨init, part, rfl⟩
  · left
    rw [← hs]
    rfl
  · right
    rw [← hs, Path.joined_concat (by simp)]
    simp

theorem exists_last (hsound : pathFault? p = none) (hslash : p.text.toList.getLast? ≠ some '/') :
    ∃ front last, segments p.text.toList = front ++ [last] ∧ last ≠ [] := by
  rcases List.eq_nil_or_concat' (segments p.text.toList) with hnil | ⟨front, last, hs⟩
  · exact absurd hnil (List.splitOn_ne_nil '/' _)
  · refine ⟨front, last, hs, ?_⟩
    rintro rfl
    rcases eq_nil_or_slash hs with hempty | hend
    · simp [pathFault?, hempty] at hsound
    · exact hslash hend

theorem dropSlashes_concat (h : last ≠ []) (parts : List (List Char)) :
    dropSlashes (parts ++ [last]) = parts ++ [last] := by
  rw [dropSlashes, List.reverse_append, List.reverse_singleton, List.singleton_append,
    List.dropWhile_cons_of_neg (by simpa using h), List.reverse_cons, List.reverse_reverse]

theorem isName_of_isStep (h : isStep last = false) (hslash : '/' ∉ last) : IsName last := by
  rw [isStep, Bool.or_eq_false_iff, beq_eq_false_iff_ne] at h
  exact ⟨h.1, h.2, hslash⟩

/-- The location at which a path is written, if it can be. -/
def destination? (t : FileTree) (p : Path) : Option Location :=
  match pathFault? p, t.place (t.start p) (dropSlashes (parts p)) with
  | none, .ok q =>
    if isStep q.last = true ∨ p.text.toList.getLast? = some '/' ∨
        longestName < Text.Utf8.size q.last ∨
        t.entryAt? (below q.directory q.last) = some .directory then none
    else some (below q.directory q.last)
  | _, _ => none

def modeAt (t : FileTree) (location : Location) : Nat :=
  match t.entryAt? location with
  | some (.file _ mode) => mode
  | _ => newFileMode

def store (t : FileTree) (location : Location) (content : Bytes) : FileTree :=
  t.put location (.file content (t.modeAt location))

/-- Writing a file stores it at the location of its path. -/
theorem toOption_write (t : FileTree) (p : Path) (content : Bytes) :
    (t.write p content).toOption = (t.destination? p).map fun location => t.store location content := by
  rw [write, destination?]
  cases pathFault? p with
  | some c => rfl
  | none =>
    dsimp only
    cases t.place (t.start p) (dropSlashes (parts p)) with
    | error c => rfl
    | ok q =>
      dsimp only
      by_cases hstep : (isStep q.last || p.text.toList.getLast? = some '/') = true
      · rw [if_pos hstep]
        have hstep' : isStep q.last = true ∨ p.text.toList.getLast? = some '/' := by simpa using hstep
        rw [if_pos (by tauto)]
        rfl
      · rw [if_neg hstep]
        have hstep' : ¬(isStep q.last = true ∨ p.text.toList.getLast? = some '/') := by simpa using hstep
        by_cases hlong : longestName < Text.Utf8.size q.last
        · rw [if_pos hlong, if_pos (by tauto)]
          rfl
        · rw [if_neg hlong]
          cases he : t.entryAt? (below q.directory q.last) with
          | none =>
            rw [below] at he
            simp [he, hlong, hstep', store, modeAt, below, Except.toOption]
          | some e =>
            rw [below] at he
            cases e <;> simp [he, hlong, hstep', store, modeAt, below, Except.toOption]

/-- A path that can be written has a target. -/
theorem destination_ok {location : Location} (h : t.destination? p = some location) :
    ∃ front last directory, Target t p front last directory ∧ location = below directory last := by
  rw [destination?] at h
  split at h
  · rename_i q hsound hplace
    split_ifs at h with hbad
    cases h
    simp only [not_or, Bool.not_eq_true, Nat.not_lt] at hbad
    obtain ⟨hstep, hslash, hshort, hfree⟩ := hbad
    obtain ⟨hwalk, hdirectory, hlast⟩ := place_ok hplace
    obtain ⟨front, last, hs, hne⟩ := exists_last hsound hslash
    rw [parts_concat hs, dropSlashes_concat hne] at hwalk hlast
    rw [List.getLast?_concat, Option.getD_some] at hlast
    rw [List.dropLast_concat] at hwalk
    rw [hlast] at hstep hshort hfree ⊢
    have hends : EndsIn p front last :=
      ⟨hs, isName_of_isStep hstep (Path.slash_notMem (s := p.text.toList) (by simp [hs]))⟩
    have hleads := walk_leading_ok hwalk
    rw [leading_parts hs] at hleads
    exact ⟨front, last, q.directory, ⟨hsound, hends, hshort, hleads, hdirectory, hfree⟩, rfl⟩
  · cases h

/-- A file that is written stands at the target of its path. -/
theorem write_ok {t' : FileTree} (h : t.write p content = .ok t') :
    ∃ front last directory mode, Target t p front last directory ∧
      t' = t.put (below directory last) (.file content mode) := by
  have hstore := toOption_write t p content
  rw [h] at hstore
  obtain ⟨location, hlocation, rfl⟩ := Option.map_eq_some_iff.mp hstore.symm
  obtain ⟨front, last, directory, htarget, rfl⟩ := destination_ok hlocation
  exact ⟨front, last, directory, _, htarget, rfl⟩

theorem size_le_of_sublist {s u : List Char} (h : s.Sublist u) : Text.Utf8.size s ≤ Text.Utf8.size u :=
  (h.flatMap String.utf8EncodeChar).length_le

theorem sound_of_sublist {q : Path} (hsub : q.text.toList.Sublist p.text.toList)
    (hne : q.text.toList ≠ []) (h : pathFault? p = none) : pathFault? q = none := by
  rw [pathFault?] at h ⊢
  split_ifs at h with hnul hempty hlong
  have hnul' : ¬q.text.toList.contains '\x00' = true := by
    intro hm
    rw [List.contains_iff_mem] at hm hnul
    exact hnul (hsub.subset hm)
  have hle := size_le_of_sublist hsub
  rw [if_neg hnul', if_neg (by simpa using hne), if_neg (by omega)]

/-- A path beside another leads where a path with the same parts and its name leads. -/
theorem Target.beside {q : Path} {old : List Char} (h : Target t p front last directory)
    (hq : EndsIn q front old) : ∃ others, Target t (q.beside last) others last directory := by
  obtain ⟨others, hbeside, hsub, hleading, hhead⟩ := hq.beside h.ends.name.head_ne
  have hends : EndsIn (q.beside last) others last := by
    rw [hbeside]
    exact Path.endsIn_joined (fun part hm => hq.slash_notMem part (hsub.subset hm)) h.ends.name
  refine ⟨others, h.of_leading hends ?_ ?_ hleading⟩
  · refine sound_of_sublist ?_ hends.text_ne_nil h.sound
    rw [hends.text, h.ends.text]
    exact Path.joined_sublist (hsub.append (List.Sublist.refl _))
  · rw [Bool.eq_iff_iff, hends.isAbsolute_iff, h.ends.isAbsolute_iff, hhead]

end Targets

section Beside

variable {t : FileTree} {p q : Path} {front others : List (List Char)} {last name : List Char}

/-- Two paths with the same start and the same parts that lead somewhere lead to the same entry. -/
theorem find_of_leading (hp : segments p.text.toList = front ++ [last])
    (hq : segments q.text.toList = others ++ [last]) (habsolute : q.isAbsolute = p.isAbsolute)
    (hleading : leading others = leading front) (hps : pathFault? p = none)
    (hqs : pathFault? q = none) : t.find q = t.find p := by
  have hstart : t.start q = t.start p := by rw [start, start, habsolute]
  have hwalk : t.walk (t.start q) (parts q) = t.walk (t.start p) (parts p) := by
    rw [walk_parts t hq, walk_parts t hp, hleading, hstart]
  rw [find, find, hps, hqs]
  dsimp only
  rw [hwalk]

theorem isAbsolute_joined (hfront : ∀ part ∈ front, '/' ∉ part) (hname : name.head? ≠ some '/') :
    (Path.mk (String.ofList (Path.joined (front ++ [name])))).isAbsolute = true ↔
      front.head? = some [] := by
  rw [Path.isAbsolute, decide_eq_true_eq, String.toList_ofList]
  cases front with
  | nil =>
    have hone : Path.joined [name] = name := List.intercalate_singleton
    rw [List.nil_append, hone]
    exact iff_of_false hname (by simp)
  | cons part rest =>
    rw [List.cons_append, Path.joined_cons (by simp), List.head?_cons, Option.some.injEq]
    cases part with
    | nil => exact iff_of_true rfl rfl
    | cons c more =>
      have hc : c ≠ '/' := fun he => hfront _ List.mem_cons_self (he ▸ List.mem_cons_self)
      simp [hc]

/-- What a text beside a file leads to is one step away from the directory of the file. -/
theorem step_of_find_beside {directory there : Location} {e : Entry} (h : EndsIn p front last)
    (hname : '/' ∉ name) (hleads : t.walk (t.start p) (leading front) = .ok directory)
    (hf : t.find (p.beside name) = .ok (there, e)) : t.step directory name = .ok there := by
  have hhead : name.head? ≠ some '/' := fun hm => hname (List.mem_of_head? hm)
  obtain ⟨others, hbeside, hsub, hleading, hfirst⟩ := h.beside hhead
  have hothers : ∀ part ∈ others, '/' ∉ part := fun part hm => h.slash_notMem part (hsub.subset hm)
  have hs : segments (p.beside name).text.toList = others ++ [name] := by
    rw [hbeside, String.toList_ofList, Path.segments_joined_concat hothers, segments,
      List.splitOn_eq_singleton hname]
  have habsolute : (p.beside name).isAbsolute = p.isAbsolute := by
    rw [hbeside, Bool.eq_iff_iff, isAbsolute_joined hothers hhead, h.isAbsolute_iff, hfirst]
  have hstart : t.start (p.beside name) = t.start p := by rw [start, start, habsolute]
  exact step_of_find hs (by rw [hstart, hleading, hleads]) hf

/-- A relative path that replaces the name of a file leads to the same file when it is read beside it. -/
theorem read_beside {content : Bytes} (h : EndsIn p front last) (hne : name ≠ [])
    (hname : name.head? ≠ some '/')
    (hr : t.read ⟨String.ofList (Path.joined (front ++ [name]))⟩ = .ok content) :
    t.read (p.beside name) = .ok content := by
  obtain ⟨others, hbeside, hsub, hleading, hhead⟩ := h.beside hname
  have hfront := h.slash_notMem
  have hothers : ∀ part ∈ others, '/' ∉ part := fun part hm => hfront part (hsub.subset hm)
  obtain ⟨init, final, hfinal⟩ := List.eq_nil_or_concat' (segments name) |>.resolve_left
    (List.splitOn_ne_nil '/' name)
  have hp : segments (Path.joined (front ++ [name])) = front ++ init ++ [final] := by
    rw [Path.segments_joined_concat hfront, hfinal, List.append_assoc]
  have hq : segments (Path.joined (others ++ [name])) = others ++ init ++ [final] := by
    rw [Path.segments_joined_concat hothers, hfinal, List.append_assoc]
  have hsound : pathFault? ⟨String.ofList (Path.joined (front ++ [name]))⟩ = none := by
    cases hf : pathFault? ⟨String.ofList (Path.joined (front ++ [name]))⟩ with
    | none => rfl
    | some cause =>
      rw [read, find, hf] at hr
      cases hr
  have hsound' : pathFault? ⟨String.ofList (Path.joined (others ++ [name]))⟩ = none := by
    refine sound_of_sublist ?_ ?_ hsound
    · rw [String.toList_ofList, String.toList_ofList]
      exact Path.joined_sublist (hsub.append (List.Sublist.refl _))
    · rw [String.toList_ofList]
      by_cases hnil : others = []
      · have hone : Path.joined [name] = name := List.intercalate_singleton
        rw [hnil, List.nil_append, hone]
        exact hne
      · rw [Path.joined_concat hnil]
        simp
  have hsame : t.find (p.beside name) = t.find ⟨String.ofList (Path.joined (front ++ [name]))⟩ := by
    rw [hbeside]
    refine find_of_leading (by rw [String.toList_ofList, hp]) (by rw [String.toList_ofList, hq]) ?_
      ?_ hsound hsound'
    · rw [Bool.eq_iff_iff, isAbsolute_joined hothers hname, isAbsolute_joined hfront hname, hhead]
    · rw [Path.leading_append, hleading, ← Path.leading_append]
  rw [read, hsame, ← read, hr]

end Beside

end Assay.FileTree
