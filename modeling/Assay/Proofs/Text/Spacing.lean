import Assay.Proofs.Text.Blank

namespace Assay.Text

/-- A text of some words: white space may stand around them, and stands between any two. -/
inductive Spaced : List (List Char) → List Char → Prop
  | nil : Spaced [] []
  | blank {c : Char} {ws : List (List Char)} {s : List Char} (hc : isBlank c = true) (rest : Spaced ws s) :
    Spaced ws (c :: s)
  | last {w : List Char} (hw : IsWord w) : Spaced [w] w
  | word {w : List Char} {c : Char} {ws : List (List Char)} {s : List Char} (hw : IsWord w)
    (hc : isBlank c = true) (rest : Spaced ws s) : Spaced (w :: ws) (w ++ c :: s)

theorem Spaced.words_eq {ws : List (List Char)} {s : List Char} (h : Spaced ws s) : words s = ws := by
  induction h with
  | nil => rfl
  | blank hc rest ih => rw [words_cons_blank hc, ih]
  | last hw => exact words_word hw
  | word hw hc rest ih => rw [words_append_blank hw hc, ih]

/-- A text is a word, or one with white space and a text behind it, unless white space comes first. -/
theorem exists_word {c : Char} (hc : isBlank c = false) (s : List Char) :
    ∃ w, IsWord w ∧ (c :: s = w ∨ ∃ d rest, isBlank d = true ∧ rest.length < s.length ∧
      c :: s = w ++ d :: rest) := by
  induction s generalizing c with
  | nil => exact ⟨[c], isWord_of_all (by simp) (by simp [hc]), .inl rfl⟩
  | cons d s ih =>
    cases hd : isBlank d with
    | true =>
      exact ⟨[c], isWord_of_all (by simp) (by simp [hc]), .inr ⟨d, s, hd, by simp, rfl⟩⟩
    | false =>
      obtain ⟨w, hw, hsplit⟩ := ih hd
      have hword : IsWord (c :: w) := ⟨by simp, List.forall_mem_cons.mpr ⟨hc, hw.unbroken⟩⟩
      refine ⟨c :: w, hword, ?_⟩
      rcases hsplit with hsplit | ⟨e, rest, he, hlt, hsplit⟩
      · exact .inl (by rw [hsplit])
      · exact .inr ⟨e, rest, he, Nat.lt_succ_of_lt hlt, by rw [hsplit, List.cons_append]⟩

/-- Every text is one of its words. -/
theorem spaced_words (s : List Char) : Spaced (words s) s := by
  induction hn : s.length using Nat.strongRecOn generalizing s with
  | ind n ih =>
    cases s with
    | nil => exact .nil
    | cons c s =>
      rw [List.length_cons] at hn
      cases hc : isBlank c with
      | true =>
        rw [words_cons_blank hc]
        exact .blank hc (ih _ (by omega) s rfl)
      | false =>
        obtain ⟨w, hw, hsplit | ⟨d, rest, hd, hlt, hsplit⟩⟩ := exists_word hc s
        · rw [hsplit, words_word hw]
          exact .last hw
        · rw [hsplit, words_append_blank hw hd]
          exact .word hw hd (ih _ (by omega) rest rfl)

theorem spaced_iff {ws : List (List Char)} {s : List Char} : Spaced ws s ↔ words s = ws := by
  refine ⟨Spaced.words_eq, ?_⟩
  rintro rfl
  exact spaced_words s

theorem Spaced.isWord {ws : List (List Char)} {s : List Char} (h : Spaced ws s) : ∀ w ∈ ws, IsWord w := by
  induction h with
  | nil => exact List.forall_mem_nil _
  | blank _ _ ih => exact ih
  | last hw => exact List.forall_mem_singleton.mpr hw
  | word hw _ _ ih => exact List.forall_mem_cons.mpr ⟨hw, ih⟩

/-- A text is its only word exactly when it is a word. -/
theorem words_eq_self_iff {s : List Char} : words s = [s] ↔ IsWord s := by
  refine ⟨fun h => ?_, words_word⟩
  exact (spaced_iff.mpr h).isWord s (List.mem_singleton_self s)

/-- Words with single spaces between them stand on one line. -/
theorem not_mem_intercalate {ws : List (List Char)} (h : ∀ w ∈ ws, IsWord w) :
    '\n' ∉ List.intercalate [' '] ws := by
  induction ws with
  | nil => exact List.not_mem_nil
  | cons w rest ih =>
    obtain ⟨hw, hrest⟩ := List.forall_mem_cons.mp h
    have hline : '\n' ∉ w := fun hm => absurd (hw.unbroken _ hm) (by decide)
    cases rest with
    | nil => rwa [List.intercalate_singleton]
    | cons next rest =>
      rw [List.intercalate_cons_cons, List.mem_append, List.mem_append, not_or, not_or]
      exact ⟨⟨hline, by decide⟩, ih hrest⟩

/-- A line that is read back as it is. -/
structure IsLine (line : List Char) : Prop where
  unbroken : '\n' ∉ line
  last : line.getLast? ≠ some '\r'

def complete (ls : List (List Char)) : List Char :=
  ls.flatMap fun line => line ++ ['\n']

theorem complete_eq_intercalate (ls : List (List Char)) :
    complete ls = ['\n'].intercalate (ls ++ [[]]) := by
  induction ls with
  | nil => rfl
  | cons line rest ih =>
    rw [complete] at ih
    cases rest with
    | nil => simp [complete]
    | cons next rest =>
      rw [complete, List.flatMap_cons, ih, List.cons_append, List.cons_append, List.cons_append,
        List.intercalate_cons_cons]

theorem lines_complete {ls : List (List Char)} (h : ∀ line ∈ ls, IsLine line) : lines (complete ls) = ls := by
  have hsplit : (complete ls).splitOn '\n' = ls ++ [[]] := by
    rw [complete_eq_intercalate]
    refine List.splitOn_intercalate '\n' (fun line hline => ?_) (by simp)
    rcases List.mem_append.mp hline with hline | hline
    · exact (h line hline).unbroken
    · rw [List.mem_singleton.mp hline]
      exact List.not_mem_nil
  have hreturn : ls.map dropReturn = ls := by
    refine (List.map_congr_left fun line hline => ?_).trans (List.map_id' ls)
    rw [dropReturn, if_neg (h line hline).last]
  rw [lines, hsplit, List.dropLast_concat, hreturn]
  simp

end Assay.Text
