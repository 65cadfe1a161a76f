import Mathlib.Data.List.Basic
import Mathlib.Data.List.DropRight
import Mathlib.Data.List.TakeWhile
import Assay.Text.Search

namespace Assay.Text

structure IsTrimmed (s : List Char) : Prop where
  first : ∀ c, s.head? = some c → isBlank c = false
  last : ∀ c, s.getLast? = some c → isBlank c = false

@[simp] theorem trimStart_blank {c : Char} (h : isBlank c = true) (s : List Char) :
    trimStart (c :: s) = trimStart s := by
  rw [trimStart, List.dropWhile_cons_of_pos h, trimStart]

@[simp] theorem trimEnd_blank {c : Char} (h : isBlank c = true) (s : List Char) :
    trimEnd (s ++ [c]) = trimEnd s := by
  rw [trimEnd, List.reverse_append, List.reverse_singleton, List.singleton_append,
    List.dropWhile_cons_of_pos h, trimEnd]

/-- A blank in front of a text does not change its trimmed form. -/
theorem trim_cons_blank {c : Char} (h : isBlank c = true) (s : List Char) :
    trim (c :: s) = trim s := by
  rw [trim, trimStart_blank h, trim]

theorem trim_append_blank {c : Char} (h : isBlank c = true) (s : List Char) :
    trim (s ++ [c]) = trim s := by
  have ht : trimStart (s ++ [c]) = if (trimStart s).isEmpty then [] else trimStart s ++ [c] := by
    rw [trimStart, List.dropWhile_append, List.dropWhile_cons_of_pos h, List.dropWhile_nil, trimStart]
  rw [trim, ht, trim]
  cases hs : trimStart s with
  | nil => rfl
  | cons d rest =>
    rw [List.isEmpty_cons, if_neg (by simp)]
    exact trimEnd_blank h _

theorem trimStart_eq_self {s : List Char} (h : ∀ c, s.head? = some c → isBlank c = false) :
    trimStart s = s := by
  cases s with
  | nil => rfl
  | cons c rest =>
    rw [trimStart, List.dropWhile_cons_of_neg]
    rw [h c rfl]
    exact Bool.false_ne_true

theorem trimEnd_eq_self {s : List Char} (h : ∀ c, s.getLast? = some c → isBlank c = false) :
    trimEnd s = s := by
  have hr : trimStart s.reverse = s.reverse := by
    apply trimStart_eq_self
    intro c hc
    rw [List.head?_reverse] at hc
    exact h c hc
  rw [trimStart] at hr
  rw [trimEnd, hr, List.reverse_reverse]

theorem trim_eq_self {s : List Char} (h : IsTrimmed s) : trim s = s := by
  rw [trim, trimStart_eq_self h.first, trimEnd_eq_self h.last]

theorem trimEnd_sublist (s : List Char) : (trimEnd s).Sublist s := by
  rw [trimEnd, ← List.sublist_reverse_iff]
  exact List.dropWhile_sublist _

theorem trim_sublist (s : List Char) : (trim s).Sublist s :=
  (trimEnd_sublist _).trans (List.dropWhile_sublist _)

theorem length_trim_le (s : List Char) : (trim s).length ≤ s.length :=
  (trim_sublist s).length_le

theorem isTrimmed_of_trim {s : List Char} (h : trim s = s) : IsTrimmed s := by
  have hstart : trimStart s = s := by
    refine (List.dropWhile_sublist isBlank).eq_of_length_le ?_
    have hend := (trimEnd_sublist (trimStart s)).length_le
    rwa [← trim, h] at hend
  have hend : trimStart s.reverse = s.reverse := by
    rw [trim, hstart, trimEnd] at h
    rw [trimStart, ← List.reverse_eq_iff, h]
  have hhead : ∀ s c, trimStart s = s → s.head? = some c → isBlank c = false := by
    intro s c hs hc
    have hnot := List.head?_dropWhile_not isBlank s
    rw [← trimStart, hs, hc] at hnot
    simpa using hnot
  refine ⟨fun c hc => hhead s c hstart hc, fun c hc => hhead s.reverse c hend ?_⟩
  rwa [List.head?_reverse]

theorem trim_append_blanks {blanks : List Char} (h : ∀ c ∈ blanks, isBlank c = true) (s : List Char) :
    trim (s ++ blanks) = trim s := by
  induction blanks generalizing s with
  | nil => rw [List.append_nil]
  | cons c rest ih =>
    rw [List.append_cons, ih fun d hd => h d (List.mem_cons_of_mem c hd),
      trim_append_blank (h c List.mem_cons_self)]

theorem trim_trimEnd (s : List Char) : trim (trimEnd s) = trim s := by
  have hsplit : s = trimEnd s ++ (s.reverse.takeWhile isBlank).reverse := by
    rw [trimEnd, ← List.reverse_append, List.takeWhile_append_dropWhile, List.reverse_reverse]
  have hblank : ∀ c ∈ (s.reverse.takeWhile isBlank).reverse, isBlank c = true := fun c hm =>
    List.mem_takeWhile_imp (List.mem_reverse.mp hm)
  conv_rhs => rw [hsplit, trim_append_blanks hblank]

/-- In front of the last character that is not blank, nothing is trimmed at the end. -/
theorem trimEnd_append {front : List Char} (h : ∀ c, front.getLast? = some c → isBlank c = false)
    (back : List Char) : trimEnd (front ++ back) = front ++ trimEnd back := by
  have hfront := trimEnd_eq_self h
  rw [trimEnd] at hfront
  rw [trimEnd, List.reverse_append, List.dropWhile_append, trimEnd]
  split_ifs with hempty
  · rw [List.isEmpty_iff] at hempty
    rw [hfront, hempty, List.reverse_nil, List.append_nil]
  · rw [List.reverse_append, List.reverse_reverse]

theorem trim_trimStart (s : List Char) : trim (trimStart s) = trim s := by
  rw [trim, trimStart, trimStart, List.dropWhile_idempotent, trim, trimStart]

/-- Around a character that is not blank, a text is trimmed at the two ends. -/
theorem trim_append_cons {c : Char} (h : isBlank c = false) (front back : List Char) :
    trim (front ++ c :: back) = trimStart front ++ c :: trimEnd back := by
  have hstart : trimStart (front ++ c :: back) = trimStart front ++ c :: back := by
    rw [trimStart, List.dropWhile_append, trimStart]
    split_ifs with hempty
    · rw [List.isEmpty_iff.mp hempty, List.dropWhile_cons_of_neg (by simp [h]), List.nil_append]
    · rfl
  have hend : ∀ d, (trimStart front ++ [c]).getLast? = some d → isBlank d = false := by
    intro d hd
    rw [List.getLast?_append_of_ne_nil _ (by simp), List.getLast?_singleton, Option.some.injEq] at hd
    rwa [← hd]
  rw [trim, hstart, List.append_cons, trimEnd_append hend, ← List.append_cons]

/-- White space around a text that is trimmed does not matter. -/
theorem trim_between {front s back : List Char} (hfront : ∀ c ∈ front, isBlank c = true)
    (hback : ∀ c ∈ back, isBlank c = true) (h : IsTrimmed s) : trim (front ++ s ++ back) = s := by
  rw [trim_append_blanks hback]
  induction front with
  | nil => exact trim_eq_self h
  | cons c rest ih =>
    have hrest := ih fun d hd => hfront d (List.mem_cons_of_mem c hd)
    rw [List.cons_append, trim_cons_blank (hfront c List.mem_cons_self), hrest]

/-- A text is cut at the first mark. -/
theorem cutAt_append {mark : Char} {front : List Char} (h : mark ∉ front) (back : List Char) :
    cutAt mark (front ++ mark :: back) = some (front, back) := by
  induction front with
  | nil => simp [cutAt]
  | cons c rest ih =>
    have hc : c ≠ mark := fun he => h (he ▸ List.mem_cons_self)
    have hrest : mark ∉ rest := fun hm => h (List.mem_cons_of_mem c hm)
    rw [List.cons_append, cutAt, if_neg hc, ih hrest]
    rfl

/-- The parts and the mark make up the text. -/
theorem eq_of_cutAt {mark : Char} {s front back : List Char} (h : cutAt mark s = some (front, back)) :
    s = front ++ mark :: back ∧ mark ∉ front := by
  induction s generalizing front with
  | nil => simp [cutAt] at h
  | cons c rest ih =>
    rw [cutAt] at h
    split at h
    · rename_i hc
      cases h
      exact ⟨by rw [hc]; rfl, by simp⟩
    · rename_i hc
      obtain ⟨parts, hp, he⟩ := Option.map_eq_some_iff.mp h
      cases he
      obtain ⟨hs, hm⟩ := @ih parts.1 hp
      refine ⟨by rw [hs]; rfl, ?_⟩
      intro hmem
      rcases List.mem_cons.mp hmem with he | hin
      · exact hc he.symm
      · exact hm hin

section Words

theorem length_closeWord_le (word : List Char) (ws : List (List Char)) :
    (closeWord word ws).length ≤ ws.length + word.length := by
  cases word <;> simp [closeWord]

theorem length_consWord_le (c : Char) (split : List Char × List (List Char)) :
    (consWord c split).2.length + (consWord c split).1.length ≤
      split.2.length + split.1.length + 1 := by
  rw [consWord]
  split_ifs with hb
  · have h := length_closeWord_le split.1 split.2
    simp only [List.length_nil]
    omega
  · simp only [List.length_cons]
    omega

theorem length_words_le (s : List Char) : (words s).length ≤ s.length := by
  have hsplit : ∀ s : List Char,
      (s.foldr consWord ([], [])).2.length + (s.foldr consWord ([], [])).1.length ≤ s.length := by
    intro s
    induction s with
    | nil => simp
    | cons c rest ih =>
      have h := length_consWord_le c (rest.foldr consWord ([], []))
      rw [List.foldr_cons, List.length_cons]
      omega
  exact Nat.le_trans (length_closeWord_le _ _) (hsplit s)

structure IsWord (w : List Char) : Prop where
  ne_nil : w ≠ []
  unbroken : ∀ c ∈ w, isBlank c = false

theorem isWord_of_all {w : List Char} (hne : w ≠ []) (h : w.all (fun c => !isBlank c) = true) :
    IsWord w := by
  refine ⟨hne, fun c hc => ?_⟩
  have hall := List.all_eq_true.mp h c hc
  simpa using hall

theorem foldr_consWord {w : List Char} (h : ∀ c ∈ w, isBlank c = false)
    (split : List Char × List (List Char)) :
    w.foldr consWord split = (w ++ split.1, split.2) := by
  induction w with
  | nil => rfl
  | cons c rest ih =>
    rw [List.foldr_cons, ih fun d hd => h d (List.mem_cons_of_mem c hd), consWord,
      if_neg (by rw [h c List.mem_cons_self]; exact Bool.false_ne_true)]
    rfl

theorem words_word {w : List Char} (h : IsWord w) : words w = [w] := by
  rw [words, foldr_consWord h.unbroken]
  simp only [List.append_nil]
  exact closeWord_ne_nil h.ne_nil

theorem words_append_blank {w : List Char} (h : IsWord w) {c : Char} (hc : isBlank c = true)
    (s : List Char) : words (w ++ c :: s) = w :: words s := by
  rw [words, List.foldr_append, foldr_consWord h.unbroken, List.foldr_cons, consWord, if_pos hc]
  simp only [List.append_nil]
  rw [closeWord_ne_nil h.ne_nil, words]

/-- Words with single spaces between them are read back. -/
theorem words_intercalate {ws : List (List Char)} (h : ∀ w ∈ ws, IsWord w) :
    words (List.intercalate [' '] ws) = ws := by
  induction ws with
  | nil => rfl
  | cons w rest ih =>
    have hw := h w List.mem_cons_self
    have hrest := ih fun v hv => h v (List.mem_cons_of_mem w hv)
    cases rest with
    | nil =>
      rw [List.intercalate_singleton]
      exact words_word hw
    | cons v rest =>
      rw [List.intercalate_cons_cons, List.append_assoc, List.singleton_append, words_append_blank hw (by decide),
        hrest]

end Words

end Assay.Text
