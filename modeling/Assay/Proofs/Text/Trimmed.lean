import Assay.Proofs.Text.Spacing

namespace Assay.Text

def Blanks (s : List Char) : Prop :=
  ∀ c ∈ s, isBlank c = true

instance (s : List Char) : Decidable (Blanks s) :=
  List.decidableBAll (fun c => isBlank c = true) s

variable {s front back gap : List Char}

theorem blanks_nil : Blanks [] := List.forall_mem_nil _

theorem Blanks.append (hfront : Blanks front) (hback : Blanks back) : Blanks (front ++ back) :=
  List.forall_mem_append.mpr ⟨hfront, hback⟩

theorem Blanks.notMem (h : Blanks s) {c : Char} (hc : isBlank c = false) : c ∉ s := by
  intro hm
  rw [h c hm] at hc
  cases hc

section Trim

/-- Trimming takes nothing but white space away, at the two ends. -/
theorem exists_blanks_trim (s : List Char) :
    ∃ front back, Blanks front ∧ Blanks back ∧ s = front ++ trim s ++ back := by
  refine ⟨s.takeWhile isBlank, ((trimStart s).reverse.takeWhile isBlank).reverse, ?_, ?_, ?_⟩
  · exact fun c hm => List.mem_takeWhile_imp hm
  · exact fun c hm => List.mem_takeWhile_imp (List.mem_reverse.mp hm)
  · rw [trim, trimEnd, List.append_assoc, ← List.reverse_append, List.takeWhile_append_dropWhile,
      List.reverse_reverse, trimStart, List.takeWhile_append_dropWhile]

theorem trim_trim (s : List Char) : trim (trim s) = trim s :=
  (trim_trimEnd (trimStart s)).trans (trim_trimStart s)

theorem isTrimmed_trim (s : List Char) : IsTrimmed (trim s) :=
  isTrimmed_of_trim (trim_trim s)

theorem trim_eq_iff {core : List Char} (h : IsTrimmed core) :
    trim s = core ↔ ∃ front back, Blanks front ∧ Blanks back ∧ s = front ++ core ++ back := by
  constructor
  · rintro rfl
    exact exists_blanks_trim s
  · rintro ⟨front, back, hfront, hback, rfl⟩
    exact trim_between hfront hback h

theorem trim_blanks_append (h : Blanks front) (s : List Char) : trim (front ++ s) = trim s := by
  induction front with
  | nil => rfl
  | cons c rest ih =>
    obtain ⟨hc, hrest⟩ := List.forall_mem_cons.mp h
    rw [List.cons_append, trim_cons_blank hc, ih hrest]

theorem blanks_iff_trim : Blanks s ↔ trim s = [] := by
  constructor
  · intro h
    have htrim := trim_append_blanks h []
    rwa [List.nil_append] at htrim
  · intro h
    obtain ⟨front, back, hfront, hback, heq⟩ := exists_blanks_trim s
    rw [heq, h, List.append_nil]
    exact hfront.append hback

theorem isTrimmed_ends {c d : Char} (hc : isBlank c = false) (hd : isBlank d = false) (middle : List Char) :
    IsTrimmed (c :: middle ++ [d]) := by
  constructor
  · intro e he
    rw [List.cons_append, List.head?_cons, Option.some.injEq] at he
    rwa [← he]
  · intro e he
    rw [List.getLast?_concat, Option.some.injEq] at he
    rwa [← he]

/-- A text that is not only white space has a first character that is none, and a last one. -/
theorem exists_ends (h : ¬Blanks s) :
    (∃ front c rest, Blanks front ∧ isBlank c = false ∧ s = front ++ c :: rest) ∧
    ∃ rest c back, Blanks back ∧ isBlank c = false ∧ s = rest ++ c :: back := by
  obtain ⟨front, back, hfront, hback, heq⟩ := exists_blanks_trim s
  have hne : trim s ≠ [] := fun he => h (blanks_iff_trim.mpr he)
  have htrimmed := isTrimmed_trim s
  constructor
  · obtain ⟨c, rest, hcore⟩ := List.exists_cons_of_ne_nil hne
    refine ⟨front, c, rest ++ back, hfront, htrimmed.first c (by rw [hcore, List.head?_cons]), ?_⟩
    rw [heq, hcore, List.append_assoc, List.cons_append]
  · obtain ⟨rest, c, hcore⟩ := (List.eq_nil_or_concat' (trim s)).resolve_left hne
    refine ⟨front ++ rest, c, back, hback, htrimmed.last c (by rw [hcore, List.getLast?_concat]), ?_⟩
    rw [heq, hcore, List.append_assoc, List.append_assoc, List.append_assoc, List.singleton_append]

theorem notMem_of_trim {c : Char} (hc : isBlank c = false) (h : c ∉ trim front) : c ∉ front := by
  obtain ⟨before, after, hbefore, hafter, heq⟩ := exists_blanks_trim front
  rw [heq, List.mem_append, List.mem_append, not_or, not_or]
  exact ⟨⟨hbefore.notMem hc, h⟩, hafter.notMem hc⟩

/-- Around the only character that trimming leaves of a text, there is white space. -/
theorem blanks_around {c d : Char} (hc : isBlank c = false) (h : trim (front ++ c :: back) = [d]) :
    Blanks front ∧ Blanks back := by
  rw [trim_append_cons hc, List.append_eq_singleton_iff] at h
  obtain ⟨hfront, hback⟩ | ⟨-, hback⟩ := h
  · obtain ⟨-, hback⟩ := List.cons.inj hback
    exact ⟨blanks_iff_trim.mpr (by rw [← trim_trimStart, hfront]; rfl),
      blanks_iff_trim.mpr (by rw [← trim_trimEnd, hback]; rfl)⟩
  · cases hback

end Trim

section Words

/-- White space parts the words in front of it from those behind it. -/
theorem words_append_cons {c : Char} (hc : isBlank c = true) (front back : List Char) :
    words (front ++ c :: back) = words front ++ words back := by
  have hfront := spaced_words front
  generalize words front = ws at hfront ⊢
  induction hfront with
  | nil => exact words_cons_blank hc back
  | blank hd _ ih => rw [List.cons_append, words_cons_blank hd, ih]
  | last hw => exact words_append_blank hw hc back
  | word hw hd _ ih =>
    rw [List.append_assoc, List.cons_append, words_append_blank hw hd, ih, List.cons_append]

theorem words_blanks_append (h : Blanks gap) (s : List Char) : words (gap ++ s) = words s := by
  induction gap with
  | nil => rfl
  | cons c rest ih =>
    obtain ⟨hc, hrest⟩ := List.forall_mem_cons.mp h
    rw [List.cons_append, words_cons_blank hc, ih hrest]

theorem words_append_gap (hne : gap ≠ []) (h : Blanks gap) (front back : List Char) :
    words (front ++ gap ++ back) = words front ++ words back := by
  obtain ⟨c, rest, rfl⟩ := List.exists_cons_of_ne_nil hne
  obtain ⟨hc, hrest⟩ := List.forall_mem_cons.mp h
  rw [List.append_assoc, List.cons_append, words_append_cons hc, words_blanks_append hrest]

theorem words_append_blanks (h : Blanks gap) (s : List Char) : words (s ++ gap) = words s := by
  cases gap with
  | nil => rw [List.append_nil]
  | cons c rest =>
    have hnone : words [] = [] := rfl
    have hgap := words_append_gap (List.cons_ne_nil c rest) h s []
    rwa [List.append_nil, hnone, List.append_nil] at hgap

end Words

end Assay.Text
