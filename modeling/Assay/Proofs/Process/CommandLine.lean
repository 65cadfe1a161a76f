import Assay.Process.Basic
import Assay.Proofs.Text.Spacing

namespace Assay

open Text

namespace Invocation

/-- Reads a text, inside quotes or not, after the characters of a word that has been begun, if one has. -/
def readFrom : Bool → Option (List Char) → List Char → List (List Char)
  | _, begun, [] => begun.toList
  | quoted, begun, c :: rest =>
    if c = '\'' then readFrom (!quoted) (some (begun.getD [])) rest
    else if !quoted && isBlank c then begun.toList ++ readFrom false none rest
    else readFrom quoted (some (begun.getD [] ++ [c])) rest

/-- The program and the arguments that a command line shows: the parts between white space that is not quoted,
without the quotes. -/
def shown (line : String) : List String :=
  (readFrom false none line.toList).map String.ofList

section Reading

variable {quoted : Bool} {begun : Option (List Char)} {word s : List Char}

theorem readFrom_blank {c : Char} (hc : isBlank c = true) (s : List Char) :
    readFrom false begun (c :: s) = begun.toList ++ readFrom false none s := by
  have hquote : c ≠ '\'' := by
    rintro rfl
    exact absurd hc (by decide)
  rw [readFrom, if_neg hquote, if_pos (by simp [hc])]

theorem readFrom_other {c : Char} (hquote : c ≠ '\'') (hc : quoted = true ∨ isBlank c = false) (s : List Char) :
    readFrom quoted begun (c :: s) = readFrom quoted (some (begun.getD [] ++ [c])) s := by
  rw [readFrom, if_neg hquote, if_neg]
  rcases hc with rfl | hc <;> simp [*]

/-- Characters that do not end a word go on with it. -/
theorem readFrom_append (hquote : '\'' ∉ s) (hs : quoted = true ∨ ∀ c ∈ s, isBlank c = false) (rest : List Char) :
    readFrom quoted (some word) (s ++ rest) = readFrom quoted (some (word ++ s)) rest := by
  induction s generalizing word with
  | nil => rw [List.nil_append, List.append_nil]
  | cons c s ih =>
    rw [List.mem_cons, not_or] at hquote
    rw [List.cons_append, readFrom_other (Ne.symm hquote.1), Option.getD_some, ih hquote.2, List.append_assoc,
      List.singleton_append]
    · exact hs.imp_right fun h d hd => h d (List.mem_cons_of_mem c hd)
    · exact hs.imp_right fun h => h c List.mem_cons_self

theorem readFrom_word (hquote : '\'' ∉ word) (hword : IsWord word) (rest : List Char) :
    readFrom false none (word ++ rest) = readFrom false (some word) rest := by
  obtain ⟨c, s, rfl⟩ := List.exists_cons_of_ne_nil hword.ne_nil
  rw [List.mem_cons, not_or] at hquote
  have hblank := List.forall_mem_cons.mp hword.unbroken
  rw [List.cons_append, readFrom_other (Ne.symm hquote.1) (.inr hblank.1),
    readFrom_append hquote.2 (.inr hblank.2)]
  rfl

/-- An argument is read back from what it is shown as. -/
theorem readFrom_argText {arg : String} (hquote : '\'' ∉ arg.toList) (rest : List Char) :
    readFrom false none ((argText arg).toList ++ rest) = readFrom false (some arg.toList) rest := by
  rw [argText]
  split_ifs with hneeds
  · have htext : ("'" ++ arg ++ "'").toList ++ rest = '\'' :: (arg.toList ++ '\'' :: rest) := by
      simp
    rw [htext, readFrom, if_pos rfl, Option.getD_none]
    change readFrom true (some []) _ = _
    rw [readFrom_append hquote (.inl rfl), readFrom, if_pos rfl]
    rfl
  · rw [needsQuotes, Bool.or_eq_true, not_or] at hneeds
    refine readFrom_word hquote ⟨fun hempty => hneeds.1 ?_, fun c hc => ?_⟩ rest
    · rw [String.isEmpty_iff, ← String.toList_eq_nil_iff, hempty]
    · by_contra hblank
      exact hneeds.2 (List.any_eq_true.mpr ⟨c, hc, by simpa using hblank⟩)

/-- Behind a word there is nothing, or white space. -/
def Ends (rest : List Char) : Prop :=
  ∀ c, rest.head? = some c → isBlank c = true

theorem readFrom_ends {rest : List Char} (h : Ends rest) :
    readFrom false begun rest = begun.toList ++ readFrom false none rest := by
  cases rest with
  | nil => exact (List.append_nil _).symm
  | cons c rest =>
    have hc : isBlank c = true := h c rfl
    rw [readFrom_blank hc, readFrom_blank hc]
    rfl

/-- A text without quotes is read as its words. -/
theorem readFrom_spaced {ws : List (List Char)} (h : Spaced ws s) (hquote : '\'' ∉ s) {rest : List Char}
    (hrest : Ends rest) : readFrom false none (s ++ rest) = ws ++ readFrom false none rest := by
  induction h with
  | nil => rfl
  | @blank c ws s hc _ ih =>
    rw [List.mem_cons, not_or] at hquote
    rw [List.cons_append, readFrom_blank hc, ih hquote.2]
    rfl
  | @last w hw =>
    rw [readFrom_word hquote hw, readFrom_ends hrest]
    rfl
  | @word w c ws s hw hc _ ih =>
    rw [List.mem_append, List.mem_cons, not_or, not_or] at hquote
    rw [List.append_assoc, readFrom_word hquote.1 hw, List.cons_append, readFrom_blank hc, ih hquote.2.2]
    rfl

/-- No quote is left. -/
theorem quote_notMem_readFrom (hbegun : ∀ word ∈ begun, '\'' ∉ word) :
    ∀ word ∈ readFrom quoted begun s, '\'' ∉ word := by
  induction s generalizing quoted begun with
  | nil => simpa [readFrom] using hbegun
  | cons c s ih =>
    have hgetD : '\'' ∉ begun.getD [] := by
      cases begun with
      | none => exact List.not_mem_nil
      | some word => exact hbegun word rfl
    rw [readFrom]
    split_ifs with hc hblank
    · exact ih (by simpa using hgetD)
    · intro word hm
      rcases List.mem_append.mp hm with hm | hm
      · exact hbegun word (Option.mem_toList.mp hm)
      · exact ih (by simp) word hm
    · exact ih (by simpa [Ne.symm hc] using hgetD)

end Reading

section Display

/-- The text of the arguments behind the program. -/
def tail (args : List String) : List Char :=
  args.flatMap fun arg => ' ' :: (argText arg).toList

theorem ends_tail (args : List String) : Ends (tail args) := by
  intro c hc
  cases args with
  | nil => cases hc
  | cons arg rest =>
    cases hc
    decide

theorem intercalate_argText (first : List Char) (args : List String) :
    [' '].intercalate (first :: args.map fun arg => (argText arg).toList) = first ++ tail args := by
  induction args generalizing first with
  | nil => simp [tail]
  | cons arg rest ih => simp [ih, tail]

theorem toList_display (i : Invocation) : i.display.toList = i.program.text.toList ++ tail i.args := by
  rw [display, String.toList_intercalate, List.map_cons, List.map_map]
  exact intercalate_argText _ _

theorem readFrom_tail {args : List String} (h : ∀ arg ∈ args, '\'' ∉ arg.toList) :
    readFrom false none (tail args) = args.map String.toList := by
  induction args with
  | nil => rfl
  | cons arg rest ih =>
    obtain ⟨harg, hrest⟩ := List.forall_mem_cons.mp h
    have htail : tail (arg :: rest) = ' ' :: ((argText arg).toList ++ tail rest) := rfl
    rw [htail, readFrom_blank (by decide), readFrom_argText harg, readFrom_ends (ends_tail rest), ih hrest]
    rfl

/-- Without quotes a command line shows the words of the program and the arguments. -/
theorem shown_display {i : Invocation} (hprogram : '\'' ∉ i.program.text.toList)
    (hargs : ∀ arg ∈ i.args, '\'' ∉ arg.toList) :
    shown i.display = (words i.program.text.toList).map String.ofList ++ i.args := by
  rw [shown, toList_display, readFrom_spaced (spaced_words _) hprogram (ends_tail _), readFrom_tail hargs,
    List.map_append, List.map_map]
  simp [Function.comp_def]

/-- A program that is one word, and no quotes. -/
structure Plain (i : Invocation) : Prop where
  word : IsWord i.program.text.toList
  program : '\'' ∉ i.program.text.toList
  args : ∀ arg ∈ i.args, '\'' ∉ arg.toList

/-- The program and the arguments are read back exactly from the command lines of plain invocations. -/
theorem shown_display_iff {i : Invocation} : shown i.display = i.program.text :: i.args ↔ i.Plain := by
  constructor
  · intro h
    -- what is read holds no quote, so neither the program nor an argument did; then the program is its only word
    have hquote : ∀ text ∈ i.program.text :: i.args, '\'' ∉ text.toList := by
      intro text hm
      rw [← h, shown] at hm
      obtain ⟨word, hword, rfl⟩ := List.mem_map.mp hm
      rw [String.toList_ofList]
      exact quote_notMem_readFrom (by simp) word hword
    obtain ⟨hprogram, hargs⟩ := List.forall_mem_cons.mp hquote
    rw [shown_display hprogram hargs] at h
    have hone : (words i.program.text.toList).map String.ofList = [i.program.text] :=
      List.append_cancel_right h
    obtain ⟨word, hwords, hword⟩ := List.map_eq_singleton_iff.mp hone
    have htext : i.program.text.toList = word := by rw [← hword, String.toList_ofList]
    exact ⟨words_eq_self_iff.mp (htext ▸ hwords), hprogram, hargs⟩
  · intro h
    rw [shown_display h.program h.args, words_word h.word, List.map_singleton, String.ofList_toList]
    rfl

/-- A command line is read back exactly if the program is one word and neither it nor an argument holds a quote.
Two such invocations never have the same command line; empty arguments and white space of any kind inside the
arguments do no harm. -/
theorem command_line_exact (i : Invocation) :
    (shown i.display = i.program.text :: i.args ↔ i.Plain) ∧
      (i.Plain → ∀ j : Invocation, j.Plain → j.display = i.display → j = i) := by
  refine ⟨shown_display_iff, fun hi j hj hsame => ?_⟩
  have hshown := shown_display_iff.mpr hj
  rw [hsame, shown_display_iff.mpr hi, List.cons.injEq] at hshown
  obtain ⟨⟨text⟩, args⟩ := i
  obtain ⟨⟨text'⟩, args'⟩ := j
  obtain ⟨rfl, rfl⟩ := hshown
  rfl

def spacedArguments : Invocation :=
  ⟨⟨"bin/transformix"⟩, ["-out", "/tmp/a b", "", "a\u3000b", "-tp"]⟩

def cutArguments : Invocation :=
  ⟨⟨"bin/transformix"⟩, ["-out", "/tmp/a", "b", "", "a\u3000b", "-tp"]⟩

theorem command_line_exact_spaced :
    shown spacedArguments.display = ["bin/transformix", "-out", "/tmp/a b", "", "a\u3000b", "-tp"] ∧
      cutArguments.display ≠ spacedArguments.display := by
  have hword : IsWord "bin/transformix".toList := isWord_of_all (by decide +kernel) (by decide +kernel)
  have hspaced : spacedArguments.Plain := ⟨hword, by decide +kernel, by decide +kernel⟩
  have hcut : cutArguments.Plain := ⟨hword, by decide +kernel, by decide +kernel⟩
  obtain ⟨hread, hunique⟩ := command_line_exact spacedArguments
  refine ⟨hread.mpr hspaced, fun hsame => ?_⟩
  exact absurd (hunique hspaced cutArguments hcut hsame) (by decide +kernel)

def blankProgram : Invocation :=
  ⟨⟨"/opt/x y/transformix"⟩, ["a"]⟩

/-- The program and the argument that look alike. -/
def partedProgram : Invocation :=
  ⟨⟨"/opt/x"⟩, ["y/transformix", "a"]⟩

/-- The path of a program is not quoted, and quotes inside arguments look like those around them. -/
theorem command_line_ambiguous :
    shown blankProgram.display ≠ blankProgram.program.text :: blankProgram.args ∧
      partedProgram.display = blankProgram.display ∧ partedProgram ≠ blankProgram ∧
      display ⟨⟨"t"⟩, ["''"]⟩ = display ⟨⟨"t"⟩, [""]⟩ := by
  decide +kernel

end Display

end Invocation

end Assay
