import Mathlib.Data.List.Infix
import Mathlib.Data.List.Perm.Basic
import Mathlib.Logic.Relation
import Assay.Displacement.Parameters
import Assay.Proofs.Pairs
import Assay.Proofs.Text.Trimmed
import Assay.Proofs.Text.Utf8

namespace Assay.Displacement.Parameters

open Assay.Text

section Code

/-- The mark at which the comment of a line starts. -/
abbrev commentMark : List Char := ['/', '/']

abbrev code (line : List Char) : List Char :=
  before commentMark line

variable {front back gap line : List Char}

theorem code_of_mark (h : commentMark <+: line) : code line = [] := by
  cases line with
  | nil => rfl
  | cons c rest => exact if_pos (List.isPrefixOf_iff_prefix.mpr h)

theorem code_cons {c : Char} {rest : List Char} (h : ¬commentMark <+: c :: rest) :
    code (c :: rest) = c :: code rest :=
  if_neg (mt List.isPrefixOf_iff_prefix.mp h)

theorem code_append_plain (h : '/' ∉ front) (back : List Char) : code (front ++ back) = front ++ code back := by
  induction front with
  | nil => rfl
  | cons c rest ih =>
    rw [List.mem_cons, not_or] at h
    have hmark : ¬commentMark <+: c :: (rest ++ back) := fun hmark => h.1 (List.cons_prefix_cons.mp hmark).1
    rw [List.cons_append, code_cons hmark, ih h.2, List.cons_append]

theorem code_blanks_append (h : Blanks gap) (back : List Char) : code (gap ++ back) = gap ++ code back :=
  code_append_plain (h.notMem (by decide)) back

/-- Where no mark lies across the place at which a line is cut, its comment starts in one of the two parts. -/
theorem code_append (h : front.getLast? = some '/' → back.head? ≠ some '/') :
    code (front ++ back) = if commentMark <:+: front then code front else front ++ code back := by
  induction front with
  | nil => rw [if_neg (by simp), List.nil_append, List.nil_append]
  | cons c rest ih =>
    have hrest := ih fun hlast => h (by
      cases rest with
      | nil => cases hlast
      | cons d rest => rwa [List.getLast?_cons_cons])
    by_cases hstart : commentMark <+: c :: rest
    · have hwhole : commentMark <+: c :: (rest ++ back) := hstart.trans (List.prefix_append _ _)
      rw [if_pos hstart.isInfix, List.cons_append, code_of_mark hwhole, code_of_mark hstart]
    · have hwhole : ¬commentMark <+: c :: (rest ++ back) := by
        intro hmark
        cases rest with
        | nil =>
          rw [List.nil_append, List.cons_prefix_cons] at hmark
          obtain ⟨hc, tail, htail⟩ := hmark
          exact h (by rw [← hc, List.getLast?_singleton]) (by rw [← htail]; rfl)
        | cons d rest =>
          rw [List.cons_append, List.cons_prefix_cons, List.cons_prefix_cons] at hmark
          obtain ⟨hc, hd, -⟩ := hmark
          exact hstart (by rw [← hc, ← hd]; exact ⟨rest, rfl⟩)
      have hinside : commentMark <:+: c :: rest ↔ commentMark <:+: rest := by
        rw [List.infix_cons_iff, or_iff_right hstart]
      rw [List.cons_append, code_cons hwhole, hrest, code_cons hstart]
      simp only [hinside]
      split_ifs <;> rfl

theorem code_eq_self (h : ¬commentMark <:+: line) : code line = line := by
  have hcut := @code_append line [] (by simp)
  have hnil : code [] = [] := rfl
  rwa [List.append_nil, if_neg h, hnil, List.append_nil] at hcut

theorem code_prefix (line : List Char) : code line <+: line := by
  induction line with
  | nil => exact List.prefix_refl []
  | cons c rest ih =>
    by_cases hmark : commentMark <+: c :: rest
    · rw [code_of_mark hmark]
      exact List.nil_prefix
    · rw [code_cons hmark]
      exact List.cons_prefix_cons.mpr ⟨rfl, ih⟩

end Code

section Enclosed

variable {ws : List (List Char)} {s front back gap gap' : List Char}

/-- Words in parentheses. White space may stand around the words and around the parentheses. -/
def Enclosed (ws : List (List Char)) (s : List Char) : Prop :=
  ∃ front body back, Blanks front ∧ Blanks back ∧ Spaced ws body ∧ s = front ++ ('(' :: body ++ [')']) ++ back

theorem body?_eq_some {body : List Char} : body? s = some body ↔ s = '(' :: body ++ [')'] := by
  constructor
  · intro h
    unfold body? at h
    split at h
    · rename_i rest
      split_ifs at h with hlast
      cases h
      rw [List.cons_append, List.dropLast_append_getLast? _ hlast]
    · cases h
  · rintro rfl
    rw [List.cons_append, body?, List.getLast?_concat, if_pos rfl, List.dropLast_concat]

theorem enclosed_iff : Enclosed ws s ↔ (body? (trim s)).map words = some ws := by
  rw [Option.map_eq_some_iff]
  constructor
  · rintro ⟨front, body, back, hfront, hback, hspaced, rfl⟩
    have htrimmed : IsTrimmed ('(' :: body ++ [')']) := isTrimmed_ends (by decide) (by decide) body
    exact ⟨body, body?_eq_some.mpr (trim_between hfront hback htrimmed), hspaced.words_eq⟩
  · rintro ⟨body, hbody, rfl⟩
    obtain ⟨front, back, hfront, hback, heq⟩ := exists_blanks_trim s
    rw [body?_eq_some.mp hbody] at heq
    exact ⟨front, body, back, hfront, hback, spaced_words body, heq⟩

theorem enclosed_congr {s' : List Char} (h : trim s = trim s') : Enclosed ws s ↔ Enclosed ws s' := by
  rw [enclosed_iff, enclosed_iff, h]

/-- Between its first and its last character that are no white space, a text has the words in parentheses. -/
theorem enclosed_ends {c d : Char} {middle : List Char} (hfront : Blanks front) (hback : Blanks back)
    (hc : isBlank c = false) (hd : isBlank d = false) :
    Enclosed ws (front ++ (c :: middle ++ [d]) ++ back) ↔ c = '(' ∧ d = ')' ∧ words middle = ws := by
  rw [enclosed_iff, trim_between hfront hback (isTrimmed_ends hc hd middle), Option.map_eq_some_iff]
  constructor
  · rintro ⟨body, hbody, rfl⟩
    have heq := body?_eq_some.mp hbody
    rw [List.cons_append, List.cons_append, List.cons.injEq] at heq
    obtain ⟨hmiddle, hlast⟩ := List.append_inj' heq.2 rfl
    exact ⟨heq.1, List.singleton_inj.mp hlast, by rw [hmiddle]⟩
  · rintro ⟨rfl, rfl, rfl⟩
    exact ⟨middle, body?_eq_some.mpr rfl, rfl⟩

/-- White space in a text may be exchanged when the words of the part between the ends of the text stay. -/
theorem enclosed_exchange (hgap : Blanks gap) (hgap' : Blanks gap')
    (h : ∀ before c inside rest d after, front = before ++ c :: inside → back = rest ++ d :: after →
      isBlank c = false → isBlank d = false →
      words (inside ++ gap ++ rest) = words (inside ++ gap' ++ rest)) :
    Enclosed ws (front ++ gap ++ back) ↔ Enclosed ws (front ++ gap' ++ back) := by
  by_cases hfront : Blanks front
  · refine enclosed_congr ?_
    rw [trim_blanks_append (hfront.append hgap), trim_blanks_append (hfront.append hgap')]
  by_cases hback : Blanks back
  · refine enclosed_congr ?_
    rw [List.append_assoc, List.append_assoc, trim_append_blanks (hgap.append hback),
      trim_append_blanks (hgap'.append hback)]
  obtain ⟨⟨before, c, inside, hbefore, hc, rfl⟩, -⟩ := exists_ends hfront
  obtain ⟨-, rest, d, after, hafter, hd, rfl⟩ := exists_ends hback
  have hwords := h before c inside rest d after rfl rfl hc hd
  have hparts : ∀ gap, before ++ c :: inside ++ gap ++ (rest ++ d :: after) =
      before ++ (c :: (inside ++ gap ++ rest) ++ [d]) ++ after := fun gap => by simp
  rw [hparts, hparts, enclosed_ends hbefore hafter hc hd, enclosed_ends hbefore hafter hc hd, hwords]

end Enclosed

section Entries

variable {line line' : List Char}

theorem parameter?_eq_some_iff {key : String} {values : List String} :
    parameter? line = some (key, values) ↔ ∃ k vs, Enclosed (k :: vs) (code line) ∧
      String.ofList k = key ∧ vs.map (fun v => String.ofList (trimChar '"' v)) = values := by
  simp only [enclosed_iff]
  rw [parameter?]
  constructor
  · intro h
    split at h
    · rename_i k vs hwords
      cases h
      exact ⟨k, vs, hwords, rfl, rfl⟩
    · cases h
  · rintro ⟨k, vs, hwords, rfl, rfl⟩
    rw [hwords]

theorem parameter?_congr (h : ∀ ws, Enclosed ws (code line) ↔ Enclosed ws (code line')) :
    parameter? line = parameter? line' := by
  have hwords : (body? (trim (code line))).map words = (body? (trim (code line'))).map words := by
    refine Option.ext fun ws => ?_
    rw [← enclosed_iff, ← enclosed_iff, h]
  rw [parameter?, parameter?, hwords]

/-- A line without a comment gives the same with one. -/
theorem parameter?_comment (h : ¬commentMark <:+: line) (comment : List Char) :
    parameter? (line ++ " //".toList ++ comment) = parameter? line := by
  have hcode : code (line ++ " //".toList ++ comment) = line ++ [' '] := by
    rw [List.append_assoc, code_append (by simp), if_neg h]
    rfl
  refine parameter?_congr fun ws => enclosed_congr ?_
  rw [hcode, code_eq_self h, trim_append_blank (by decide)]

/-- A line gives nothing unless it starts with a parenthesis. -/
theorem parameter?_of_idle (h : (trimStart line).head? ≠ some '(') : parameter? line = none := by
  rw [Option.eq_none_iff_forall_ne_some]
  rintro ⟨key, values⟩ hentry
  obtain ⟨k, vs, ⟨front, body, back, hfront, -, -, hcode⟩, -⟩ := parameter?_eq_some_iff.mp hentry
  obtain ⟨rest, hrest⟩ := code_prefix line
  apply h
  rw [← hrest, hcode, trimStart, List.append_assoc, List.append_assoc, List.dropWhile_append_of_pos hfront]
  rfl

end Entries

section Spaces

/-- One line is the other with other white space at one place. Between two words, white space takes the place of white
space. At the two ends of a line, in front of its comment, and inside of the parentheses there may also be none, as
long as no two strokes come together to a mark. -/
inductive Respaced : List Char → List Char → Prop where
  | between {front gap gap' back : List Char} (hgap : Blanks gap) (hgap' : Blanks gap') (hne : gap ≠ [])
      (hne' : gap' ≠ []) : Respaced (front ++ gap ++ back) (front ++ gap' ++ back)
  | start {front gap gap' back : List Char} (hgap : Blanks gap) (hgap' : Blanks gap')
      (first : trim front = [] ∨ trim front = ['(']) : Respaced (front ++ gap ++ back) (front ++ gap' ++ back)
  | stop {front gap gap' back : List Char} (hgap : Blanks gap) (hgap' : Blanks gap')
      (last : trim (code back) = [] ∨ trim (code back) = [')'])
      (apart : front.getLast? = some '/' → back.head? ≠ some '/') :
      Respaced (front ++ gap ++ back) (front ++ gap' ++ back)

variable {front back gap line line' : List Char}

/-- Cutting a line at white space leaves the marks in it. -/
theorem code_gap (hgap : Blanks gap) (apart : gap = [] → front.getLast? = some '/' → back.head? ≠ some '/') :
    code (front ++ gap ++ back) =
      if commentMark <:+: front then code front else front ++ gap ++ code back := by
  rw [List.append_assoc, code_append, code_blanks_append hgap, ← List.append_assoc]
  cases gap with
  | nil => exact apart rfl
  | cons c rest =>
    intro _ hhead
    rw [List.cons_append, List.head?_cons, Option.some.injEq] at hhead
    exact hgap.notMem (c := '/') (by decide) (hhead ▸ List.mem_cons_self)

/-- A line says the same with other white space. -/
theorem Respaced.parameter?_eq (h : Respaced line line') : parameter? line = parameter? line' := by
  refine parameter?_congr fun ws => ?_
  cases h with
  | between hgap hgap' hne hne' =>
    rw [code_gap hgap (absurd · hne), code_gap hgap' (absurd · hne')]
    split_ifs
    · exact Iff.rfl
    · refine enclosed_exchange hgap hgap' fun before c inside rest d after _ _ _ _ => ?_
      rw [words_append_gap hne hgap, words_append_gap hne' hgap']
  | @start front gap gap' back hgap hgap' first =>
    have hplain : '/' ∉ front := by
      refine notMem_of_trim (by decide) ?_
      rcases first with hnone | hopen
      · simp [hnone]
      · simp [hopen]
    rw [code_gap hgap fun _ hlast => absurd (List.mem_of_getLast? hlast) hplain,
      code_gap hgap' fun _ hlast => absurd (List.mem_of_getLast? hlast) hplain]
    split_ifs
    · exact Iff.rfl
    · refine enclosed_exchange hgap hgap' fun before c inside rest d after hfront _ hc _ => ?_
      rcases first with hnone | hopen
      · have hblank := blanks_iff_trim.mpr hnone
        exact absurd (hfront ▸ List.mem_append_right before List.mem_cons_self) (hblank.notMem hc)
      · have hinside := (blanks_around hc (hfront ▸ hopen)).2
        rw [words_blanks_append (hinside.append hgap), words_blanks_append (hinside.append hgap')]
  | @stop front gap gap' back hgap hgap' last apart =>
    rw [code_gap hgap fun _ => apart, code_gap hgap' fun _ => apart]
    split_ifs
    · exact Iff.rfl
    · refine enclosed_exchange hgap hgap' fun before c inside rest d after _ hback _ hd => ?_
      rcases last with hnone | hclose
      · have hblank := blanks_iff_trim.mpr hnone
        exact absurd (hback ▸ List.mem_append_right rest List.mem_cons_self) (hblank.notMem hd)
      · have hrest := (blanks_around hd (hback ▸ hclose)).1
        rw [List.append_assoc, List.append_assoc, words_append_blanks (hgap.append hrest),
          words_append_blanks (hgap'.append hrest)]

end Spaces

section Files

variable {line key : List Char} {part part' ls ls' : List (List Char)}

def linesOf (text : String) : List (List Char) :=
  text.toList.splitOn '\n'

/-- Whether a line gives the values of a key: it has the key and the values in parentheses, in front of a comment if
there is one. -/
def Gives (line key : List Char) : Prop :=
  ∃ values, Enclosed (key :: values) (code line)

/-- A change of the lines of a file: some lines that stand together and give different keys are put in another
order, a line that does not start with a parenthesis is put in, a comment is put behind a line that has none, or the
white space in a line is changed. -/
inductive Changed : List (List Char) → List (List Char) → Prop where
  | order {before part part' after : List (List Char)} (perm : part.Perm part')
      (distinct : part.Pairwise fun line other => ∀ key, Gives line key → ¬Gives other key) :
      Changed (before ++ part ++ after) (before ++ part' ++ after)
  | idle {before after : List (List Char)} {line : List Char} (h : (trimStart line).head? ≠ some '(') :
      Changed (before ++ after) (before ++ line :: after)
  | comment {before after : List (List Char)} {line : List Char} (text : List Char)
      (plain : ¬commentMark <:+: line) :
      Changed (before ++ line :: after) (before ++ (line ++ " //".toList ++ text) :: after)
  | spaces {before after : List (List Char)} {line line' : List Char} (h : Respaced line line') :
      Changed (before ++ line :: after) (before ++ line' :: after)

/-- What is looked up in the entries of a file, where the last line of a key counts. -/
def valuesOf (ls : List (List Char)) (key : String) : Option (List String) :=
  (ls.filterMap parameter?).reverse.lookup key

theorem valuesOf_append (ls ls' : List (List Char)) (key : String) :
    valuesOf (ls ++ ls') key = (valuesOf ls' key).or (valuesOf ls key) := by
  rw [valuesOf, List.filterMap_append, List.reverse_append, List.lookup_append, valuesOf, valuesOf]

theorem valuesOf_cons (line : List Char) (ls : List (List Char)) (key : String) :
    valuesOf (line :: ls) key = (valuesOf ls key).or ((parameter? line).toList.lookup key) := by
  rw [← List.singleton_append, valuesOf_append]
  cases hentry : parameter? line <;> simp [valuesOf, hentry]

theorem gives_iff : Gives line key ↔ ∃ values, parameter? line = some (String.ofList key, values) := by
  constructor
  · rintro ⟨values, henclosed⟩
    exact ⟨_, parameter?_eq_some_iff.mpr ⟨key, values, henclosed, rfl, rfl⟩⟩
  · rintro ⟨_, hentry⟩
    obtain ⟨key', values, henclosed, hkey, -⟩ := parameter?_eq_some_iff.mp hentry
    exact ⟨values, String.ofList_injective hkey ▸ henclosed⟩

theorem distinct_iff : (part.Pairwise fun line other => ∀ key, Gives line key → ¬Gives other key) ↔
    ((part.filterMap parameter?).map Prod.fst).Nodup := by
  rw [List.Nodup, List.pairwise_map, List.pairwise_filterMap]
  refine List.Pairwise.iff fun line other => ?_
  simp only [gives_iff]
  constructor
  · rintro h ⟨key, values⟩ hentry ⟨_, values'⟩ hother rfl
    exact h key.toList ⟨values, by rwa [String.ofList_toList]⟩ ⟨values', by rwa [String.ofList_toList]⟩
  · rintro h key ⟨values, hentry⟩ ⟨values', hother⟩
    exact h _ hentry _ hother rfl

theorem valuesOf_perm (perm : part.Perm part')
    (distinct : part.Pairwise fun line other => ∀ key, Gives line key → ¬Gives other key) (key : String) :
    valuesOf part key = valuesOf part' key := by
  have hnodup := distinct_iff.mp distinct
  rw [← List.nodup_reverse, ← List.map_reverse] at hnodup
  refine lookup_perm ?_ hnodup key
  exact (List.reverse_perm _).trans ((perm.filterMap parameter?).trans (List.reverse_perm _).symm)

/-- A change of the lines leaves the values of every key. -/
theorem Changed.valuesOf_eq (h : Changed ls ls') (key : String) : valuesOf ls key = valuesOf ls' key := by
  cases h with
  | order perm distinct => simp only [valuesOf_append, valuesOf_perm perm distinct]
  | idle h => rw [valuesOf_append, valuesOf_append, valuesOf_cons, parameter?_of_idle h, Option.toList_none,
      List.lookup_nil, Option.or_none]
  | comment text plain => rw [valuesOf_append, valuesOf_append, valuesOf_cons, valuesOf_cons, parameter?_comment plain]
  | spaces h => rw [valuesOf_append, valuesOf_append, valuesOf_cons, valuesOf_cons, h.parameter?_eq]

theorem valuesOf_eq_of_changes (h : Relation.EqvGen Changed ls ls') (key : String) :
    valuesOf ls key = valuesOf ls' key := by
  induction h with
  | rel _ _ step => exact step.valuesOf_eq key
  | refl _ => rfl
  | symm _ _ _ ih => exact ih.symm
  | trans _ _ _ _ _ first second => exact first.trans second

/-- A carriage return at the end of a line is white space. -/
theorem parameter?_dropReturn (line : List Char) : parameter? (dropReturn line) = parameter? line := by
  rw [dropReturn]
  split_ifs with hlast
  · have hreturn : Blanks ['\r'] := List.forall_mem_singleton.mpr (by decide)
    have hspaces : Respaced (line.dropLast ++ [] ++ []) (line.dropLast ++ ['\r'] ++ []) :=
      .stop blanks_nil hreturn (.inl rfl) (by simp)
    have hentry := hspaces.parameter?_eq
    rwa [List.append_nil, List.append_nil, List.append_nil, List.dropLast_append_getLast? _ hlast] at hentry
  · rfl

/-- The entries of a text are those of its lines, however these end. -/
theorem filterMap_lines (s : List Char) :
    (lines s).filterMap parameter? = (s.splitOn '\n').filterMap parameter? := by
  have hreturn : parameter? ∘ dropReturn = parameter? := funext parameter?_dropReturn
  rw [lines, List.filterMap_append, List.filterMap_map, hreturn]
  generalize s.splitOn '\n' = pieces
  cases hlast : pieces.getLast? with
  | none =>
    rw [List.getLast?_eq_none_iff.mp hlast]
    rfl
  | some last =>
    have hpieces := List.dropLast_append_getLast? last hlast
    have hkept : ([last].filter (· ≠ [])).filterMap parameter? = [last].filterMap parameter? := by
      cases last with
      | nil => rfl
      | cons c rest => rw [List.filter_cons_of_pos (by simp), List.filter_nil]
    conv_rhs => rw [← hpieces]
    rw [Option.toList_some, hkept, List.filterMap_append]

theorem lookup_entries (text : String) (key : String) :
    (entries text.toList).lookup key = valuesOf (linesOf text) key := by
  rw [entries, filterMap_lines, valuesOf, linesOf]

/-- What is read depends on the values of the keys only. -/
theorem ofEntries_congr {es es' : Entries} (h : ∀ key, es.lookup key = es'.lookup key) :
    ofEntries es = ofEntries es' := by
  have hnumbers : numbers es = numbers es' := by
    funext key
    rw [numbers, numbers, h]
  have hfirst : first? es = first? es' := by
    funext key
    rw [first?, first?, h]
  have htype : elementType? es = elementType? es' := by
    rw [elementType?, elementType?, h]
  rw [ofEntries, ofEntries, hnumbers, hfirst, htype]

end Files

/-- The layout of a parameter file does not matter. If two files differ by any number of changes of their lines, the
same parameters are loaded from both, or both are refused with the same error. -/
theorem load_of_changed {t t' : FileTree} {path path' : Path} {text text' : String}
    (changes : Relation.EqvGen Changed (linesOf text) (linesOf text'))
    (h : t.readText path = .ok text) (h' : t'.readText path' = .ok text') :
    load t path = load t' path' := by
  have hlookup : ∀ key, (entries text.toList).lookup key = (entries text'.toList).lookup key := fun key => by
    rw [lookup_entries, lookup_entries, valuesOf_eq_of_changes changes]
  rw [load, load, h, h']
  exact ofEntries_congr hlookup

def transformLine : List Char := "(Transform \"TranslationTransform\")".toList

def offsetsLine : List Char := "(TransformParameters 1 2)".toList

def sizeLine : List Char := "(Size 3 4)".toList

def noteLine : List Char := "moved (by hand)".toList

def remarkedLine : List Char := "(TransformParameters 1 2) // mm".toList

def tidyText : String :=
  "(Transform \"TranslationTransform\")\n(TransformParameters 1 2)\n(Size 3 4)\n"

def untidyText : String :=
  "moved (by hand)\n( Size 3\t4)\n(TransformParameters 1 2) // mm\n(Transform \"TranslationTransform\")\n"

/-- The lines of the tidy file are put in the other order, a note and a remark are put in, and the white space in one
line is changed at two places. -/
theorem changes_untidy : Relation.EqvGen Changed (linesOf tidyText) (linesOf untidyText) := by
  have hmoved : Changed [transformLine, offsetsLine, sizeLine, []] [sizeLine, offsetsLine, transformLine, []] :=
    @Changed.order [] [transformLine, offsetsLine, sizeLine] [sizeLine, offsetsLine, transformLine] [[]]
      (by decide) (distinct_iff.mpr (by decide +kernel))
  have hnoted : Changed [sizeLine, offsetsLine, transformLine, []]
      [noteLine, sizeLine, offsetsLine, transformLine, []] :=
    @Changed.idle [] _ _ (by decide)
  have hremarked : Changed [noteLine, sizeLine, offsetsLine, transformLine, []]
      [noteLine, sizeLine, remarkedLine, transformLine, []] :=
    @Changed.comment [noteLine, sizeLine] _ offsetsLine " mm".toList (by decide)
  have hopened : Changed [noteLine, sizeLine, remarkedLine, transformLine, []]
      [noteLine, "( Size 3 4)".toList, remarkedLine, transformLine, []] :=
    @Changed.spaces [noteLine] _ _ _
      (@Respaced.start ['('] [] [' '] "Size 3 4)".toList (by decide) (by decide) (.inr rfl))
  have hspaced : Changed [noteLine, "( Size 3 4)".toList, remarkedLine, transformLine, []]
      [noteLine, "( Size 3\t4)".toList, remarkedLine, transformLine, []] :=
    @Changed.spaces [noteLine] _ _ _
      (@Respaced.between "( Size 3".toList [' '] ['\t'] "4)".toList (by decide) (by decide) (by decide) (by decide))
  have htidy : linesOf tidyText = [transformLine, offsetsLine, sizeLine, []] := by decide +kernel
  have huntidy : linesOf untidyText = [noteLine, "( Size 3\t4)".toList, remarkedLine, transformLine, []] := by
    decide +kernel
  rw [htidy, huntidy]
  exact .trans _ _ _ (.rel _ _ hmoved) (.trans _ _ _ (.rel _ _ hnoted) (.trans _ _ _ (.rel _ _ hremarked)
    (.trans _ _ _ (.rel _ _ hopened) (.rel _ _ hspaced))))

def parametersTree (text : String) : FileTree :=
  ⟨[(["p.txt"], .file (Utf8.ofString text) 0o644)], []⟩

theorem readText_parametersTree (text : String) : (parametersTree text).readText ⟨"p.txt"⟩ = .ok text := by
  have hread : (parametersTree text).read ⟨"p.txt"⟩ = .ok (Utf8.ofString text) := rfl
  have htext : Utf8.toString? (Utf8.ofString text) = some text := by
    rw [Utf8.toString?, Utf8.ofString, Utf8.decode?_encode, Option.map_some, String.ofList_toList]
  rw [FileTree.readText, hread]
  dsimp only
  rw [htext]

theorem load_of_changed_untidy :
    load (parametersTree tidyText) ⟨"p.txt"⟩ = load (parametersTree untidyText) ⟨"p.txt"⟩ ∧
    (load (parametersTree untidyText) ⟨"p.txt"⟩).toOption.map (fun p => (p.offsets, p.size)) =
      some ([1, 2], some [3, 4]) :=
  ⟨load_of_changed changes_untidy (readText_parametersTree tidyText) (readText_parametersTree untidyText),
    by decide +kernel⟩

end Assay.Displacement.Parameters
