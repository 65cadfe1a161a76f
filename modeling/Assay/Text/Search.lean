import Assay.Text.Blank

namespace Assay.Text

/-- Whether the needle occurs somewhere in the text. -/
def occursIn (needle : List Char) : List Char → Bool
  | [] => needle.isEmpty
  | c :: rest => needle.isPrefixOf (c :: rest) || occursIn needle rest

def contains (text needle : String) : Bool :=
  occursIn needle.toList text.toList

/-- Replaces the occurrences of a pattern that do not overlap, found from left to right. The counter
says how many characters still belong to the occurrence that was replaced last. -/
def replaceFrom (pattern replacement : List Char) : Nat → List Char → List Char
  | _, [] => []
  | skip + 1, _ :: rest => replaceFrom pattern replacement skip rest
  | 0, c :: rest =>
    if pattern.isPrefixOf (c :: rest) then
      replacement ++ replaceFrom pattern replacement (pattern.length - 1) rest
    else c :: replaceFrom pattern replacement 0 rest

/-- Replaces every occurrence of a pattern that is not empty. -/
def replaceAll (pattern replacement text : List Char) : List Char :=
  replaceFrom pattern replacement 0 text

def cutAt (mark : Char) : List Char → Option (List Char × List Char)
  | [] => none
  | c :: rest =>
    if c = mark then some ([], rest)
    else (cutAt mark rest).map fun parts => (c :: parts.1, parts.2)

/-- The text in front of the first occurrence of a mark, or all of it. -/
def before (mark : List Char) : List Char → List Char
  | [] => []
  | c :: rest => if mark.isPrefixOf (c :: rest) then [] else c :: before mark rest

/-- The text without a character repeated at its two ends. -/
def trimChar (mark : Char) (s : List Char) : List Char :=
  ((s.dropWhile (· = mark)).reverse.dropWhile (· = mark)).reverse

def lowerAscii (s : List Char) : List Char :=
  s.map Char.toLower

def sameLetters (a b : String) : Bool :=
  lowerAscii a.toList == lowerAscii b.toList

def excerptLimit : Nat := 200

def excerpt (s : List Char) : List Char :=
  if excerptLimit < s.length then s.take excerptLimit ++ "...".toList else s

example : occursIn "aab".toList "aaab".toList = true := by decide
example : replaceAll "aa".toList "b".toList "aaa".toList = "ba".toList := by decide

/-- A needle occurs in a text exactly when the text splits around it. -/
theorem occursIn_iff {needle text : List Char} :
    occursIn needle text = true ↔ ∃ front back, text = front ++ needle ++ back := by
  induction text with
  | nil =>
    constructor
    · intro h
      have hn : needle = [] := by simpa [occursIn] using h
      exact ⟨[], [], by simp [hn]⟩
    · rintro ⟨front, back, h⟩
      have h' := congrArg List.length h
      simp only [List.length_nil, List.length_append] at h'
      have hn : needle = [] := List.length_eq_zero_iff.mp (by omega)
      simp [occursIn, hn]
  | cons c rest ih =>
    constructor
    · intro h
      simp only [occursIn, Bool.or_eq_true] at h
      cases h with
      | inl hp =>
        obtain ⟨back, hb⟩ := List.isPrefixOf_iff_prefix.mp hp
        exact ⟨[], back, by simp [hb]⟩
      | inr hr =>
        obtain ⟨front, back, hb⟩ := ih.mp hr
        exact ⟨c :: front, back, by simp [hb]⟩
    · rintro ⟨front, back, h⟩
      simp only [occursIn, Bool.or_eq_true]
      cases front with
      | nil => exact .inl (List.isPrefixOf_iff_prefix.mpr ⟨back, by simpa using h.symm⟩)
      | cons d front =>
        simp only [List.cons_append, List.cons.injEq] at h
        exact .inr (ih.mpr ⟨front, back, h.2⟩)

end Assay.Text
