import Mathlib.Data.List.Infix
import Mathlib.Data.List.Perm.Basic
import Assay.Comparison.Texts
import Assay.Proofs.Text.Encoded
import Assay.Proofs.Text.Trimmed

namespace Assay

open Text

namespace Comparison

section Exact

variable {check : String} {actual : Bytes} {expected : String}

theorem isPass_exactText : (exactText check actual expected).isPass = true ↔
    trim (Utf8.decodeLossy actual) = trim expected.toList := by
  rw [exactText]
  split_ifs with h
  · exact iff_of_true rfl (eq_of_beq h)
  · exact iff_of_false Bool.false_ne_true fun he => h (beq_iff_eq.mpr he)

/-- White space does not hide a replacement character. -/
theorem replacement_notMem {front core back : List Char} (hfront : Blanks front) (hback : Blanks back)
    (hcore : Utf8.replacement ∉ core) : Utf8.replacement ∉ front ++ core ++ back := by
  have hblank : isBlank Utf8.replacement = false := by decide
  rw [List.mem_append, List.mem_append, not_or, not_or]
  exact ⟨⟨hfront.notMem hblank, hcore⟩, hback.notMem hblank⟩

/-- An exact check accepts the encoding of the expected text with white space around it, and nothing else: where the
expected text has no replacement character, bytes that are not well formed are never accepted. -/
theorem exactText_exact (check : String) (actual : Bytes) {expected : String}
    (h : Utf8.replacement ∉ trim expected.toList) :
    ((exactText check actual expected).isPass = true ↔
      ∃ front back, Blanks front ∧ Blanks back ∧
        actual = Utf8.encode (front ++ trim expected.toList ++ back)) ∧
    ((¬∃ text, actual = Utf8.encode text) → (exactText check actual expected).isPass = false) := by
  have hiff : (exactText check actual expected).isPass = true ↔
      ∃ front back, Blanks front ∧ Blanks back ∧
        actual = Utf8.encode (front ++ trim expected.toList ++ back) := by
    rw [isPass_exactText, trim_eq_iff (isTrimmed_trim _)]
    refine exists₂_congr fun front back => and_congr_right fun hfront => and_congr_right fun hback => ?_
    exact Utf8.decodeLossy_eq_iff (replacement_notMem hfront hback h)
  refine ⟨hiff, fun hmalformed => Bool.eq_false_iff.mpr fun hpass => ?_⟩
  obtain ⟨front, back, -, -, heq⟩ := hiff.mp hpass
  exact hmalformed ⟨_, heq⟩

/-- An ideographic space and a line feed may stand around a text, but a form of its letter that is too long is no
text. -/
theorem exactText_exact_spaced :
    (∃ front back, Blanks front ∧ Blanks back ∧
      [0xE3, 0x80, 0x80, 0xC3, 0xA9, 0x0A] = Utf8.encode (front ++ trim " é ".toList ++ back)) ∧
    (exactText "stdout" [0xE0, 0x83, 0xA9] " é ").isPass = false := by
  have h : Utf8.replacement ∉ trim " é ".toList := by decide
  refine ⟨(exactText_exact "stdout" [0xE3, 0x80, 0x80, 0xC3, 0xA9, 0x0A] h).1.mp (by decide +kernel), ?_⟩
  refine (exactText_exact "stdout" [0xE0, 0x83, 0xA9] h).2 ?_
  rintro ⟨text, htext⟩
  have hread := Utf8.decode?_eq_some_iff.mpr htext
  have hnone : Utf8.decode? [0xE0, 0x83, 0xA9] = none := by decide
  rw [hnone] at hread
  cases hread

end Exact

section Contained

variable {check : String} {actual : Bytes} {text : List Char} {needles : List String}

theorem infix_iff_split {needle text : List Char} :
    needle <:+: text ↔ ∃ front back, text = front ++ needle ++ back :=
  exists₂_congr fun _ _ => eq_comm

theorem occursIn_eq (needle text : List Char) : occursIn needle text = decide (needle <:+: text) := by
  rw [Bool.eq_iff_iff, occursIn_iff, decide_eq_true_eq, infix_iff_split]

theorem missing_eq (text : List Char) (needles : List String) :
    missing text needles = needles.filter fun needle => !decide (needle.toList <:+: text) := by
  simp only [missing, occursIn_eq]

theorem missing_eq_nil : missing text needles = [] ↔ ∀ needle ∈ needles, needle.toList <:+: text := by
  simp [missing_eq, List.filter_eq_nil_iff]

def missingText (absent : List String) (text : List Char) : String :=
  "missing " ++ bracketed (absent.map quoted) ++ " in '" ++ String.ofList (excerpt (trim text)) ++ "'"

theorem eq_fail_containsAll {m : Mismatch} (h : containsAll check actual needles = .fail m) :
    m = ⟨check, missingText (missing (Utf8.decodeLossy actual) needles) (Utf8.decodeLossy actual)⟩ := by
  rw [containsAll] at h
  split_ifs at h
  cases h
  rfl

/-- Trimming leaves a part of a text. -/
theorem trim_infix (s : List Char) : trim s <:+: s := by
  obtain ⟨front, back, -, -, heq⟩ := exists_blanks_trim s
  exact ⟨front, back, heq.symm⟩

end Contained

end Comparison

namespace StreamExpectation

open Comparison

variable {stream : String} {actual : Bytes}

theorem isPass_containsAll {needles : List String} :
    ((containsAll needles).check stream actual).isPass = true ↔
      ∀ needle ∈ needles, needle.toList <:+: Utf8.decodeLossy actual := by
  rw [← missing_eq_nil, check, Comparison.containsAll]
  split_ifs with h
  · exact iff_of_true rfl (List.isEmpty_iff.mp h)
  · exact iff_of_false Bool.false_ne_true fun he => h (List.isEmpty_iff.mpr he)

/-- A check of contained texts is a conjunction without an order. It accepts when the text that is read leniently
splits around every needle, so that only the set of the needles counts, and needles in two lists are checked one list
after the other; one needle is checked as a list of one. What a rejection lists are the needles around which the text
does not split, as they are given. And what an exact check accepts contains the text that it expects. -/
theorem containment_exact (stream : String) (actual : Bytes) (needles : List String) :
    (((containsAll needles).check stream actual).isPass = true ↔
      ∀ needle ∈ needles, ∃ front back, Utf8.decodeLossy actual = front ++ needle.toList ++ back) ∧
    (∀ others : List String, (∀ needle, needle ∈ others ↔ needle ∈ needles) →
      ((containsAll others).check stream actual).isPass = ((containsAll needles).check stream actual).isPass) ∧
    (∀ more : List String, ((containsAll (needles ++ more)).check stream actual).isPass = true ↔
      ((containsAll needles).check stream actual).isPass = true ∧
        ((containsAll more).check stream actual).isPass = true) ∧
    (∀ needle : String, (contains needle).check stream actual = (containsAll [needle]).check stream actual) ∧
    (∀ m, (containsAll needles).check stream actual = .fail m →
      m = ⟨stream, missingText
        (needles.filter fun needle => !decide (needle.toList <:+: Utf8.decodeLossy actual))
        (Utf8.decodeLossy actual)⟩) ∧
    (∀ text : String, ((exact text).check stream actual).isPass = true →
      ((contains (trimmed text)).check stream actual).isPass = true) := by
  refine ⟨?_, ?_, ?_, fun _ => rfl, ?_, ?_⟩
  · rw [isPass_containsAll]
    exact forall₂_congr fun needle _ => infix_iff_split
  · intro others hsame
    rw [Bool.eq_iff_iff, isPass_containsAll, isPass_containsAll]
    exact forall_congr' fun needle => by rw [hsame]
  · intro more
    rw [isPass_containsAll, isPass_containsAll, isPass_containsAll, List.forall_mem_append]
  · intro m hreject
    rw [← missing_eq]
    exact eq_fail_containsAll hreject
  · intro text hpass
    have htrim : trim (Utf8.decodeLossy actual) = trim text.toList := isPass_exactText.mp hpass
    refine isPass_containsAll.mpr (List.forall_mem_singleton.mpr ?_)
    rw [trimmed, String.toList_ofList, ← htrim]
    exact trim_infix _

/-- A needle is found behind a start of it that leads nowhere, and one that is missing twice is told twice. -/
theorem containment_exact_overlapping :
    (∀ needle ∈ ["aab", "ab"], ∃ front back,
      Utf8.decodeLossy (Utf8.ofString " aaab\n") = front ++ needle.toList ++ back) ∧
    ((containsAll ["ab", "aab", "ab"]).check "stdout" (Utf8.ofString " aaab\n")).isPass =
      ((containsAll ["aab", "ab"]).check "stdout" (Utf8.ofString " aaab\n")).isPass ∧
    ((contains (trimmed "aaab ")).check "stdout" (Utf8.ofString " aaab\n")).isPass = true ∧
    "missing [\"ba\", \"ba\"] in 'aaab'" = missingText
      (["ba", "aab", "ba"].filter fun needle =>
        !decide (needle.toList <:+: Utf8.decodeLossy (Utf8.ofString " aaab\n")))
      (Utf8.decodeLossy (Utf8.ofString " aaab\n")) := by
  obtain ⟨hsplit, hsame, -, -, -, hexact⟩ :=
    containment_exact "stdout" (Utf8.ofString " aaab\n") ["aab", "ab"]
  obtain ⟨-, -, -, -, hlisted, -⟩ :=
    containment_exact "stdout" (Utf8.ofString " aaab\n") ["ba", "aab", "ba"]
  have hreject : (containsAll ["ba", "aab", "ba"]).check "stdout" (Utf8.ofString " aaab\n") =
      .fail ⟨"stdout", "missing [\"ba\", \"ba\"] in 'aaab'"⟩ := by
    decide +kernel
  refine ⟨hsplit.mp (by decide +kernel), hsame ["ab", "aab", "ab"] (fun needle => ?_),
    hexact "aaab " (by decide +kernel), congrArg Mismatch.detail (hlisted _ hreject)⟩
  simp only [List.mem_cons, List.not_mem_nil, or_false]
  tauto

end StreamExpectation

end Assay
