import Mathlib.Data.List.Infix
import Assay.Text.Search

namespace Assay.Text

abbrev Dictionary := List (List Char × List Char)

def Dictionary.entryAt? (d : Dictionary) (s : List Char) : Option (List Char × List Char) :=
  d.find? fun entry => entry.1.isPrefixOf s

/-- Scans a text once: a pattern becomes the text that stands for it, and every other character is
copied. The counter says how many characters still belong to the pattern that was found last. -/
def substituteFrom (d : Dictionary) : Nat → List Char → List Char
  | _, [] => []
  | skip + 1, _ :: rest => substituteFrom d skip rest
  | 0, c :: rest =>
    match d.entryAt? (c :: rest) with
    | some (pattern, text) => text ++ substituteFrom d (pattern.length - 1) rest
    | none => c :: substituteFrom d 0 rest

def substitute (d : Dictionary) (s : List Char) : List Char :=
  substituteFrom d 0 s

section Scan

variable {d : Dictionary} {entry : List Char × List Char} {pattern text : List Char}

theorem mem_of_entryAt {s : List Char} (h : d.entryAt? s = some entry) : entry ∈ d ∧ entry.1 <+: s := by
  rw [Dictionary.entryAt?] at h
  have hstart := List.find?_some h
  exact ⟨List.mem_of_find?_eq_some h, List.isPrefixOf_iff_prefix.mp hstart⟩

theorem entryAt?_eq_none {s : List Char} : d.entryAt? s = none ↔ ∀ e ∈ d, ¬e.1 <+: s := by
  simp only [Dictionary.entryAt?, List.find?_eq_none, List.isPrefixOf_iff_prefix]

theorem substituteFrom_eq (d : Dictionary) (skip : Nat) (s : List Char) :
    substituteFrom d skip s = substitute d (s.drop skip) := by
  induction s generalizing skip with
  | nil => rw [List.drop_nil, substitute, substituteFrom, substituteFrom]
  | cons c rest ih =>
    cases skip with
    | zero => rfl
    | succ skip => rw [substituteFrom, ih, List.drop_succ_cons]

@[simp] theorem substitute_nil (d : Dictionary) : substitute d [] = [] := by
  rw [substitute, substituteFrom]

theorem substitute_pattern {rest : List Char} (hne : entry.1 ≠ [])
    (h : d.entryAt? (entry.1 ++ rest) = some entry) :
    substitute d (entry.1 ++ rest) = entry.2 ++ substitute d rest := by
  obtain ⟨pattern, text⟩ := entry
  cases pattern with
  | nil => exact absurd rfl hne
  | cons c others =>
    simp only [List.cons_append] at h
    rw [substitute, List.cons_append, substituteFrom, h]
    dsimp only
    rw [substituteFrom_eq, List.length_cons, Nat.add_sub_cancel, List.drop_left]

theorem substitute_copy {c : Char} {rest : List Char} (h : d.entryAt? (c :: rest) = none) :
    substitute d (c :: rest) = c :: substitute d rest := by
  rw [substitute, substituteFrom, h, ← substitute]

theorem substitute_empty (s : List Char) : substitute [] s = s := by
  induction s with
  | nil => exact substitute_nil []
  | cons c rest ih => rw [@substitute_copy [] c rest rfl, ih]

/-- Replacing one pattern is a substitution with one entry. -/
theorem replaceAll_eq (pattern text s : List Char) :
    replaceAll pattern text s = substitute [(pattern, text)] s := by
  have hfrom : ∀ skip, replaceFrom pattern text skip s = substituteFrom [(pattern, text)] skip s := by
    induction s with
    | nil => intro skip; rw [replaceFrom, substituteFrom]
    | cons c rest ih =>
      intro skip
      cases skip with
      | succ skip => rw [replaceFrom, substituteFrom, ih]
      | zero =>
        rw [replaceFrom, substituteFrom, Dictionary.entryAt?, List.find?_cons]
        cases pattern.isPrefixOf (c :: rest) with
        | true => simp only [if_true, ih]
        | false => simp only [Bool.false_eq_true, if_false, List.find?_nil, ih]
  exact hfrom 0

end Scan

section Patterns

/-- A pattern between braces, with none inside. -/
def Delimited (pattern : List Char) : Prop :=
  ∃ name, pattern = '\x7b' :: name ++ ['\x7d'] ∧ '\x7b' ∉ name ∧ '\x7d' ∉ name

/-- A text into which no occurrence of a pattern can reach, wherever the text is inserted. -/
def Inert (pattern text : List Char) : Prop :=
  ∀ front back before after, front ++ text ++ back = before ++ pattern ++ after →
    (before ++ pattern).length ≤ front.length ∨ (front ++ text).length ≤ before.length

variable {d : Dictionary} {pattern other text : List Char}

theorem Delimited.ne_nil (h : Delimited pattern) : pattern ≠ [] := by
  obtain ⟨name, rfl, _⟩ := h
  simp

/-- No pattern reaches into a text without braces, unless the text is a part of the pattern. -/
theorem inert_of_plain (hp : Delimited pattern) (hopen : '\x7b' ∉ text) (hclose : '\x7d' ∉ text)
    (hpart : ¬text <:+: pattern) : Inert pattern text := by
  intro front back before after he
  by_contra hreach
  rw [not_or, Nat.not_le, Nat.not_le, List.length_append, List.length_append] at hreach
  obtain ⟨hend, hstart⟩ := hreach
  obtain ⟨name, rfl, -⟩ := hp
  rw [List.append_assoc, List.append_assoc] at he
  rcases List.append_eq_append_iff.mp he with ⟨inside, rfl, hsame⟩ | ⟨outside, rfl, hsame⟩
  · -- the pattern would start in the text
    have hle : (inside ++ ['\x7b']).length ≤ text.length := by
      simp only [List.length_append, List.length_singleton] at hstart ⊢
      omega
    have hprefix : inside ++ ['\x7b'] <+: text ++ back :=
      ⟨name ++ ['\x7d'] ++ after, by rw [hsame]; simp⟩
    have hpart := List.prefix_of_prefix_length_le hprefix (List.prefix_append _ _) hle
    exact hopen (hpart.subset (by simp))
  · have hwhole : outside ++ text <+: '\x7b' :: name ++ ['\x7d'] ++ after :=
      ⟨back, by rw [hsame, List.append_assoc]⟩
    rcases Nat.le_total (outside ++ text).length ('\x7b' :: name ++ ['\x7d']).length with hle | hle
    · obtain ⟨rest, hrest⟩ := List.prefix_of_prefix_length_le hwhole (List.prefix_append _ _) hle
      exact hpart ⟨outside, rest, hrest⟩
    · -- the pattern would end in the text
      obtain ⟨rest, hrest⟩ := List.prefix_of_prefix_length_le (List.prefix_append _ _) hwhole hle
      have hshort : outside.length ≤ ('\x7b' :: name).length := by
        simp only [List.length_append, List.length_cons, List.length_nil] at hend ⊢
        omega
      rw [List.append_assoc] at hrest
      obtain ⟨part, hpart'⟩ := List.prefix_of_prefix_length_le (List.prefix_append outside text)
        ⟨_, hrest⟩ hshort
      rw [← hpart', List.append_assoc, List.append_cancel_left_eq] at hrest
      exact hclose (by rw [← hrest]; simp)

/-- Characters at which no pattern starts are copied. -/
theorem substitute_append (hd : ∀ e ∈ d, Delimited e.1) {front : List Char} (h : '\x7b' ∉ front)
    (back : List Char) : substitute d (front ++ back) = front ++ substitute d back := by
  induction front with
  | nil => rfl
  | cons c rest ih =>
    have hnone : d.entryAt? (c :: (rest ++ back)) = none := by
      rw [entryAt?_eq_none]
      intro e he hp
      obtain ⟨name, hname, -⟩ := hd e he
      rw [hname, List.cons_append, List.cons_prefix_cons] at hp
      exact h (hp.1 ▸ List.mem_cons_self)
    rw [List.cons_append, substitute_copy hnone, ih fun hm => h (List.mem_cons_of_mem c hm),
      List.cons_append]

/-- A pattern that is not in the dictionary is copied. -/
theorem substitute_other (hd : ∀ e ∈ d, Delimited e.1) (hp : Delimited pattern) {rest : List Char}
    (hnone : d.entryAt? (pattern ++ rest) = none) :
    substitute d (pattern ++ rest) = pattern ++ substitute d rest := by
  obtain ⟨name, rfl, hopen, -⟩ := hp
  have hinside : '\x7b' ∉ name ++ ['\x7d'] := by
    rw [List.mem_append, not_or]
    exact ⟨hopen, by decide⟩
  rw [List.cons_append, List.cons_append] at hnone ⊢
  rw [substitute_copy hnone, substitute_append hd hinside]
  rfl

/-- What a scan has copied when it finds the next pattern, or the end of the text. -/
theorem copied_part (d : Dictionary) (s : List Char) :
    ∃ front back, s = front ++ back ∧ substitute d s = front ++ substitute d back ∧
      (back = [] ∨ ∃ e, d.entryAt? back = some e) := by
  induction s with
  | nil => exact ⟨[], [], rfl, rfl, .inl rfl⟩
  | cons c rest ih =>
    cases he : d.entryAt? (c :: rest) with
    | some e => exact ⟨[], c :: rest, rfl, rfl, .inr ⟨e, he⟩⟩
    | none =>
      obtain ⟨front, back, hs, hcopied, hend⟩ := ih
      refine ⟨c :: front, back, by rw [hs, List.cons_append], ?_, hend⟩
      rw [substitute_copy he, hcopied, List.cons_append]

/-- No occurrence of a pattern starts in a text into which it cannot reach. -/
theorem substitute_inert (hp : pattern ≠ []) (hi : Inert pattern text) (replacement back : List Char) :
    substitute [(pattern, replacement)] (text ++ back) =
      text ++ substitute [(pattern, replacement)] back := by
  have hsuffix : ∀ front rest, text = front ++ rest →
      substitute [(pattern, replacement)] (rest ++ back) =
        rest ++ substitute [(pattern, replacement)] back := by
    intro front rest hsplit
    induction rest generalizing front with
    | nil => rfl
    | cons c rest ih =>
      have hnone : Dictionary.entryAt? [(pattern, replacement)] (c :: (rest ++ back)) = none := by
        rw [entryAt?_eq_none]
        intro e he hstart
        rw [List.mem_singleton.mp he] at hstart
        obtain ⟨after, hafter⟩ := hstart
        have hreach := hi [] back front after (by simp [hsplit, ← hafter])
        simp only [hsplit, List.length_append, List.length_nil, List.length_cons,
          List.nil_append] at hreach
        have hpos := List.length_pos_iff.mpr hp
        omega
      rw [List.cons_append, substitute_copy hnone, ih (front ++ [c]) (by simp [hsplit]),
        List.cons_append]
  exact hsuffix [] text rfl

/-- A pattern that starts a text after a substitution has started it before. -/
theorem prefix_of_substitute (hd : ∀ e ∈ d, Delimited e.1 ∧ Inert pattern e.2) {s : List Char}
    (hp : pattern <+: substitute d s) (hnone : d.entryAt? s = none) : pattern <+: s := by
  obtain ⟨front, back, rfl, hcopied, hend⟩ := copied_part d s
  rw [hcopied] at hp
  rcases hend with rfl | ⟨e, he⟩
  · simpa using hp
  · -- the pattern cannot reach into the text that was inserted behind the copied part
    obtain ⟨hm, rest, hrest⟩ := mem_of_entryAt he
    obtain ⟨hdelimited, hinert⟩ := hd e hm
    obtain ⟨after, hafter⟩ := hp
    have hback : substitute d back = e.2 ++ substitute d rest := by
      rw [← hrest] at he ⊢
      exact substitute_pattern hdelimited.ne_nil he
    rw [hback, ← List.append_assoc] at hafter
    rcases hinert front _ [] after (by simpa using hafter.symm) with hle | hle
    · have hprefix : pattern <+: front ++ (e.2 ++ substitute d rest) :=
        ⟨after, by rw [hafter, List.append_assoc]⟩
      exact (List.prefix_of_prefix_length_le hprefix (List.prefix_append _ _) hle).trans
        (List.prefix_append _ _)
    · have hempty : front = [] := by
        rw [List.length_append, List.length_nil] at hle
        exact List.length_eq_zero_iff.mp (by omega)
      rw [hempty, List.nil_append, he] at hnone
      cases hnone

/-- Replacing one more pattern afterwards is the same as looking for it in the same scan, when it cannot
reach into the texts that were inserted. -/
theorem substitute_substitute (hd : ∀ e ∈ d, Delimited e.1 ∧ Inert pattern e.2)
    (hp : Delimited pattern) (replacement s : List Char) :
    substitute [(pattern, replacement)] (substitute d s) =
      substitute (d ++ [(pattern, replacement)]) s := by
  have hdelimited : ∀ e ∈ d, Delimited e.1 := fun e he => (hd e he).1
  have hone : ∀ s, Dictionary.entryAt? [(pattern, replacement)] s =
      if pattern <+: s then some (pattern, replacement) else none := by
    intro s
    rw [Dictionary.entryAt?, List.find?_singleton]
    simp only [List.isPrefixOf_iff_prefix]
  have hboth : ∀ s, Dictionary.entryAt? (d ++ [(pattern, replacement)]) s =
      (d.entryAt? s).or (Dictionary.entryAt? [(pattern, replacement)] s) := fun s =>
    List.find?_append
  induction hn : s.length using Nat.strongRecOn generalizing s with
  | ind n ih =>
    cases he : d.entryAt? s with
    | some e =>
      -- a text is inserted, and the later pattern is not looked for in it
      obtain ⟨hm, rest, rfl⟩ := mem_of_entryAt he
      have hpos := List.length_pos_iff.mpr (hdelimited e hm).ne_nil
      have hlater : Dictionary.entryAt? (d ++ [(pattern, replacement)]) (e.1 ++ rest) = some e := by
        rw [hboth, he, Option.some_or]
      rw [substitute_pattern (hdelimited e hm).ne_nil he,
        substitute_inert hp.ne_nil (hd e hm).2, substitute_pattern (hdelimited e hm).ne_nil hlater,
        ih rest.length (by rw [← hn, List.length_append]; omega) rest rfl]
    | none =>
      by_cases hstart : pattern <+: s
      · -- the pattern is copied by the first scan and found by the second
        obtain ⟨rest, rfl⟩ := hstart
        have hpos := List.length_pos_iff.mpr hp.ne_nil
        have hfound : ∀ back, Dictionary.entryAt? [(pattern, replacement)] (pattern ++ back) =
            some (pattern, replacement) := fun back => by
          rw [hone, if_pos (List.prefix_append _ _)]
        have hlater : Dictionary.entryAt? (d ++ [(pattern, replacement)]) (pattern ++ rest) =
            some (pattern, replacement) := by
          rw [hboth, he, Option.none_or, hfound]
        rw [substitute_other hdelimited hp he,
          @substitute_pattern _ (pattern, replacement) _ hp.ne_nil (hfound _),
          @substitute_pattern _ (pattern, replacement) _ hp.ne_nil hlater,
          ih rest.length (by rw [← hn, List.length_append]; omega) rest rfl]
      · cases s with
        | nil => rw [substitute_nil, substitute_nil, substitute_nil]
        | cons c rest =>
          have hlater : Dictionary.entryAt? (d ++ [(pattern, replacement)]) (c :: rest) = none := by
            rw [hboth, he, Option.none_or, hone, if_neg hstart]
          have hnone : Dictionary.entryAt? [(pattern, replacement)] (c :: substitute d rest) = none := by
            rw [hone, if_neg]
            rw [← substitute_copy he]
            exact fun hprefix => hstart (prefix_of_substitute hd hprefix he)
          rw [substitute_copy he, substitute_copy hnone, substitute_copy hlater,
            ih rest.length (by rw [← hn, List.length_cons]; omega) rest rfl]

/-- Replacing the patterns one after another is one scan for all of them, when no later pattern can reach
into an earlier text. -/
theorem foldl_replaceAll {d : Dictionary} (hd : ∀ e ∈ d, Delimited e.1)
    (hi : d.Pairwise fun earlier later => Inert later.1 earlier.2) (s : List Char) :
    d.foldl (fun text e => replaceAll e.1 e.2 text) s = substitute d s := by
  induction d using List.reverseRecOn with
  | nil => exact (substitute_empty s).symm
  | append_singleton d e ih =>
    obtain ⟨hbefore, -, hlast⟩ := List.pairwise_append.mp hi
    have hone : e ∈ [e] := List.mem_singleton_self e
    have hkept : ∀ earlier ∈ d, Delimited earlier.1 ∧ Inert e.1 earlier.2 := fun earlier hm =>
      ⟨hd earlier (List.mem_append_left _ hm), hlast earlier hm e hone⟩
    rw [List.foldl_append, List.foldl_cons, List.foldl_nil,
      ih (fun earlier hm => (hkept earlier hm).1) hbefore, replaceAll_eq,
      substitute_substitute hkept (hd e (List.mem_append_right _ hone))]

end Patterns

end Assay.Text
