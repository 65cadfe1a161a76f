import Mathlib.Data.List.Forall2
import Assay.Proofs.Decimal.Text
import Assay.Proofs.Displacement.Accesses
import Assay.Proofs.Text.Spacing

namespace Assay.Displacement

open Text (IsLine IsWord Spaced complete lines words)

section Reading

variable {axes : Nat} {ws tokens : List (List Char)} {points : PointList} {xs : List Float}

/-- The words in front of the number of points, and whether the coordinates then count pixels. -/
inductive Heading : List (List Char) → Bool → Prop
  | none : Heading [] false
  | point : Heading [PointList.pointWord] false
  | index : Heading [PointList.indexWord] true

/-- The words of a file of points with a number of axes. -/
inductive PointFile (axes : Nat) : List (List Char) → PointList → Prop
  | mk {heading tokens : List (List Char)} {word : List Char} {areIndices : Bool} {count : Nat} {xs : List Float}
    (hheading : Heading heading areIndices) (hcount : Decimal.size? word = some count)
    (hcoordinates : List.Forall₂ (fun token x => Decimal.real? token = some x) tokens xs)
    (hlength : tokens.length = count * axes) :
    PointFile axes (heading ++ word :: tokens) ⟨areIndices, count, xs⟩

theorem PointFile.length_coordinates (h : PointFile axes ws points) :
    points.coordinates.length = points.count * axes := by
  obtain ⟨-, -, hcoordinates, hlength⟩ := h
  exact hcoordinates.length_eq.symm.trans hlength

theorem coordinates?_eq_ok :
    PointList.coordinates? tokens = .ok xs ↔
      List.Forall₂ (fun token x => Decimal.real? token = some x) tokens xs := by
  rw [PointList.coordinates?, mapM_eq_ok]
  constructor
  · refine List.Forall₂.imp fun token x hread => ?_
    cases hx : Decimal.real? token with
    | none => simp [hx] at hread
    | some y => simpa [hx] using hread
  · refine List.Forall₂.imp fun token x hread => ?_
    rw [hread]

/-- The head of the words of a point file, when the first of the others is no word for what is counted. -/
theorem head_append {heading : List (List Char)} {areIndices : Bool} {word : List Char}
    (h : Heading heading areIndices) (hword : ¬(word = PointList.indexWord ∨ word = PointList.pointWord)) :
    PointList.head (heading ++ word :: tokens) = .ok ((areIndices, word), tokens) := by
  cases h with
  | none => exact if_neg hword
  | point => rfl
  | index => rfl

theorem exists_heading {areIndices : Bool} {word : List Char}
    (h : PointList.head ws = .ok ((areIndices, word), tokens)) :
    ∃ heading, Heading heading areIndices ∧ ws = heading ++ word :: tokens := by
  rcases ws with _ | ⟨first, rest⟩
  · cases h
  simp only [PointList.head] at h
  split_ifs at h with hfirst
  · rcases rest with _ | ⟨count, rest⟩
    · cases h
    cases h
    rcases hfirst with rfl | rfl
    · exact ⟨_, .index, rfl⟩
    · exact ⟨_, .point, rfl⟩
  · cases h
    exact ⟨_, .none, rfl⟩

/-- The words of a point file are read, and no others. -/
theorem ofTokens_eq_ok : PointList.ofTokens axes ws = .ok points ↔ PointFile axes ws points := by
  constructor
  · intro h
    rw [PointList.ofTokens] at h
    cases hhead : PointList.head ws with
    | error r => simp [hhead] at h
    | ok parts =>
      obtain ⟨⟨areIndices, word⟩, tokens⟩ := parts
      obtain ⟨heading, hheading, rfl⟩ := exists_heading hhead
      rw [hhead] at h
      cases hcount : Decimal.size? word with
      | none => simp [hcount] at h
      | some count =>
        cases hcoordinates : PointList.coordinates? tokens with
        | error r => simp [hcount, hcoordinates] at h
        | ok xs =>
          simp only [hcount, hcoordinates] at h
          split_ifs at h with hlength
          cases h
          have hread := coordinates?_eq_ok.mp hcoordinates
          exact .mk hheading hcount hread (hread.length_eq.trans (not_not.mp hlength))
  · rintro @⟨heading, tokens, word, areIndices, count, xs, hheading, hcount, hcoordinates, hlength⟩
    have hword : ¬(word = PointList.indexWord ∨ word = PointList.pointWord) := by
      -- a word for what is counted is no number
      rintro (rfl | rfl) <;> cases hcount
    have hmany : xs.length = count * axes := hcoordinates.length_eq.symm.trans hlength
    rw [PointList.ofTokens, head_append hheading hword]
    simp only [hcount, coordinates?_eq_ok.mpr hcoordinates, hmany, ne_eq, not_true_eq_false, if_false]

end Reading

section Lines

variable {g : Grid} {m : MovedPoint} {offsets : List Float} {points : PointList}

/-- What the line for a point tells behind its number. -/
def MovedPoint.report (g : Grid) (m : MovedPoint) : String :=
  "; InputIndex = " ++ integersText (g.indexOf m.input) ++
    "\t; InputPoint = " ++ realsText m.input ++
    "\t; OutputIndexFixed = " ++ integersText (g.indexOf m.output) ++
    "\t; OutputPoint = " ++ realsText m.output ++
    "\t; Deformation = " ++ realsText m.deformation

def label (n : Nat) : List Char :=
  ("Point\t" ++ toString n ++ "\t").toList

theorem line_eq (g : Grid) (m : MovedPoint) (n : Nat) :
    m.line g n = "Point\t" ++ toString n ++ "\t" ++ m.report g ++ "\n" := by
  have hfirst : ∀ rest : String, "\t" ++ ("; InputIndex = " ++ rest) = "\t; InputIndex = " ++ rest := by
    intro rest
    rw [← String.append_assoc]
    congr
  have hstring : ∀ s : String, toString s = s := fun _ => rfl
  unfold MovedPoint.line MovedPoint.report
  simp only [String.append_assoc, hfirst, hstring]

theorem toList_line (g : Grid) (m : MovedPoint) (n : Nat) :
    (m.line g n).toList = label n ++ (m.report g).toList ++ ['\n'] := by
  have hend : "\n".toList = ['\n'] := by decide
  simp only [line_eq, label, String.toList_append, hend]

/-- A text without a line feed. -/
def Unbroken (s : String) : Prop :=
  '\n' ∉ s.toList

instance (s : String) : Decidable (Unbroken s) :=
  inferInstanceAs (Decidable ('\n' ∉ s.toList))

theorem Unbroken.append {s t : String} (hs : Unbroken s) (ht : Unbroken t) : Unbroken (s ++ t) := by
  rw [Unbroken, String.toList_append, List.mem_append, not_or]
  exact ⟨hs, ht⟩

theorem unbroken_of_isWord {s : String} (h : IsWord s.toList) : Unbroken s :=
  fun hm => absurd (h.unbroken _ hm) (by decide)

theorem unbroken_spaced {ws : List String} (h : ∀ w ∈ ws, IsWord w.toList) : Unbroken (spaced ws) := by
  have hwords : Unbroken (String.intercalate " " ws) := by
    rw [Unbroken, String.toList_intercalate]
    apply Text.not_mem_intercalate
    simpa using h
  exact (Unbroken.append (s := "[ ") (by decide) hwords).append (by decide)

theorem unbroken_integersText (ns : List Int) : Unbroken (integersText ns) := by
  apply unbroken_spaced
  intro w hw
  obtain ⟨n, -, rfl⟩ := List.mem_map.mp hw
  rw [String.toList_ofList]
  exact Decimal.isWord_integer n

theorem unbroken_realsText (xs : List Float) : Unbroken (realsText xs) := by
  apply unbroken_spaced
  intro w hw
  obtain ⟨x, -, rfl⟩ := List.mem_map.mp hw
  exact Decimal.isWord_plain x

theorem unbroken_report (g : Grid) (m : MovedPoint) : Unbroken (m.report g) := by
  have hname : ∀ name ∈ ["; InputIndex = ", "\t; InputPoint = ", "\t; OutputIndexFixed = ",
      "\t; OutputPoint = ", "\t; Deformation = "], Unbroken name := by
    decide
  simp only [List.forall_mem_cons] at hname
  obtain ⟨h1, h2, h3, h4, h5, -⟩ := hname
  have hinput := unbroken_integersText (g.indexOf m.input)
  have houtput := unbroken_integersText (g.indexOf m.output)
  exact (((((((((h1.append hinput).append h2).append (unbroken_realsText _)).append h3).append houtput).append
    h4).append (unbroken_realsText _)).append h5).append (unbroken_realsText _))

theorem getLast?_append_spaced (front : String) (ws : List String) :
    (front ++ spaced ws).toList.getLast? = some ']' := by
  have hend : " ]".toList = [' '] ++ [']'] := by decide
  rw [spaced, String.toList_append, String.toList_append, hend, ← List.append_assoc, ← List.append_assoc,
    List.getLast?_concat]

theorem getLast?_report (g : Grid) (m : MovedPoint) : (m.report g).toList.getLast? = some ']' :=
  getLast?_append_spaced _ _

/-- The line for a point is read back as it is. -/
theorem isLine_report (g : Grid) (m : MovedPoint) (n : Nat) : IsLine (label n ++ (m.report g).toList) := by
  have hpoint : Unbroken "Point\t" := by decide
  have htab : Unbroken "\t" := by decide
  have hlabel : '\n' ∉ label n := (hpoint.append (unbroken_of_isWord (Decimal.isWord_toString n))).append htab
  constructor
  · rw [List.mem_append, not_or]
    exact ⟨hlabel, unbroken_report g m⟩
  · rw [List.getLast?_append, getLast?_report]
    simp

def numbered (bodies : List (List Char)) : List (List Char) :=
  bodies.zipIdx.map fun entry => label entry.2 ++ entry.1

/-- What the line for a point tells, which only the coordinates of that point decide. -/
def body (p : Parameters) (offsets : List Float) (areIndices : Bool) (given : List Float) : List Char :=
  let g := Grid.ofParameters p offsets.length
  ((movePoint g offsets areIndices given).report g).toList

variable {p : Parameters} {result : String}

theorem length_numbered (bodies : List (List Char)) : (numbered bodies).length = bodies.length := by
  rw [numbered, List.length_map, List.length_zipIdx]

theorem getElem?_numbered (bodies : List (List Char)) (k : Nat) :
    (numbered bodies)[k]? = bodies[k]?.map fun line => label k ++ line := by
  simp [numbered, Function.comp_def]

theorem isLine_body (areIndices : Bool) (given : List Float) (n : Nat) :
    IsLine (label n ++ body p offsets areIndices given) := by
  unfold body
  exact isLine_report _ _ n

theorem toList_pointLines (p : Parameters) (offsets : List Float) (points : PointList) :
    (String.join (pointLines (Grid.ofParameters p offsets.length) offsets points)).toList =
      complete (numbered ((groups offsets.length points.count points.coordinates).map
        (body p offsets points.areIndices))) := by
  simp only [String.toList_join, pointLines, numbered, complete, List.zipIdx_map, List.flatMap_map, List.map_map]
  refine List.flatMap_congr fun entry _ => ?_
  simp only [toList_line, Function.comp_apply, Prod.map_fst, Prod.map_snd, id_eq, body]

/-- The text for the points of a file has their lines and no others. -/
theorem lines_of_displacePoints (h : displacePoints p offsets points = .ok result) :
    lines result.toList = numbered ((groups offsets.length points.count points.coordinates).map
      (body p offsets points.areIndices)) := by
  have hjoin : result = String.join (pointLines (Grid.ofParameters p offsets.length) offsets points) := by
    simp only [displacePoints] at h
    split_ifs at h
    exact (Except.ok.inj h).symm
  rw [hjoin, toList_pointLines]
  refine Text.lines_complete fun line hline => ?_
  obtain ⟨⟨told, n⟩, hentry, rfl⟩ := List.mem_map.mp hline
  obtain ⟨given, -, rfl⟩ := List.mem_map.mp (List.mem_of_getElem? (List.mk_mem_zipIdx_iff_getElem?.mp hentry))
  -- the pair is reduced first, since a line is far too long to be unfolded
  dsimp only
  exact isLine_body points.areIndices given n

end Lines

section Groups

variable {α : Type} {width count : Nat} {xs : List α}

theorem length_groups (width count : Nat) (xs : List α) : (groups width count xs).length = count := by
  induction count generalizing xs with
  | zero => rfl
  | succ count ih => rw [groups, List.length_cons, ih]

theorem getElem?_groups {k : Nat} (hk : k < count) :
    (groups width count xs)[k]? = some ((xs.drop (k * width)).take width) := by
  induction count generalizing xs k with
  | zero => cases hk
  | succ count ih =>
    cases k with
    | zero => simp [groups]
    | succ k =>
      rw [groups, List.getElem?_cons_succ, ih (Nat.lt_of_succ_lt_succ hk), List.drop_drop, Nat.succ_mul,
        Nat.add_comm]

end Groups

section Texts

variable {p : Parameters} {offsets : List Float} {points : PointList} {text result : String}

/-- What a displacement makes of the text of a point file, or what stops it. -/
def displaceText (p : Parameters) (offsets : List Float) (text : String) : Except Stop String :=
  match PointList.read offsets.length text with
  | .error r => .error (.refused r)
  | .ok points => (displacePoints p offsets points).mapError .broken

def Work.ofResult {α : Type} : Except Stop α → Work α
  | .ok x => pure x
  | .error stop => throw stop

/-- The program stores the text that is made of the point file it reads. -/
theorem workOnPoints_displaceText (flaw : Option Flaw) (out : Path) (p : Parameters) (offsets : List Float)
    (input : Path) :
    workOnPoints flaw out p offsets input = get >>= fun t =>
      Work.ofExcept ((t.readText input).mapError (.unreadablePoints input)) >>= fun text =>
        Work.ofResult (displaceText p offsets text) >>= fun result =>
          storePoints out (Text.Utf8.ofString (pointsText flaw result)) := by
  rw [workOnPoints_eq]
  congr 1
  funext t
  congr 1
  funext text
  rw [displaceText]
  cases PointList.read offsets.length text with
  | error r => rfl
  | ok points =>
    change Work.ofParts (displacePoints p offsets points) >>= _ =
      Work.ofResult ((displacePoints p offsets points).mapError .broken) >>= _
    cases displacePoints p offsets points <;> rfl

theorem displaceText_eq_ok :
    displaceText p offsets text = .ok result ↔
      ∃ points, PointFile offsets.length (words text.toList) points ∧
        displacePoints p offsets points = .ok result := by
  rw [displaceText]
  simp only [← ofTokens_eq_ok]
  change _ ↔ ∃ points, PointList.read offsets.length text = .ok points ∧ _
  cases PointList.read offsets.length text with
  | error r => simp
  | ok points => simp [mapError_ok_iff]

theorem Parameters.Covers.displacePoints_isOk (hp : p.Covers offsets.length) (hoffsets : offsets ≠ [])
    (points : PointList) : ∃ result, displacePoints p offsets points = .ok result := by
  cases hresult : displacePoints p offsets points with
  | ok result => exact ⟨result, rfl⟩
  | error defect => exact absurd (displacePoints_error.mp ⟨defect, hresult⟩) (hp.not_pointsMisfit hoffsets points)

theorem displaceText_of_spaced {ws : List (List Char)} (h : Spaced ws text.toList) :
    displaceText p offsets text = match PointList.ofTokens offsets.length ws with
      | .error r => .error (.refused r)
      | .ok points => (displacePoints p offsets points).mapError .broken := by
  rw [displaceText, PointList.read, h.words_eq]

/-- The word for coordinates that count units of length can be left out in front of another word. -/
theorem ofTokens_pointWord {axes : Nat} {first : List Char} {rest : List (List Char)}
    (h : ¬(first = PointList.indexWord ∨ first = PointList.pointWord)) :
    PointList.ofTokens axes (PointList.pointWord :: first :: rest) = PointList.ofTokens axes (first :: rest) := by
  have hplain : PointList.head (first :: rest) = .ok ((false, first), rest) := if_neg h
  have hpoint : PointList.head (PointList.pointWord :: first :: rest) = .ok ((false, first), rest) := rfl
  rw [PointList.ofTokens, PointList.ofTokens, hplain, hpoint]

section Spacing

variable {ws : List (List Char)} (hspaced : Spaced ws text.toList) (hfile : PointFile offsets.length ws points)
include hspaced hfile

theorem displaceText_of_file : displaceText p offsets text = (displacePoints p offsets points).mapError .broken := by
  rw [displaceText_of_spaced hspaced, ofTokens_eq_ok.mpr hfile]

theorem lines_of_displaceText (h : displaceText p offsets text = .ok result) :
    lines result.toList = numbered ((groups offsets.length points.count points.coordinates).map
      (body p offsets points.areIndices)) := by
  rw [displaceText_of_file hspaced hfile, mapError_ok_iff] at h
  exact lines_of_displacePoints h

theorem Parameters.Covers.displaceText_isOk (hp : p.Covers offsets.length) (hoffsets : offsets ≠ []) :
    ∃ result, displaceText p offsets text = .ok result ∧ displacePoints p offsets points = .ok result := by
  obtain ⟨result, h⟩ := hp.displacePoints_isOk hoffsets points
  exact ⟨result, by rw [displaceText_of_file hspaced hfile, mapError_ok_iff, h], h⟩

end Spacing

/-- Point files are accepted exactly and become one line for each point. With an axis at least and a grid that
reaches all axes, the accepted texts are those whose words make up a point file; no look-up for them fails. The
line of a point has its number in front, and its own coordinates alone decide the rest, so that points in another
order have their lines in that order. White space matters only between words, and the word for units of length
means what no word means; only without any other word are the two refused for different reasons. -/
theorem displaceText_exact (p : Parameters) (offsets : List Float) (hoffsets : offsets ≠ [])
    (hp : p.Covers offsets.length) :
    (∀ text, (∃ result, displaceText p offsets text = .ok result) ↔
      ∃ ws points, Spaced ws text.toList ∧ PointFile offsets.length ws points) ∧
    (∀ text ws points, Spaced ws text.toList → PointFile offsets.length ws points →
      ∃ result, displaceText p offsets text = .ok result ∧
        displacePointsGuarded p offsets points = .ok result ∧
        (lines result.toList).length = points.count ∧
        ∀ k < points.count, (lines result.toList)[k]? = some (label k ++ body p offsets points.areIndices
          ((points.coordinates.drop (k * offsets.length)).take offsets.length))) ∧
    (∀ text text' ws ws' points points' result result', Spaced ws text.toList → Spaced ws' text'.toList →
      PointFile offsets.length ws points → PointFile offsets.length ws' points' →
      points'.areIndices = points.areIndices →
      (groups offsets.length points'.count points'.coordinates).Perm
        (groups offsets.length points.count points.coordinates) →
      displaceText p offsets text = .ok result → displaceText p offsets text' = .ok result' →
      ∃ bodies bodies', lines result.toList = numbered bodies ∧ lines result'.toList = numbered bodies' ∧
        bodies'.Perm bodies) ∧
    (∀ text text' ws, Spaced ws text.toList → Spaced ws text'.toList →
      displaceText p offsets text' = displaceText p offsets text) ∧
    (∀ text text' ws, Spaced ws text.toList → Spaced (PointList.pointWord :: ws) text'.toList →
      (∀ first ∈ ws.head?, ¬(first = PointList.indexWord ∨ first = PointList.pointWord)) →
      (∀ result, displaceText p offsets text' = .ok result ↔ displaceText p offsets text = .ok result) ∧
      (ws ≠ [] → displaceText p offsets text' = displaceText p offsets text)) := by
  refine ⟨fun text => ⟨?_, ?_⟩, ?_, ?_, ?_, ?_⟩
  · rintro ⟨result, h⟩
    obtain ⟨points, hfile, -⟩ := displaceText_eq_ok.mp h
    exact ⟨_, points, Text.spaced_words _, hfile⟩
  · rintro ⟨ws, points, hspaced, hfile⟩
    obtain ⟨result, h, -⟩ := hp.displaceText_isOk hspaced hfile hoffsets
    exact ⟨result, h⟩
  · intro text ws points hspaced hfile
    obtain ⟨result, htext, h⟩ := hp.displaceText_isOk hspaced hfile hoffsets
    refine ⟨result, htext, (displacePoints_matches hfile.length_coordinates result).mpr h, ?_, fun k hk => ?_⟩
    · rw [lines_of_displaceText hspaced hfile htext, length_numbered, List.length_map, length_groups]
    · rw [lines_of_displaceText hspaced hfile htext, getElem?_numbered, List.getElem?_map, getElem?_groups hk]
      rfl
  · intro text text' ws ws' points points' result result' hspaced hspaced' hfile hfile' hkind hperm h h'
    refine ⟨_, _, lines_of_displaceText hspaced hfile h, lines_of_displaceText hspaced' hfile' h', ?_⟩
    rw [hkind]
    exact hperm.map _
  · intro text text' ws hspaced hspaced'
    rw [displaceText_of_spaced hspaced, displaceText_of_spaced hspaced']
  · intro text text' ws hspaced hspaced' hplain
    rw [displaceText_of_spaced hspaced, displaceText_of_spaced hspaced']
    cases ws with
    | nil =>
      -- neither has a number of points
      exact ⟨fun result => iff_of_false nofun nofun, fun hne => absurd rfl hne⟩
    | cons first rest =>
      rw [ofTokens_pointWord (hplain first rfl)]
      exact ⟨fun _ => Iff.rfl, fun _ => rfl⟩

def planeParameters : Parameters where
  offsets := [1.0, -2.0]
  size := none
  spacing := some [2.0, 0.5]
  origin := some [1.0, 0.0]
  direction := none
  background := 0.0
  elementType := none
  format := Parameters.defaultFormat

/-- Two points in a plane, with the word for what is counted and without it. -/
theorem displaceText_exact_plane :
    ∃ result, displaceText planeParameters [1.0, -2.0] "point\n2\n0 1\n3 4\n" = .ok result ∧
      displaceText planeParameters [1.0, -2.0] " 2  0 1 3 4" = .ok result ∧
      (lines result.toList).length = 2 := by
  have hcovers : planeParameters.Covers 2 :=
    ⟨fun _ h => by cases h; decide, fun _ h => by cases h; decide⟩
  obtain ⟨-, hanswer, -, -, hword⟩ := displaceText_exact planeParameters [1.0, -2.0] (by decide) hcovers
  have hspaced : Spaced [['2'], ['0'], ['1'], ['3'], ['4']] " 2  0 1 3 4".toList :=
    Text.spaced_iff.mpr (by decide)
  have hspaced' : Spaced [PointList.pointWord, ['2'], ['0'], ['1'], ['3'], ['4']]
      "point\n2\n0 1\n3 4\n".toList :=
    Text.spaced_iff.mpr (by decide)
  have hfile : PointFile 2 [['2'], ['0'], ['1'], ['3'], ['4']] ⟨false, 2, [0.0, 1.0, 3.0, 4.0]⟩ :=
    .mk .none (by decide) (.cons (by decide +kernel) (.cons (by decide +kernel) (.cons (by decide +kernel)
      (.cons (by decide +kernel) .nil)))) rfl
  obtain ⟨result, hresult, -, hlength, -⟩ := hanswer _ _ _ hspaced hfile
  have hsame := (hword _ _ _ hspaced hspaced' (by decide)).2 (by decide)
  exact ⟨result, hsame.trans hresult, hresult, hlength⟩

end Texts

end Assay.Displacement
