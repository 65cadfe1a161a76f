import Mathlib.Logic.Relation
import Assay.Proofs.Image.Lines
import Assay.Proofs.Image.Reading
import Assay.Proofs.Pairs

namespace Assay.Image

open Assay.Text

namespace Header

section Lines

structure Gap where
  chars : List Char
  blank : ∀ c ∈ chars, isBlank c = true
  unbroken : '\n' ∉ chars

/-- What a line has on one side of its mark, without the white space around it. It may be empty. -/
structure Side where
  text : String
  trimmed : IsTrimmed text.toList
  unbroken : '\n' ∉ text.toList

structure Assignment where
  key : Side
  value : Side
  mark : '=' ∉ key.text.toList

structure Margins where
  beforeKey : Gap
  afterKey : Gap
  beforeValue : Gap
  afterValue : Gap

/-- A line of a header: white space, or a key and a value with white space around them. -/
inductive Line where
  | blank (gap : Gap)
  | assignment (a : Assignment) (around : Margins)

def Assignment.field (a : Assignment) : String × String :=
  (a.key.text, a.value.text)

def Assignment.line (a : Assignment) (around : Margins) : List Char :=
  (around.beforeKey.chars ++ a.key.text.toList ++ around.afterKey.chars) ++
    '=' :: (around.beforeValue.chars ++ a.value.text.toList ++ around.afterValue.chars)

def Line.text : Line → List Char
  | .blank gap => gap.chars
  | .assignment a around => a.line around

def Line.bytes (line : Line) : Bytes :=
  Utf8.encode line.text

def Line.field? : Line → Option (String × String)
  | .blank _ => none
  | .assignment a _ => some a.field

theorem Gap.notMem (gap : Gap) {c : Char} (h : isBlank c = false) : c ∉ gap.chars := by
  intro hm
  have hblank := gap.blank c hm
  simp [h] at hblank

theorem Assignment.unbroken_line (a : Assignment) (around : Margins) : '\n' ∉ a.line around := by
  have hkey := a.key.unbroken
  have hvalue := a.value.unbroken
  simp [Assignment.line, hkey, hvalue, around.beforeKey.unbroken, around.afterKey.unbroken,
    around.beforeValue.unbroken, around.afterValue.unbroken]

/-- An assignment is read as its key and its value, whatever white space is around them. -/
theorem field?_line (a : Assignment) (around : Margins) :
    Header.field? (a.line around) = .ok (some a.field) := by
  have hmark : '=' ∉ around.beforeKey.chars ++ a.key.text.toList ++ around.afterKey.chars := by
    simp [a.mark, around.beforeKey.notMem (c := '=') (by decide),
      around.afterKey.notMem (c := '=') (by decide)]
  rw [Assignment.line, field?_cut hmark,
    trim_between around.beforeKey.blank around.afterKey.blank a.key.trimmed,
    trim_between around.beforeValue.blank around.afterValue.blank a.value.trimmed,
    String.ofList_toList, String.ofList_toList, Assignment.field]

theorem Line.unbroken_text (line : Line) : '\n' ∉ line.text := by
  cases line with
  | blank gap => exact gap.unbroken
  | assignment a around => exact a.unbroken_line around

theorem firstField?_bytes (line : Line) : firstField? line.bytes = .ok line.field? := by
  rw [Line.bytes, firstField?_encode line.unbroken_text]
  cases line with
  | blank gap =>
    have htrim : trim gap.chars = [] := trim_append_blanks gap.blank []
    rw [Line.text, Header.field?, htrim]
    rfl
  | assignment a around => exact field?_line a around

theorem fieldsOf_bytes (lines : List Line) :
    fieldsOf (lines.map Line.bytes) = .ok (lines.filterMap Line.field?) := by
  induction lines with
  | nil => rfl
  | cons line rest ih =>
    rw [List.map_cons, fieldsOf, firstField?_bytes, ih, List.filterMap_cons]
    cases line <;> rfl

theorem isFrontLine_bytes {line : Line} (h : ∀ field, line.field? = some field → field.1 ≠ dataFileKey) :
    IsFrontLine line.bytes := by
  refine ⟨Utf8.lineFeed_notMem_encode line.unbroken_text, fun value hgives => ?_⟩
  rw [firstField?_bytes, Except.ok.injEq] at hgives
  exact h _ hgives rfl

end Lines

section Layouts

/-- A header as it is laid out: lines in front, the value of the line that names the data file, and what is
behind that line. The file may end with the line itself, and has a line feed behind it otherwise. -/
structure Layout where
  front : List Line
  dataFile : Side
  around : Margins
  behind : Option Bytes

def dataFileSide : Side where
  text := dataFileKey
  trimmed := isTrimmed_of_trim (by decide)
  unbroken := by decide

def Layout.last (l : Layout) : Assignment where
  key := dataFileSide
  value := l.dataFile
  mark := by decide

def Layout.payload (l : Layout) : Bytes :=
  l.behind.getD []

def Layout.bytes (l : Layout) : Bytes :=
  complete (l.front.map Line.bytes) ++ Utf8.encode (l.last.line l.around) ++
    (l.behind.map (lineFeed :: ·)).getD []

def Layout.fields (l : Layout) : List (String × String) :=
  l.front.filterMap Line.field?

def Layout.keys (l : Layout) : List String :=
  dataFileKey :: l.fields.map Prod.fst

def Layout.header (l : Layout) : Header :=
  ⟨(dataFileKey, l.dataFile.text) :: l.fields.reverse, l.payload⟩

theorem Layout.readFrom_last (l : Layout) (fields : List (String × String)) :
    readFrom fields (Utf8.encode (l.last.line l.around) ++ (l.behind.map (lineFeed :: ·)).getD []) =
      .ok ⟨(dataFileKey, l.dataFile.text) :: fields, l.payload⟩ := by
  have hline := l.last.unbroken_line l.around
  have hgives : firstField? (Utf8.encode (l.last.line l.around)) =
      .ok (some (dataFileKey, l.dataFile.text)) := by
    rw [firstField?_encode hline, field?_line]
    rfl
  have hwhole := Utf8.lineFeed_notMem_encode hline
  cases hbehind : l.behind with
  | none =>
    rw [Layout.payload, hbehind, Option.map_none, Option.getD_none, List.append_nil]
    exact readFrom_end hwhole hgives fields
  | some data =>
    rw [Layout.payload, hbehind]
    exact Header.readFrom_last hwhole hgives fields data

theorem Layout.read_bytes {l : Layout} (h : dataFileKey ∉ l.fields.map Prod.fst) :
    Header.read l.bytes = .ok l.header := by
  have hfront : ∀ line ∈ l.front.map Line.bytes, IsFrontLine line := by
    intro bytes hm
    obtain ⟨line, hline, rfl⟩ := List.mem_map.mp hm
    refine isFrontLine_bytes fun field hfield hkey => h ?_
    exact List.mem_map.mpr ⟨field, List.mem_filterMap.mpr ⟨line, hline, hfield⟩, hkey⟩
  rw [Header.read, Layout.bytes, List.append_assoc, readFrom_complete hfront, fieldsOf_bytes]
  change readFrom (l.fields.reverse ++ []) _ = _
  rw [List.append_nil]
  exact l.readFrom_last _

end Layouts

section Changes

def Gap.withReturn (gap : Gap) : Gap where
  chars := gap.chars ++ ['\r']
  blank := by
    intro c hm
    rcases List.mem_append.mp hm with hm | hm
    · exact gap.blank c hm
    · rw [List.mem_singleton.mp hm]
      decide
  unbroken := by simp [gap.unbroken]

def Margins.withReturn (around : Margins) : Margins :=
  { around with afterValue := around.afterValue.withReturn }

def Line.withReturn : Line → Line
  | .blank gap => .blank gap.withReturn
  | .assignment a around => .assignment a around.withReturn

/-- A carriage return in front of every line feed that ends a line. -/
def Layout.withReturns (l : Layout) : Layout :=
  { l with
    front := l.front.map Line.withReturn
    around := if l.behind.isSome then l.around.withReturn else l.around }

/-- One line is the other with other white space. -/
inductive Line.Respaced : Line → Line → Prop where
  | blank (gap gap' : Gap) : Line.Respaced (.blank gap) (.blank gap')
  | assignment (a : Assignment) (around around' : Margins) :
    Line.Respaced (.assignment a around) (.assignment a around')

theorem Line.respaced_self (line : Line) : line.Respaced line := by
  cases line with
  | blank gap => exact .blank gap gap
  | assignment a around => exact .assignment a around around

/-- A change of the layout of a header. -/
inductive Layout.Changed : Layout → Layout → Prop where
  | order {l : Layout} {lines : List Line} (perm : l.front.Perm lines) :
      Layout.Changed l { l with front := lines }
  | blankLine {l : Layout} {before after : List Line} (gap : Gap) (place : l.front = before ++ after) :
      Layout.Changed l { l with front := before ++ .blank gap :: after }
  | unknownKey {l : Layout} {before after : List Line} (a : Assignment) (around : Margins)
      (place : l.front = before ++ after) (unknown : a.key.text ∉ knownKeys) :
      Layout.Changed l { l with front := before ++ .assignment a around :: after }
  | spaces {l : Layout} {lines : List Line} (same : List.Forall₂ Line.Respaced l.front lines)
      (around : Margins) : Layout.Changed l { l with front := lines, around := around }
  | lineEnds (l : Layout) : Layout.Changed l l.withReturns

/-- The fields of known keys in front of the line that names the data file. -/
def Layout.known (l : Layout) : List (String × String) :=
  l.fields.filter fun field => knownKeys.contains field.1

/-- What a change of the layout keeps. -/
structure Layout.Same (l l' : Layout) : Prop where
  dataFile : l'.dataFile = l.dataFile
  behind : l'.behind = l.behind
  known : l.known.Perm l'.known

theorem filterMap_respaced {lines lines' : List Line} (h : List.Forall₂ Line.Respaced lines lines') :
    lines.filterMap Line.field? = lines'.filterMap Line.field? := by
  induction h with
  | nil => rfl
  | cons first _ ih =>
    rw [List.filterMap_cons, List.filterMap_cons, ih]
    cases first <;> rfl

theorem Layout.Changed.same {l l' : Layout} (h : Layout.Changed l l') : l.Same l' := by
  cases h with
  | order perm => exact ⟨rfl, rfl, (perm.filterMap _).filter _⟩
  | blankLine gap place =>
    refine ⟨rfl, rfl, ?_⟩
    simp [Layout.known, Layout.fields, place, List.filterMap_cons, Line.field?]
  | unknownKey e around place unknown =>
    refine ⟨rfl, rfl, ?_⟩
    simp [Layout.known, Layout.fields, place, Line.field?, Assignment.field, unknown]
  | spaces same around =>
    refine ⟨rfl, rfl, ?_⟩
    rw [Layout.known, Layout.fields, filterMap_respaced same]
    exact .refl _
  | lineEnds =>
    refine ⟨rfl, rfl, ?_⟩
    have hsame : List.Forall₂ Line.Respaced l.front (l.front.map Line.withReturn) := by
      rw [List.forall₂_map_right_iff, List.forall₂_same]
      intro line _
      cases line with
      | blank gap => exact .blank gap _
      | assignment a around => exact .assignment a around _
    rw [Layout.known, Layout.fields, filterMap_respaced hsame]
    exact .refl _

theorem Layout.same_of_changes {l l' : Layout} (h : Relation.ReflTransGen Layout.Changed l l') :
    l.Same l' := by
  induction h with
  | refl => exact ⟨rfl, rfl, .refl _⟩
  | tail _ step ih =>
    have hstep := step.same
    exact ⟨hstep.dataFile.trans ih.dataFile, hstep.behind.trans ih.behind, ih.known.trans hstep.known⟩

/-- The known keys with the one of the data file. -/
def Layout.lookedUp (l : Layout) : List (String × String) :=
  (dataFileKey, l.dataFile.text) :: l.known

theorem Layout.get?_header (l : Layout) (hnodup : (l.lookedUp.map Prod.fst).Nodup) {key : String}
    (hk : key ∈ knownKeys) : l.header.get? key = l.lookedUp.lookup key := by
  have hkeep : knownKeys.contains key = true := List.contains_iff_mem.mpr hk
  have hperm : l.lookedUp.Perm
      (((dataFileKey, l.dataFile.text) :: l.fields.reverse).filter fun field =>
        knownKeys.contains field.1) := by
    have hfirst : knownKeys.contains dataFileKey = true := by decide
    simp only [List.filter_cons, hfirst, if_true, List.filter_reverse]
    exact (List.reverse_perm _).symm.cons _
  rw [get?, Layout.header, ← lookup_filter knownKeys.contains hkeep, lookup_perm hperm hnodup]

theorem Layout.nodup_lookedUp {l : Layout} (h : l.keys.Nodup) : (l.lookedUp.map Prod.fst).Nodup := by
  rw [Layout.lookedUp, List.map_cons]
  exact h.sublist ((List.filter_sublist.map Prod.fst).cons_cons dataFileKey)

theorem Layout.read_bytes_of_nodup {l : Layout} (h : (l.lookedUp.map Prod.fst).Nodup) :
    Header.read l.bytes = .ok l.header := by
  apply Layout.read_bytes
  intro hm
  obtain ⟨field, hfield, hkey⟩ := List.mem_map.mp hm
  have hknown : field ∈ l.known := by
    rw [Layout.known, List.mem_filter, hkey]
    exact ⟨hfield, List.contains_iff_mem.mpr List.mem_cons_self⟩
  rw [Layout.lookedUp, List.map_cons, List.nodup_cons] at h
  exact h.1 (List.mem_map.mpr ⟨field, hknown, hkey⟩)

end Changes

end Header

section Reading

open Header

/-- The layout of a header does not matter. If no key is given twice, the image that is read, or the failure
to read one, stays when lines change places, when blank lines or lines of unknown keys are put among them, when
the white space around keys and values is changed, and when lines end in another way. This holds of data behind
the header, and of data in a file of their own as long as that file is the same. -/
theorem read_of_layout {l l' : Layout} {t t' : FileTree} {path : Path} (distinct : l.keys.Nodup)
    (changes : Relation.ReflTransGen Layout.Changed l l')
    (header : t.read path = .ok l.bytes) (header' : t'.read path = .ok l'.bytes)
    (data : ∀ name, Storage.ofValue l.dataFile.text = .ok (.file name) →
      t'.read (dataPath path name) = t.read (dataPath path name)) :
    read t' path = read t path := by
  have hsame := Layout.same_of_changes changes
  have hnodup := Layout.nodup_lookedUp distinct
  have hperm : l.lookedUp.Perm l'.lookedUp := by
    rw [Layout.lookedUp, Layout.lookedUp, hsame.dataFile]
    exact hsame.known.cons _
  have hnodup' : (l'.lookedUp.map Prod.fst).Nodup := (hperm.map Prod.fst).nodup_iff.mp hnodup
  refine read_congr header header' (Layout.read_bytes_of_nodup hnodup)
    (Layout.read_bytes_of_nodup hnodup') ?_ ?_ ?_
  · intro key hk
    rw [l'.get?_header hnodup' hk, l.get?_header hnodup hk, lookup_perm hperm hnodup]
  · rw [Layout.header, Layout.header, Layout.payload, Layout.payload, hsame.behind]
  · intro value name hvalue hplace
    rw [get?, Layout.header, List.lookup_cons_self, Option.some.injEq] at hvalue
    exact data name (hvalue ▸ hplace)

def oneSpace : Gap := ⟨[' '], List.forall_mem_singleton.mpr (by decide), by decide⟩

def noSpace : Gap := ⟨[], by simp, by decide⟩

def usualMargins : Margins := ⟨noSpace, oneSpace, oneSpace, noSpace⟩

def sideOf (text : String) (h : trim text.toList = text.toList) (hline : '\n' ∉ text.toList) : Side :=
  ⟨text, isTrimmed_of_trim h, hline⟩

def noMargins : Margins := ⟨noSpace, noSpace, noSpace, noSpace⟩

def sizeLine (around : Margins) : Line :=
  .assignment ⟨sideOf "ElementSize" (by decide) (by decide), sideOf "4" (by decide) (by decide), by decide⟩ around

def commentLine : Line :=
  .assignment ⟨sideOf "Comment" (by decide) (by decide), sideOf "a = b" (by decide) (by decide), by decide⟩
    usualMargins

/-- The lines of a header that gives the spacing by one of its names. -/
def spacedLines : List Line := [
  .assignment ⟨sideOf "NDims" (by decide) (by decide), sideOf "1" (by decide) (by decide), by decide⟩
    usualMargins,
  .assignment ⟨sideOf "DimSize" (by decide) (by decide), sideOf "2" (by decide) (by decide), by decide⟩
    usualMargins,
  .assignment ⟨sideOf "ElementType" (by decide) (by decide), sideOf "MET_CHAR" (by decide) (by decide),
    by decide⟩ usualMargins,
  .assignment ⟨sideOf "ElementSpacing" (by decide) (by decide), sideOf "3" (by decide) (by decide), by decide⟩
    usualMargins]

/-- A header that gives the spacing by both of its names, with the samples in a file beside it. -/
def spacedLayout : Layout where
  front := spacedLines ++ [sizeLine usualMargins]
  dataFile := sideOf "a.raw" (by decide) (by decide)
  around := usualMargins
  behind := some []

def spacedTree (l : Layout) : FileTree :=
  ⟨[(["a.mhd"], .file l.bytes 0o644), (["a.raw"], .file [1, 2] 0o644)], []⟩

theorem read_of_layout_spaced :
    ∃ l : Layout, Relation.ReflTransGen Layout.Changed spacedLayout l ∧
      l.bytes = Utf8.ofString ("ElementSize=4\r\n\r\nNDims = 1\r\nDimSize = 2\r\n" ++
        "ElementType = MET_CHAR\r\nElementSpacing = 3\r\nComment = a = b\r\n" ++
        " ElementDataFile = a.raw\r\n") ∧
      read (spacedTree l) ⟨"a.mhd"⟩ = read (spacedTree spacedLayout) ⟨"a.mhd"⟩ ∧
      (read (spacedTree l) ⟨"a.mhd"⟩).toOption.map (·.descriptor.spacing) = some [3.0] := by
  have hmoved : Layout.Changed spacedLayout
      { spacedLayout with front := sizeLine usualMargins :: spacedLines } :=
    .order (List.perm_append_singleton _ _)
  have hparted : Layout.Changed { spacedLayout with front := sizeLine usualMargins :: spacedLines }
      { spacedLayout with front := [sizeLine usualMargins] ++ .blank noSpace :: spacedLines } :=
    .blankLine noSpace rfl
  have hcommented : Layout.Changed
      { spacedLayout with front := [sizeLine usualMargins] ++ .blank noSpace :: spacedLines }
      { spacedLayout with
        front := (sizeLine usualMargins :: .blank noSpace :: spacedLines) ++ [commentLine] } :=
    .unknownKey _ usualMargins (List.append_nil _).symm (by decide)
  have hspaced : Layout.Changed
      { spacedLayout with
        front := (sizeLine usualMargins :: .blank noSpace :: spacedLines) ++ [commentLine] }
      { spacedLayout with
        front := (sizeLine noMargins :: .blank noSpace :: spacedLines) ++ [commentLine]
        around := { usualMargins with beforeKey := oneSpace } } :=
    .spaces (.cons (.assignment _ _ _) (List.forall₂_same.mpr fun line _ => line.respaced_self)) _
  have changes := Relation.ReflTransGen.refl.tail hmoved |>.tail hparted |>.tail hcommented |>.tail hspaced
    |>.tail (.lineEnds _)
  refine ⟨_, changes, by decide +kernel, ?_, by decide +kernel⟩
  refine read_of_layout (by decide +kernel) changes rfl rfl fun name hname => ?_
  have hraw : Storage.ofValue spacedLayout.dataFile.text = .ok (.file "a.raw") := rfl
  rw [hraw] at hname
  cases hname
  rfl

end Reading

end Assay.Image
