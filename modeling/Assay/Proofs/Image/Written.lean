import Assay.Image.Writer
import Assay.Proofs.Decimal.Text
import Assay.Proofs.Image.Lines
import Assay.Proofs.Pairs

namespace Assay.Image

open Assay.Text

section Parts

/-- A text that stands on one line and keeps its ends. -/
structure IsPart (s : List Char) : Prop where
  ne_nil : s ≠ []
  trimmed : IsTrimmed s
  unbroken : '\n' ∉ s

theorem isPart_of_word {w : List Char} (h : IsWord w) : IsPart w := by
  refine ⟨h.ne_nil, ⟨?_, ?_⟩, ?_⟩
  · exact fun c hc => h.unbroken c (List.mem_of_head? hc)
  · exact fun c hc => h.unbroken c (List.mem_of_getLast? hc)
  · intro hm
    have hblank := h.unbroken '\n' hm
    cases hblank

theorem IsPart.append {s u : List Char} (hs : IsPart s) (hu : IsPart u) {between : List Char}
    (hb : '\n' ∉ between) : IsPart (s ++ between ++ u) := by
  refine ⟨by simp [hs.ne_nil], ⟨?_, ?_⟩, ?_⟩
  · intro c hc
    rw [List.append_assoc, List.head?_append_of_ne_nil s hs.ne_nil] at hc
    exact hs.trimmed.first c hc
  · intro c hc
    rw [List.getLast?_append_of_ne_nil _ hu.ne_nil] at hc
    exact hu.trimmed.last c hc
  · rw [List.mem_append, List.mem_append, not_or, not_or]
    exact ⟨⟨hs.unbroken, hb⟩, hu.unbroken⟩

theorem isPart_intercalate {ws : List (List Char)} (h : ∀ w ∈ ws, IsWord w) (hne : ws ≠ []) :
    IsPart (List.intercalate [' '] ws) := by
  induction ws with
  | nil => exact absurd rfl hne
  | cons w rest ih =>
    have hw := isPart_of_word (h w List.mem_cons_self)
    cases rest with
    | nil =>
      rw [List.intercalate_singleton]
      exact hw
    | cons v rest =>
      have hrest := ih (fun u hu => h u (List.mem_cons_of_mem w hu)) (by simp)
      rw [List.intercalate_cons_cons]
      exact hw.append hrest (by decide)

end Parts

namespace Header

section Lines

/-- A field that its line is read as. -/
structure IsField (field : String × String) : Prop where
  key : IsWord field.1.toList
  mark : '=' ∉ field.1.toList
  value : IsPart field.2.toList

def lineText (field : String × String) : List Char :=
  field.1.toList ++ [' ', '=', ' '] ++ field.2.toList

variable {field : String × String}

/-- A line that was written is read as its key and its trimmed value. -/
theorem field?_trim {key : List Char} (hkey : IsWord key) (hmark : '=' ∉ key) (value : List Char) :
    field? (key ++ [' ', '=', ' '] ++ value) =
      .ok (some (String.ofList key, String.ofList (trim value))) := by
  have hsplit : key ++ [' ', '=', ' '] ++ value = (key ++ [' ']) ++ '=' :: ' ' :: value := by simp
  have hmark' : '=' ∉ key ++ [' '] := by
    rw [List.mem_append, not_or]
    exact ⟨hmark, by decide⟩
  rw [hsplit, field?_cut hmark', trim_append_blank (by decide), trim_eq_self (isPart_of_word hkey).trimmed,
    trim_cons_blank (by decide)]

theorem field?_lineText (h : IsField field) : field? (lineText field) = .ok (some field) := by
  rw [lineText, field?_trim h.key h.mark, trim_eq_self h.value.trimmed, String.ofList_toList,
    String.ofList_toList]

def lineBytes (field : String × String) : Bytes :=
  Utf8.encode (lineText field)

theorem lineFeed_notMem_lineBytes (h : IsField field) : lineFeed ∉ lineBytes field := by
  have hline : IsPart (lineText field) := (isPart_of_word h.key).append h.value (by decide)
  exact Utf8.lineFeed_notMem_encode hline.unbroken

/-- A line that was written is read as its field. -/
theorem firstField?_lineBytes (h : IsField field) :
    firstField? (lineBytes field) = .ok (some field) := by
  have hline : IsPart (lineText field) := (isPart_of_word h.key).append h.value (by decide)
  rw [lineBytes, firstField?_encode hline.unbroken]
  exact field?_lineText h

theorem isFrontLine_lineBytes (h : IsField field) (hkey : field.1 ≠ dataFileKey) :
    IsFrontLine (lineBytes field) :=
  isFrontLine_of_field (lineFeed_notMem_lineBytes h) (firstField?_lineBytes h) hkey

theorem fieldsOf_lineBytes {fields : List (String × String)} (h : ∀ field ∈ fields, IsField field) :
    fieldsOf (fields.map lineBytes) = .ok fields := by
  induction fields with
  | nil => rfl
  | cons field rest ih =>
    have hrest := ih fun other hm => h other (List.mem_cons_of_mem field hm)
    rw [List.map_cons, fieldsOf, firstField?_lineBytes (h field List.mem_cons_self)]
    exact bind_eq_ok.mpr ⟨_, rfl, bind_eq_ok.mpr ⟨_, hrest, rfl⟩⟩

end Lines

section Fields

variable {d : Descriptor} {dataFile : String}

def writtenFields (d : Descriptor) : List (String × String) :=
  [("ObjectType", "Image"), ("NDims", toString d.dimension), ("BinaryData", "True"),
    ("BinaryDataByteOrderMSB", "False"), ("CompressedData", "False"),
    ("TransformMatrix", numbersText (transpose d.dimension d.direction)),
    ("Offset", numbersText d.origin),
    ("CenterOfRotation", numbersText (List.replicate d.dimension 0.0)),
    ("ElementSpacing", numbersText d.spacing),
    ("DimSize", String.intercalate " " (d.size.map toString))] ++
    ((if d.components = 1 then [] else [("ElementNumberOfChannels", toString d.components)]) ++
      [("ElementType", d.elementType.name)])

theorem ofString_append (s u : String) :
    Utf8.ofString (s ++ u) = Utf8.ofString s ++ Utf8.ofString u := by
  rw [Utf8.ofString, String.toList_append, Utf8.encode_append, Utf8.ofString, Utf8.ofString]

theorem ofString_headerLine (key value : String) :
    Utf8.ofString (headerLine key value) = lineBytes (key, value) ++ [lineFeed] := by
  have hend : Utf8.ofString "\n" = [lineFeed] := by decide
  rw [headerLine, ofString_append, hend, lineBytes, lineText, Utf8.ofString, String.toList_append,
    String.toList_append]
  rfl

def dataFileLine (dataFile : String) : Bytes :=
  Utf8.ofString (headerLine dataFileKey dataFile)

theorem isField_dataFile (h : IsPart dataFile.toList) : IsField (dataFileKey, dataFile) := by
  have hword : IsWord dataFileKey.toList := isWord_of_all (by decide) (by decide)
  have hmark : '=' ∉ dataFileKey.toList := by decide
  exact ⟨hword, hmark, h⟩

theorem readFrom_dataFile (h : IsPart dataFile.toList) (fields : List (String × String))
    (rest : Bytes) :
    readFrom fields (dataFileLine dataFile ++ rest) = .ok ⟨(dataFileKey, dataFile) :: fields, rest⟩ := by
  have hfield := isField_dataFile h
  rw [dataFileLine, ofString_headerLine, List.append_assoc, List.singleton_append]
  exact readFrom_last (lineFeed_notMem_lineBytes hfield) (firstField?_lineBytes hfield) fields rest

/-- A header is written line by line. -/
theorem ofString_headerText (d : Descriptor) (dataFile : String) :
    Utf8.ofString (headerText d dataFile) =
      complete ((writtenFields d).map lineBytes) ++ dataFileLine dataFile := by
  have hchannels : Utf8.ofString (if d.components = 1 then "" else
      headerLine "ElementNumberOfChannels" (toString d.components)) =
        complete ((if d.components = 1 then [] else
          [("ElementNumberOfChannels", toString d.components)]).map lineBytes) := by
    split_ifs
    · rfl
    · rw [ofString_headerLine]
      simp [complete]
  rw [headerText, writtenFields, List.map_append, List.map_append, complete_append, complete_append,
    dataFileLine]
  simp only [ofString_append, ofString_headerLine, hchannels, complete, List.map_cons, List.map_nil,
    List.flatMap_cons, List.flatMap_nil, List.append_nil, List.append_assoc]

def written (d : Descriptor) (dataFile : String) : Header :=
  ⟨(dataFileKey, dataFile) :: (writtenFields d).reverse, []⟩

def writtenKeys (d : Descriptor) : List String :=
  ["ObjectType", "NDims", "BinaryData", "BinaryDataByteOrderMSB", "CompressedData", "TransformMatrix",
    "Offset", "CenterOfRotation", "ElementSpacing", "DimSize"] ++
    ((if d.components = 1 then [] else ["ElementNumberOfChannels"]) ++ ["ElementType"])

theorem map_writtenFields (d : Descriptor) : (writtenFields d).map Prod.fst = writtenKeys d := by
  rw [writtenFields, writtenKeys]
  split_ifs <;> rfl

theorem nodup_writtenKeys (d : Descriptor) : (dataFileKey :: writtenKeys d).Nodup := by
  rw [writtenKeys]
  split_ifs <;> decide

/-- A header that is written has the fields that were written. -/
theorem get?_written {key value : String} (h : (key, value) ∈ writtenFields d) :
    (written d dataFile).get? key = some value := by
  rw [get?, written]
  apply lookup_of_mem
  · rw [List.map_cons, List.map_reverse, map_writtenFields, List.nodup_cons, List.mem_reverse,
      List.nodup_reverse]
    exact List.nodup_cons.mp (nodup_writtenKeys d)
  · exact List.mem_cons_of_mem _ (List.mem_reverse.mpr h)

theorem get?_written_none {key : String} (h : key ∉ dataFileKey :: writtenKeys d) :
    (written d dataFile).get? key = none := by
  rw [get?, written, List.lookup_eq_none_iff]
  intro field hm
  rw [bne_iff_ne]
  rintro rfl
  apply h
  rcases List.mem_cons.mp hm with rfl | hm
  · exact List.mem_cons_self
  · rw [← map_writtenFields]
    exact List.mem_cons_of_mem _ (List.mem_map_of_mem (List.mem_reverse.mp hm))

end Fields

end Header

section Numbers

/-- What a header keeps of a number: a zero loses its sign. -/
def kept (x : Float) : Float :=
  if x == 0.0 then 0.0 else x

theorem kept_beq {x : Float} (h : x.isNaN = false) : (kept x == x) = true := by
  rw [kept]
  split_ifs with hzero
  · exact Decimal.zero_beq hzero
  · exact Decimal.beq_self h

theorem isWord_numberText (x : Float) : IsWord (numberText x).toList := by
  rw [numberText]
  split_ifs
  · exact isWord_of_all (by decide) (by decide)
  · exact Decimal.isWord_plain x

/-- The text of a number in a header is read as what the header keeps of it. -/
theorem real?_numberText {x : Float} (h : x.isNaN = false) :
    Decimal.real? (numberText x).toList = some (kept x) := by
  have hzero : Decimal.plain 0.0 = "0" := by decide +kernel
  rw [numberText, kept]
  split_ifs
  · rw [← hzero]
    exact Decimal.real?_plain (by decide +kernel)
  · exact Decimal.real?_plain h

theorem isWord_of_mem_map {α : Type} {write : α → String} (hw : ∀ a, IsWord (write a).toList)
    {values : List α} : ∀ text ∈ values.map write, IsWord text.toList := by
  intro text hm
  obtain ⟨a, _, rfl⟩ := List.mem_map.mp hm
  exact hw a

/-- Words that are written with single spaces are read one by one. -/
theorem countedItems_intercalate {α : Type} {parse : List Char → Option α} {texts : List String}
    {values : List α} (hw : ∀ text ∈ texts, IsWord text.toList)
    (hp : texts.map (fun text => parse text.toList) = values.map some) (key : String) :
    Header.countedItems parse key (String.intercalate " " texts) values.length = .ok values := by
  rw [Header.countedItems_ok, Header.items_ok, String.toList_intercalate]
  have hwords : words (List.intercalate [' '] (texts.map String.toList)) = texts.map String.toList := by
    apply words_intercalate
    intro w hm
    obtain ⟨text, ht, rfl⟩ := List.mem_map.mp hm
    exact hw text ht
  refine ⟨?_, rfl⟩
  change (words (List.intercalate [' '] (texts.map String.toList))).map parse = _
  rw [hwords, List.map_map, ← hp]
  rfl

theorem countedItems_numbersText {xs : List Float} (h : ∀ x ∈ xs, x.isNaN = false) (key : String) :
    Header.countedItems Decimal.real? key (numbersText xs) xs.length = .ok (xs.map kept) := by
  have hread := @countedItems_intercalate _ Decimal.real? (xs.map numberText) (xs.map kept)
    (isWord_of_mem_map isWord_numberText)
    (by
      rw [List.map_map, List.map_map]
      exact List.map_congr_left fun x hx => real?_numberText (h x hx)) key
  rwa [List.length_map] at hread

theorem countedItems_sizes {sizes : List Nat} (h : ∀ n ∈ sizes, n < Decimal.sizeLimit)
    (key : String) :
    Header.countedItems Decimal.size? key (String.intercalate " " (sizes.map toString)) sizes.length =
      .ok sizes := by
  apply countedItems_intercalate
  · exact isWord_of_mem_map Decimal.isWord_toString
  · rw [List.map_map]
    exact List.map_congr_left fun n hn => Decimal.size?_toString (h n hn)

theorem isPart_texts {texts : List String} (hw : ∀ text ∈ texts, IsWord text.toList)
    (hne : texts ≠ []) : IsPart (String.intercalate " " texts).toList := by
  rw [String.toList_intercalate]
  apply isPart_intercalate
  · intro w hm
    obtain ⟨text, ht, rfl⟩ := List.mem_map.mp hm
    exact hw text ht
  · simpa using hne

theorem isPart_numbersText {xs : List Float} (h : xs ≠ []) : IsPart (numbersText xs).toList :=
  isPart_texts (isWord_of_mem_map isWord_numberText) (by simpa using h)

theorem isPart_sizes {sizes : List Nat} (h : sizes ≠ []) :
    IsPart (String.intercalate " " (sizes.map toString)).toList :=
  isPart_texts (isWord_of_mem_map Decimal.isWord_toString) (by simpa using h)

end Numbers

section Descriptors

/-- A descriptor that a header can hold: its sizes are sizes of the machine, its numbers are numbers,
and the bytes of the image can be counted along every axis. -/
structure Descriptor.Storable (d : Descriptor) : Prop extends d.Shaped where
  dimension_lt : d.dimension < Decimal.sizeLimit
  size_lt : ∀ n ∈ d.size, n < Decimal.sizeLimit
  components_lt : d.components < Decimal.sizeLimit
  bytes_lt : ∀ k < d.size.length,
    d.components * (d.size.take (k + 1)).prod * d.elementType.size < Decimal.sizeLimit
  spacing_number : ∀ x ∈ d.spacing, x.isNaN = false
  origin_number : ∀ x ∈ d.origin, x.isNaN = false
  direction_number : ∀ x ∈ d.direction, x.isNaN = false

/-- What a header keeps of a descriptor. -/
def Descriptor.kept (d : Descriptor) : Descriptor :=
  { d with
    spacing := d.spacing.map Image.kept
    origin := d.origin.map Image.kept
    direction := d.direction.map Image.kept }

namespace Header

/-- An image fits when the bytes of every part of it can be counted. -/
theorem fits_of_bytes {c width : Nat} {sizes : List Nat} (hne : sizes ≠ []) (hw : 0 < width)
    (h : ∀ k < sizes.length, c * (sizes.take (k + 1)).prod * width < Decimal.sizeLimit) :
    fits c sizes width = true := by
  induction sizes generalizing c with
  | nil => exact absurd rfl hne
  | cons n rest ih =>
    have hfirst : c * n * width < Decimal.sizeLimit := by simpa using h 0 (by simp)
    rw [fits_cons]
    refine ⟨Nat.lt_of_le_of_lt (Nat.le_mul_of_pos_right _ hw) hfirst, ?_⟩
    cases rest with
    | nil => exact fits_nil.mpr hfirst
    | cons next rest =>
      refine ih (by simp) fun k hk => ?_
      have hnext := h (k + 1) (by simpa using hk)
      rwa [List.take_succ_cons, List.prod_cons, ← Nat.mul_assoc] at hnext

variable {d : Descriptor} {dataFile : String}

theorem isWord_name (t : ElementType) : IsWord t.name.toList := by
  cases t <;> exact isWord_of_all (by decide) (by decide)

theorem isWord_writtenKeys (d : Descriptor) :
    ∀ key ∈ writtenKeys d, IsWord key.toList ∧ '=' ∉ key.toList ∧ key ≠ dataFileKey := by
  have hkeys : ∀ key ∈ writtenKeys d, key.toList ≠ [] ∧ key.toList.all (fun c => !isBlank c) = true ∧
      '=' ∉ key.toList ∧ key ≠ dataFileKey := by
    rw [writtenKeys]
    split_ifs <;> decide
  intro key hm
  obtain ⟨hne, hunbroken, hmark, hother⟩ := hkeys key hm
  exact ⟨isWord_of_all hne hunbroken, hmark, hother⟩

theorem ne_nil_of_length {α : Type} {xs : List α} {n : Nat} (h : xs.length = n) (hn : 1 ≤ n) :
    xs ≠ [] := by
  rintro rfl
  rw [← h, List.length_nil] at hn
  exact absurd hn (by decide)

theorem isPart_writtenFields (h : d.Shaped) : ∀ field ∈ writtenFields d, IsPart field.2.toList := by
  have hsquare : 1 ≤ d.dimension * d.dimension := Nat.mul_pos h.dimension_pos h.dimension_pos
  have hyes : IsPart "True".toList := isPart_of_word (isWord_of_all (by decide) (by decide))
  have hno : IsPart "False".toList := isPart_of_word (isWord_of_all (by decide) (by decide))
  simp only [writtenFields, List.forall_mem_append, List.forall_mem_cons, List.not_mem_nil,
    IsEmpty.forall_iff, implies_true, and_true]
  refine ⟨⟨?_, ?_, hyes, hno, hno, ?_, ?_, ?_, ?_, ?_⟩, ?_, ?_⟩
  · exact isPart_of_word (isWord_of_all (by decide) (by decide))
  · exact isPart_of_word (Decimal.isWord_toString _)
  · exact isPart_numbersText (ne_nil_of_length (length_transpose h.direction_length) hsquare)
  · exact isPart_numbersText (ne_nil_of_length h.origin_length h.dimension_pos)
  · exact isPart_numbersText (ne_nil_of_length List.length_replicate h.dimension_pos)
  · exact isPart_numbersText (ne_nil_of_length h.spacing_length h.dimension_pos)
  · exact isPart_sizes (ne_nil_of_length h.size_length h.dimension_pos)
  · intro field hm
    split_ifs at hm
    · cases hm
    · rw [List.mem_singleton.mp hm]
      exact isPart_of_word (Decimal.isWord_toString _)
  · exact isPart_of_word (isWord_name _)

theorem isField_writtenFields (h : d.Shaped) :
    ∀ field ∈ writtenFields d, IsField field ∧ field.1 ≠ dataFileKey := by
  intro field hm
  have hkey : field.1 ∈ writtenKeys d := by
    rw [← map_writtenFields]
    exact List.mem_map_of_mem hm
  obtain ⟨hword, hmark, hother⟩ := isWord_writtenKeys d _ hkey
  exact ⟨⟨hword, hmark, isPart_writtenFields h field hm⟩, hother⟩

/-- A header that is written is read on at the line of the data file. -/
theorem readFrom_headerText (h : d.Shaped) (dataFile : String) :
    Header.read (Utf8.ofString (headerText d dataFile)) =
      readFrom (writtenFields d).reverse (dataFileLine dataFile) := by
  have hfields := isField_writtenFields h
  have hlines : ∀ line ∈ (writtenFields d).map lineBytes, IsFrontLine line := by
    intro line hm
    obtain ⟨field, hf, rfl⟩ := List.mem_map.mp hm
    exact isFrontLine_lineBytes (hfields field hf).1 (hfields field hf).2
  rw [Header.read, ofString_headerText, readFrom_complete hlines,
    fieldsOf_lineBytes fun field hm => (hfields field hm).1]
  change readFrom ((writtenFields d).reverse ++ []) _ = _
  rw [List.append_nil]

/-- The lines of a header that is written are read as its fields. -/
theorem read_headerText (h : d.Shaped) (hname : IsPart dataFile.toList) :
    Header.read (Utf8.ofString (headerText d dataFile)) = .ok (written d dataFile) := by
  have hlast := readFrom_dataFile hname (writtenFields d).reverse []
  rw [List.append_nil] at hlast
  rw [readFrom_headerText h, hlast]
  rfl

theorem required_written {key value : String} (h : (key, value) ∈ writtenFields d) :
    (written d dataFile).required key = .ok value := by
  rw [required, get?_written h]

theorem dimension_written (h : d.Storable) : (written d dataFile).dimension = .ok d.dimension := by
  obtain ⟨k, hk⟩ := Nat.exists_eq_succ_of_ne_zero (Nat.ne_of_gt h.dimension_pos)
  have hvalue : (written d dataFile).required "NDims" = .ok (toString d.dimension) :=
    required_written (by simp [writtenFields])
  refine bind_eq_ok.mpr ⟨_, hvalue, ?_⟩
  rw [Decimal.size?_toString h.dimension_lt, hk]
  rfl

theorem reals_written {keys : List String} {key : String} {xs : List Float}
    (hk : keys.head? = some key) (hm : (key, numbersText xs) ∈ writtenFields d)
    (hx : ∀ x ∈ xs, x.isNaN = false) (hlen : xs.length = d.dimension) (default : List Float) :
    (written d dataFile).reals keys d.dimension default = .ok (xs.map Image.kept) := by
  obtain ⟨rest, rfl⟩ := List.head?_eq_some_iff.mp hk
  have hfirst : (written d dataFile).firstOf? (key :: rest) = some (key, numbersText xs) := by
    rw [firstOf?, List.findSome?_cons, get?_written hm]
    rfl
  rw [reals, hfirst]
  dsimp only
  rw [← hlen]
  exact countedItems_numbersText hx key

theorem direction_written (h : d.Storable) :
    (written d dataFile).direction d.dimension = .ok (d.direction.map Image.kept) := by
  have hvalue : (written d dataFile).get? "TransformMatrix" =
      some (numbersText (transpose d.dimension d.direction)) :=
    get?_written (by simp [writtenFields])
  have hfirst : (written d dataFile).firstOf? ["TransformMatrix", "Rotation", "Orientation"] =
      some ("TransformMatrix", numbersText (transpose d.dimension d.direction)) := by
    rw [firstOf?, List.findSome?_cons, hvalue]
    rfl
  have hread := countedItems_numbersText
    (fun x hx => h.direction_number x (mem_of_mem_transpose h.direction_length hx)) "TransformMatrix"
  rw [length_transpose h.direction_length] at hread
  rw [direction, hfirst]
  simp only [hread]
  rw [← transpose_map h.direction_length, transpose_transpose (by
    rw [List.length_map, h.direction_length])]

theorem components_written (h : d.Storable) :
    (written d dataFile).components = .ok d.components := by
  rw [components]
  by_cases hone : d.components = 1
  · have hnone : (written d dataFile).get? "ElementNumberOfChannels" = none := by
      apply get?_written_none
      rw [writtenKeys, if_pos hone]
      decide
    rw [hnone, hone]
  · have hsome : (written d dataFile).get? "ElementNumberOfChannels" = some (toString d.components) :=
      get?_written (by simp [writtenFields, hone])
    obtain ⟨k, hk⟩ := Nat.exists_eq_succ_of_ne_zero (Nat.ne_of_gt h.components_pos)
    rw [hsome]
    dsimp only
    rw [Decimal.size?_toString h.components_lt, hk]
    rfl

/-- From a header that is written, what it keeps of the descriptor is read. -/
theorem descriptor_written (h : d.Storable) :
    (written d dataFile).descriptor = .ok d.kept := by
  have hobject : (written d dataFile).get? "ObjectType" = some "Image" :=
    get?_written (by simp [writtenFields])
  have hsize : (written d dataFile).required "DimSize" =
      .ok (String.intercalate " " (d.size.map toString)) :=
    required_written (by simp [writtenFields])
  rw [descriptor_ok, imageDescriptor_ok]
  refine ⟨?_, dimension_written h, ⟨_, hsize, ?_⟩, ?_, ?_, direction_written h, ?_,
    components_written h, ?_⟩
  · intro value hv
    rw [hobject, Option.some.injEq] at hv
    exact hv.symm
  · have hread := countedItems_sizes h.size_lt "DimSize"
    rwa [h.size_length] at hread
  · exact reals_written rfl (by simp [writtenFields]) h.spacing_number h.spacing_length _
  · exact reals_written rfl (by simp [writtenFields]) h.origin_number h.origin_length _
  · have htype : (written d dataFile).required "ElementType" = .ok d.elementType.name :=
      required_written (by simp [writtenFields])
    refine bind_eq_ok.mpr ⟨_, htype, ?_⟩
    rw [ElementType.ofName?_name]
    rfl
  · exact fits_of_bytes (ne_nil_of_length h.size_length h.dimension_pos) d.elementType.size_pos
      h.bytes_lt

end Header

end Descriptors

end Assay.Image
