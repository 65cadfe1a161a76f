import Assay.Proofs.Image.RoundTrip

namespace Assay.Image

open Assay.Text Assay.Path

section Places

/-- A relative name that a header can give for the file of its data. -/
structure IsDataFile (name : String) : Prop extends IsDataName name where
  filled : name.toList ≠ []
  relative : name.toList.head? ≠ some '/'
  elsewhere : sameLetters name "LOCAL" = false

/-- A tree holds an image at a path: a header of some lines, and the data behind it or in a file beside
it that it names. -/
inductive Stores (t : FileTree) (path : Path) (lines : List Bytes) (data : Bytes) : Prop
  | behind (header : t.read path =
      .ok (Header.complete lines ++ Header.dataFileLine "LOCAL" ++ data))
  | beside {front : List (List Char)} {last : List Char} {name : String} (ends : EndsIn path front last)
      (file : IsDataFile name)
      (header : t.read path = .ok (Header.complete lines ++ Header.dataFileLine name))
      (sibling : t.read ⟨String.ofList (joined (front ++ [name.toList]))⟩ = .ok data)

theorem Header.read_complete {lines : List Bytes} (h : ∀ line ∈ lines, Header.IsFrontLine line)
    {value : String} (hvalue : IsPart value.toList) (rest : Bytes) :
    Header.read (Header.complete lines ++ Header.dataFileLine value ++ rest) =
      Header.fieldsOf lines >>= fun read =>
        .ok ⟨(Header.dataFileKey, value) :: read.reverse, rest⟩ := by
  rw [Header.read, List.append_assoc, Header.readFrom_complete h]
  congr 1
  funext read
  rw [Header.readFrom_dataFile hvalue, List.append_nil]

/-- What is read when the header lines give some fields and the data are some bytes. -/
def readParts (path : Path) (fields : List (String × String)) (data : Bytes) :
    Except Failure Image := do
  let h : Header := ⟨fields.reverse, []⟩
  let d ← h.descriptor.mapError (Failure.imageHeader path)
  let pixels ← readSamples path h d data
  pure ⟨d, pixels⟩

variable {t t' : FileTree} {path : Path} {lines : List Bytes} {data : Bytes}

/-- The last line of a header tells where the data are and nothing else. -/
theorem read_of_stored {value : String} {rest : Bytes}
    (hl : ∀ line ∈ lines, Header.IsFrontLine line) (hvalue : IsPart value.toList)
    (hheader : t.read path = .ok (Header.complete lines ++ Header.dataFileLine value ++ rest))
    (hstored : ∀ fields, readStored t path ⟨(Header.dataFileKey, value) :: fields, rest⟩ = .ok data) :
    read t path = (Header.fieldsOf lines).mapError (Failure.imageHeader path) >>= fun fields =>
      readParts path fields data := by
  rw [read, hheader]
  change ((Header.read _).mapError (Failure.imageHeader path) >>= _) = _
  rw [Header.read_complete hl hvalue]
  cases Header.fieldsOf lines with
  | error fault => rfl
  | ok fields =>
    have hkeys : ∀ key, key ≠ Header.dataFileKey →
        Header.get? ⟨(Header.dataFileKey, value) :: fields.reverse, rest⟩ key =
          Header.get? ⟨fields.reverse, []⟩ key := by
      intro key hne
      have hother : (key == Header.dataFileKey) = false := beq_eq_false_iff_ne.mpr hne
      rw [Header.get?, Header.get?, List.lookup_cons, hother]
    -- neither the descriptor nor the samples are read from the key of the data file
    have hdescriptor : ∀ key ∈ Header.descriptorKeys, key ≠ Header.dataFileKey := by decide
    have hsamples : ∀ key ∈ Header.sampleKeys, key ≠ Header.dataFileKey := by decide
    have hpixels := readSamples_congr fun key hm => hkeys key (hsamples key hm)
    change ((Header.descriptor _).mapError (Failure.imageHeader path) >>= fun d =>
      readStored t path _ >>= fun raw => readSamples path _ d raw >>= fun pixels => pure _) =
        readParts path fields data
    rw [Header.descriptor_congr fun key hm => hkeys key (hdescriptor key hm), hstored, readParts]
    refine congrArg _ (funext fun d => ?_)
    change (readSamples path _ d data >>= fun pixels => pure _) = _
    rw [hpixels]

/-- What is read depends on the header lines and the data alone. -/
theorem Stores.read (hs : Stores t path lines data) (hl : ∀ line ∈ lines, Header.IsFrontLine line) :
    read t path = (Header.fieldsOf lines).mapError (Failure.imageHeader path) >>= fun fields =>
      readParts path fields data := by
  cases hs with
  | behind header =>
    refine read_of_stored hl (isPart_of_word (isWord_of_all (by decide) (by decide))) header ?_
    intro fields
    rw [readStored, Header.get?, List.lookup_cons_self]
    rfl
  | @beside front last name ends file header sibling =>
    have hpart : IsPart name.toList := ⟨file.filled, file.trimmed, file.unbroken⟩
    have hdata : t.read (dataPath path name) = .ok data := by
      have hread := FileTree.read_beside ends file.filled file.relative sibling
      rwa [Path.beside, String.ofList_toList] at hread
    rw [← List.append_nil (_ ++ _)] at header
    refine read_of_stored hl hpart header fun fields => ?_
    rw [readStored, Header.get?, List.lookup_cons_self]
    simp only [ofValue_file file.toIsDataName file.elsewhere, hdata]

end Places

section Forms

def turnedSamples (width : Nat) : Nat → Bytes → Bytes
  | 0, _ => []
  | count + 1, bytes => (bytes.take width).reverse ++ turnedSamples width count (bytes.drop width)

theorem length_turnedSamples {width count : Nat} {bytes : Bytes} (h : bytes.length = count * width) :
    (turnedSamples width count bytes).length = count * width := by
  induction count generalizing bytes with
  | zero => simp [turnedSamples]
  | succ count ih =>
    rw [Nat.succ_mul] at h
    have hrest : (bytes.drop width).length = count * width := by
      rw [List.length_drop]
      omega
    rw [turnedSamples, List.length_append, List.length_reverse, List.length_take, ih hrest, Nat.succ_mul]
    omega

theorem decodeSamples_turned (t : ElementType) {count : Nat} {bytes : Bytes}
    (h : bytes.length = count * t.size) :
    decodeSamples t true count (turnedSamples t.size count bytes) = decodeSamples t false count bytes := by
  induction count generalizing bytes with
  | zero => rfl
  | succ count ih =>
    rw [Nat.succ_mul] at h
    have hrest : (bytes.drop t.size).length = count * t.size := by
      rw [List.length_drop]
      omega
    -- the first sample keeps its place, so that the others start where they did
    have hfirst : (bytes.take t.size).reverse.length = t.size := by
      rw [List.length_reverse, List.length_take]
      omega
    rw [turnedSamples, decodeSamples, List.take_left' hfirst, List.drop_left' hfirst, ih hrest,
      decodeSamples, decodeSample, decodeSample, if_pos rfl, if_neg Bool.false_ne_true,
      List.reverse_reverse]

/-- The other forms of some data: the key and the value that tell the form, and the bytes that are
stored. -/
inductive Form (d : Descriptor) (data : Bytes) : String → String → Bytes → Prop
  | highFirst {key value : String}
      (order : key = "BinaryDataByteOrderMSB" ∨ key = "ElementByteOrderMSB")
      (yes : Header.isTrue value = true) :
      Form d data key value (turnedSamples d.elementType.size d.sampleCount data)
  | compressed {value : String} {stream : Bytes} (yes : Header.isTrue value = true)
      (decompressed : Zlib.decompress stream = .ok data) :
      Form d data "CompressedData" value stream
  | behind {value : String} {front : Bytes}
      (count : Decimal.integer? value.toList = some (front.length : Int)) (some : 0 < front.length) :
      Form d data "HeaderSize" value (front ++ data)
  | atEnd {value : String} {front : Bytes} (rest : Decimal.integer? value.toList = some (-1)) :
      Form d data "HeaderSize" value (front ++ data)

/-- A header gives a key a value and has the other values of another header. -/
structure Header.Extends (key value : String) (h h' : Header) : Prop where
  given : h'.get? key = some value
  others : ∀ other, other ≠ key → h'.get? other = h.get? other

variable {h h' : Header} {d : Descriptor} {data stored : Bytes} {key value : String}

theorem Header.Extends.flag (more : Header.Extends key value h h') {keys : List String}
    (hk : key ∉ keys) : h'.flag keys = h.flag keys := by
  refine Header.flag_congr fun other hm => more.others other ?_
  rintro rfl
  exact hk hm

theorem Header.Extends.flag_given (more : Header.Extends key value h h') {keys : List String}
    (hk : key ∈ keys) (hyes : Header.isTrue value = true) : h'.flag keys = true := by
  rw [Header.flag, List.any_eq_true]
  refine ⟨key, hk, ?_⟩
  rw [more.given]
  exact hyes

theorem Header.Extends.isBinary (more : Header.Extends key value h h') (hk : "BinaryData" ≠ key) :
    isBinary h' = isBinary h := by
  rw [Image.isBinary, Image.isBinary, more.others _ hk]

/-- Bytes that the size of what stands in front of the samples takes away do not matter. -/
theorem Plain.readSamples_skipped (plain : Plain h d) (more : Header.Extends "HeaderSize" value h h')
    (path : Path) (hskip : skipFront h' (d.sampleCount * d.elementType.size) stored = .ok data)
    (hlen : data.length = d.sampleCount * d.elementType.size) :
    Image.readSamples path h' d stored =
      .ok (decodeSamples d.elementType false d.sampleCount data) := by
  have hread := readBinary_of_skip path hskip hlen
  rw [more.flag (by decide), plain.lowFirst] at hread
  rw [Image.readSamples, more.isBinary (by decide), plain.binary, more.flag (by decide), plain.whole]
  exact hread

/-- From every form of some data, the same samples are read. -/
theorem Form.readSamples (form : Form d data key value stored) (plain : Plain h d)
    (more : Header.Extends key value h h') (path : Path)
    (hlen : data.length = d.sampleCount * d.elementType.size) :
    readSamples path h' d stored = .ok (decodeSamples d.elementType false d.sampleCount data) := by
  have hgiven := more.given
  cases form with
  | highFirst order yes =>
    have hkey : key ∈ ["BinaryDataByteOrderMSB", "ElementByteOrderMSB"] ∧ key ∉ ["CompressedData"] ∧
        "BinaryData" ≠ key ∧ "HeaderSize" ≠ key := by
      rcases order with rfl | rfl <;> decide
    obtain ⟨horder, hwhole, hbinary, hsize⟩ := hkey
    have hnone : h'.get? "HeaderSize" = none := by rw [more.others _ hsize, plain.atFront]
    have hread := readBinary_of_skip path (skipFront_none hnone _ _) (length_turnedSamples hlen)
    rw [more.flag_given horder yes, decodeSamples_turned _ hlen] at hread
    rw [Image.readSamples, more.isBinary hbinary, plain.binary, more.flag hwhole, plain.whole]
    exact hread
  | compressed yes decompressed =>
    have hnone : h'.get? "HeaderSize" = none := by rw [more.others _ (by decide), plain.atFront]
    have hread := readBinary_of_skip path (skipFront_none hnone _ data) hlen
    rw [more.flag (by decide), plain.lowFirst] at hread
    rw [Image.readSamples, more.isBinary (by decide), plain.binary,
      more.flag_given List.mem_cons_self yes]
    simp only [decompressed]
    exact hread
  | @behind value front count some =>
    refine plain.readSamples_skipped more path ?_ hlen
    rw [skipFront, hgiven]
    dsimp only
    rw [count]
    dsimp only
    rw [if_neg (by omega), if_pos (by omega), Int.toNat_natCast, List.drop_left]
  | @atEnd value front rest =>
    have henough : d.sampleCount * d.elementType.size ≤ (front ++ data).length := by
      rw [List.length_append, hlen]
      exact Nat.le_add_left _ _
    have hfront : (front ++ data).length - d.sampleCount * d.elementType.size = front.length := by
      rw [List.length_append, hlen, Nat.add_sub_cancel]
    refine plain.readSamples_skipped more path ?_ hlen
    rw [skipFront, hgiven]
    dsimp only
    rw [rest]
    dsimp only
    rw [if_pos ⟨rfl, henough⟩, hfront, List.drop_left]

theorem Form.key_ne (form : Form d data key value stored) :
    key ≠ Header.dataFileKey ∧ key ∉ Header.descriptorKeys := by
  cases form with
  | highFirst order yes => rcases order with rfl | rfl <;> decide
  | compressed yes decompressed => decide
  | behind count some => decide
  | atEnd rest => decide

theorem Header.Inserted.extends {lines more : List Bytes} {fields : List (String × String)}
    (hi : Header.Inserted (key, value) lines more) (h : Header.fieldsOf lines = .ok fields) :
    ∃ given, Header.fieldsOf more = .ok given ∧
      Header.Extends key value ⟨fields.reverse, []⟩ ⟨given.reverse, []⟩ := by
  obtain ⟨front, back, rfl, hmore, hback⟩ := hi.fieldsOf h
  have hnone : back.reverse.lookup key = none := by
    rw [List.lookup_eq_none_iff]
    intro other hm
    rw [bne_iff_ne]
    exact (hback other (List.mem_reverse.mp hm)).symm
  refine ⟨_, hmore, ?_, fun other hne => ?_⟩
  · rw [Header.get?, List.reverse_append, List.reverse_cons, List.append_assoc, List.lookup_append,
      hnone, Option.none_or]
    exact List.lookup_cons_self
  · have hother : (other == key) = false := beq_eq_false_iff_ne.mpr hne
    simp only [Header.get?, List.reverse_append, List.reverse_cons, List.append_assoc,
      List.lookup_append, List.singleton_append, List.lookup_cons, hother]

end Forms

section Images

variable {path : Path} {lines : List Bytes} {data : Bytes}

/-- The form in which an image is stored does not matter. -/
theorem read_of_stores (hl : ∀ line ∈ lines, Header.IsFrontLine line) :
    (∀ t t', Stores t path lines data → Stores t' path lines data → read t path = read t' path) ∧
    ∀ fields d, Header.fieldsOf lines = .ok fields → Plain ⟨fields.reverse, []⟩ d →
      data.length = d.sampleCount * d.elementType.size →
      ∀ key value stored more, Form d data key value stored →
        Header.Inserted (key, value) lines more →
        ∀ t t', Stores t path lines data → Stores t' path more stored →
          ∃ image, read t path = .ok image ∧ read t' path = .ok image := by
  constructor
  · intro t t' hs hs'
    rw [hs.read hl, hs'.read hl]
  · intro fields d hfields plain hlen key value stored more form hi t t' hs hs'
    obtain ⟨hkey, hdescriptor⟩ := form.key_ne
    obtain ⟨given, hgiven, hextends⟩ := hi.extends hfields
    have hsame : Header.descriptor ⟨given.reverse, []⟩ = .ok d := by
      rw [← plain.descriptor]
      exact Header.descriptor_congr fun other hm => hextends.others other fun he => hdescriptor (he ▸ hm)
    refine ⟨⟨d, decodeSamples d.elementType false d.sampleCount data⟩, ?_, ?_⟩
    · rw [hs.read hl, hfields]
      change readParts path fields data = _
      rw [readParts, plain.descriptor]
      change Image.readSamples path _ d data >>= _ = _
      rw [plain.readSamples path hlen]
      rfl
    · rw [hs'.read (hi.isFrontLine hkey hl), hgiven]
      change readParts path given stored = _
      rw [readParts, hsame]
      change Image.readSamples path _ d stored >>= _ = _
      rw [form.readSamples plain hextends path hlen]
      rfl

def pairLines : List Bytes :=
  ["NDims = 1", "DimSize = 2", "ElementType = MET_SHORT"].map Utf8.ofString

def pairFields : List (String × String) :=
  [("NDims", "1"), ("DimSize", "2"), ("ElementType", "MET_SHORT")]

def pairDescriptor : Descriptor :=
  ⟨1, [2], [1.0], [0.0], [1.0], .short, 1⟩

def pairData : Bytes := [1, 0, 0xFE, 0xFF]

def pairBehind (lines : List Bytes) (data : Bytes) : FileTree :=
  ⟨[(["a.mhd"], .file (Header.complete lines ++ Header.dataFileLine "LOCAL" ++ data) 0o644)], []⟩

def pairBeside (lines : List Bytes) (data : Bytes) : FileTree :=
  ⟨[(["a.mhd"], .file (Header.complete lines ++ Header.dataFileLine "a.raw") 0o644),
    (["a.raw"], .file data 0o644)], []⟩

theorem stores_pairBehind (lines : List Bytes) (data : Bytes) :
    Stores (pairBehind lines data) ⟨"a.mhd"⟩ lines data :=
  .behind rfl

theorem stores_pairBeside (lines : List Bytes) (data : Bytes) :
    Stores (pairBeside lines data) ⟨"a.mhd"⟩ lines data := by
  have hends : EndsIn ⟨"a.mhd"⟩ [] "a.mhd".toList :=
    ⟨by decide +kernel, isName_of_getLast (c := 'd') (by decide) (by decide) (by decide)⟩
  have hword : IsWord "a.raw".toList := isWord_of_all (by decide) (by decide)
  have hname : IsDataName "a.raw" := ⟨(isPart_of_word hword).trimmed, by decide, by decide, by decide⟩
  exact .beside hends ⟨hname, by decide, by decide, by decide⟩ rfl rfl

theorem plain_pair : Plain ⟨pairFields.reverse, []⟩ pairDescriptor where
  descriptor := by
    rw [Header.descriptor_ok, Header.imageDescriptor_ok]
    refine ⟨?_, rfl, ⟨_, rfl, rfl⟩, rfl, rfl, rfl, rfl, rfl, by decide +kernel⟩
    intro value hv
    cases hv
  binary := rfl
  whole := rfl
  lowFirst := rfl
  atFront := rfl

theorem inserted_pair {line : Bytes} {field : String × String} (hw : Header.lineFeed ∉ line)
    (hg : Header.firstField? line = .ok (some field)) :
    Header.Inserted field pairLines (pairLines ++ [line]) :=
  .later (.later (.later (.here hw hg (by simp))))

theorem read_of_stores_pair :
    read (pairBehind pairLines pairData) ⟨"a.mhd"⟩ = read (pairBeside pairLines pairData) ⟨"a.mhd"⟩ ∧
    (∃ image, read (pairBeside pairLines pairData) ⟨"a.mhd"⟩ = .ok image ∧
      read (pairBehind (pairLines ++ [Utf8.ofString "ElementByteOrderMSB = True"])
        [0, 1, 0xFF, 0xFE]) ⟨"a.mhd"⟩ = .ok image) ∧
    (∃ image, read (pairBehind pairLines pairData) ⟨"a.mhd"⟩ = .ok image ∧
      read (pairBeside (pairLines ++ [Utf8.ofString "CompressedData = True"])
        [0x78, 1, 1, 4, 0, 0xFB, 0xFF, 1, 0, 0xFE, 0xFF, 3, 3, 1, 0xFF]) ⟨"a.mhd"⟩ = .ok image) ∧
    (∃ image, read (pairBehind pairLines pairData) ⟨"a.mhd"⟩ = .ok image ∧
      read (pairBehind (pairLines ++ [Utf8.ofString "HeaderSize = 3"])
        [61, 10, 255, 1, 0, 0xFE, 0xFF]) ⟨"a.mhd"⟩ = .ok image) ∧
    ∃ image, read (pairBehind pairLines pairData) ⟨"a.mhd"⟩ = .ok image ∧
      read (pairBeside (pairLines ++ [Utf8.ofString "HeaderSize = -1"])
        [10, 1, 0, 0xFE, 0xFF]) ⟨"a.mhd"⟩ = .ok image := by
  have hlines : ∀ line ∈ pairLines, Header.IsFrontLine line := by
    have hfirst := @Header.isFrontLine_of_field (Utf8.ofString "NDims = 1") ("NDims", "1")
      (by decide +kernel) rfl (by decide)
    have hsecond := @Header.isFrontLine_of_field (Utf8.ofString "DimSize = 2") ("DimSize", "2")
      (by decide +kernel) rfl (by decide)
    have hthird := @Header.isFrontLine_of_field (Utf8.ofString "ElementType = MET_SHORT")
      ("ElementType", "MET_SHORT") (by decide +kernel) rfl (by decide)
    simp only [pairLines, List.map_cons, List.map_nil, List.forall_mem_cons]
    exact ⟨hfirst, hsecond, hthird, by simp⟩
  have hsame := @read_of_stores ⟨"a.mhd"⟩ pairLines pairData hlines
  have hforms := hsame.2 pairFields pairDescriptor rfl plain_pair rfl
  refine ⟨hsame.1 _ _ (stores_pairBehind _ _) (stores_pairBeside _ _), ?_, ?_, ?_, ?_⟩
  · exact hforms "ElementByteOrderMSB" "True" _ _ (.highFirst (.inr rfl) (by decide +kernel))
      (inserted_pair (by decide +kernel) rfl) _ _ (stores_pairBeside _ _) (stores_pairBehind _ _)
  · exact hforms "CompressedData" "True" _ _ (.compressed (by decide +kernel) (by decide +kernel))
      (inserted_pair (by decide +kernel) rfl) _ _ (stores_pairBehind _ _) (stores_pairBeside _ _)
  · exact hforms "HeaderSize" "3" _ _ (@Form.behind _ _ _ [61, 10, 255] (by decide +kernel) (by decide))
      (inserted_pair (by decide +kernel) rfl) _ _ (stores_pairBehind _ _) (stores_pairBehind _ _)
  · exact hforms "HeaderSize" "-1" _ _ (@Form.atEnd _ _ _ [10] (by decide +kernel))
      (inserted_pair (by decide +kernel) rfl) _ _ (stores_pairBehind _ _) (stores_pairBeside _ _)

end Images

end Assay.Image
