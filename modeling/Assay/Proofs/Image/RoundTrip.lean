import Assay.Proofs.FileTree
import Assay.Proofs.Image.Reading
import Assay.Proofs.Image.Samples
import Assay.Proofs.Image.Written

namespace Assay.Image

open Assay.Text Assay.Path

section Files

/-- A file name that a header can give: it keeps its ends, stands on one line and does not mean several
files. -/
structure IsDataName (name : String) : Prop where
  trimmed : IsTrimmed name.toList
  unbroken : '\n' ∉ name.toList
  single : '%' ∉ name.toList
  plain : ¬"LIST".toList <+: name.toList

/-- The name of a file is not taken for anything else. -/
theorem ofValue_file {name : String} (h : IsDataName name) (hlocal : sameLetters name "LOCAL" = false) :
    Storage.ofValue name = .ok (.file name) := by
  have hlist : ("LIST".toList.isPrefixOf name.toList || name.toList.contains '%') = false := by
    rw [Bool.or_eq_false_iff, ← Bool.not_eq_true, ← Bool.not_eq_true, List.isPrefixOf_iff_prefix,
      List.contains_iff_mem]
    exact ⟨h.plain, h.single⟩
  rw [Storage.ofValue, if_neg (by rw [hlocal]; exact Bool.false_ne_true),
    if_neg (by rw [hlist]; exact Bool.false_ne_true)]

/-- A data file's name with a dot does not mean that the data stand behind the header. -/
theorem ofValue_name {name : String} (h : IsDataName name) (hdot : '.' ∈ name.toList) :
    Storage.ofValue name = .ok (.file name) := by
  apply ofValue_file h
  rw [sameLetters, beq_eq_false_iff_ne]
  intro he
  have hm : '.' ∈ lowerAscii name.toList := List.mem_map.mpr ⟨'.', hdot, rfl⟩
  rw [he] at hm
  exact absurd hm (by decide)

theorem slash_notMem_stem {name : List Char} (h : '/' ∉ name) : '/' ∉ stem name := by
  intro hm
  rw [stem] at hm
  split_ifs at hm with hempty
  · exact h hm
  · have hrest := List.mem_of_mem_drop (List.mem_reverse.mp hm)
    exact h (List.mem_reverse.mp ((List.dropWhile_sublist _).subset hrest))

def dataName (name : List Char) : List Char :=
  stem name ++ '.' :: dataExtension.toList

theorem isName_dataName {name : List Char} (h : IsName name) : IsName (dataName name) := by
  refine isName_of_getLast (c := 'w') ?_ (by decide) ?_
  · rw [dataName, List.getLast?_append_of_ne_nil _ (by simp)]
    rfl
  · rw [dataName, List.mem_append, not_or]
    exact ⟨slash_notMem_stem h.whole, by decide⟩

/-- The two files of an image, once they have been written, stand below one directory. Under one name,
the header takes the place of the samples. -/
structure Stands (t : FileTree) (path : Path) (front : List (List Char)) (last : List Char)
    (directory : Location) (header data : Bytes) : Prop where
  here : FileTree.Target t path front last directory
  there : FileTree.Target t (path.withExtension dataExtension) front (dataName last) directory
  header : ∃ mode, t.entryAt? (FileTree.below directory last) = some (.file header mode)
  data : dataName last ≠ last →
    ∃ mode, t.entryAt? (FileTree.below directory (dataName last)) = some (.file data mode)

/-- Two files that are written for an image stand below one directory, and all others stay. -/
theorem stands_of_write {t between t' : FileTree} {path : Path} {header data : Bytes}
    (hdata : t.write (path.withExtension dataExtension) data = .ok between)
    (hheader : between.write path header = .ok t') :
    ∃ front last directory, Stands t' path front last directory header data ∧
      t.SameOutside [FileTree.below directory last, FileTree.below directory (dataName last)] t' := by
  obtain ⟨front, last, directory, mode, hp, rfl⟩ := FileTree.write_ok hheader
  obtain ⟨front', last', directory', mode', hr, rfl⟩ := FileTree.write_ok hdata
  have hraw : EndsIn (path.withExtension dataExtension) front (dataName last) := by
    rw [hp.ends.withExtension]
    exact endsIn_joined hp.ends.slash_notMem (isName_dataName hp.ends.name)
  obtain ⟨rfl, hlast⟩ := List.append_inj' (hr.ends.parts.symm.trans hraw.parts) rfl
  obtain rfl : last' = dataName last := by simpa using hlast
  have hsibling := @FileTree.Target.put _ _ _ _ _ data mode' hr _ hr.free
  obtain rfl := hsibling.same_directory hp
  -- the header does not move the file of the samples
  refine ⟨front', last, directory', ⟨hp.put hp.free, hsibling.put hp.free, ⟨mode, ?_⟩, ?_⟩, rfl, ?_⟩
  · exact FileTree.entryAt?_put_self (FileTree.ne_nil_of_ne_directory hp.free) _
  · intro hnames
    refine ⟨mode', ?_⟩
    rw [FileTree.entryAt?_put_ne (FileTree.below_ne hnames),
      FileTree.entryAt?_put_self (FileTree.ne_nil_of_ne_directory hr.free)]
  · intro location hm
    rw [List.mem_cons, List.mem_singleton, not_or] at hm
    rw [FileTree.entryAt?_put_ne hm.1, FileTree.entryAt?_put_ne hm.2]

theorem Stands.dataName_eq_iff {t : FileTree} {path : Path} {front : List (List Char)}
    {last : List Char} {directory : Location} {header data : Bytes}
    (h : Stands t path front last directory header data) :
    dataName last = last ↔ path.withExtension dataExtension = path := by
  rw [h.here.ends.withExtension, ← dataName]
  constructor
  · intro he
    rw [he, ← h.here.ends.text, String.ofList_toList]
  · intro he
    have hparts := h.there.ends.parts
    rw [h.here.ends.withExtension, ← dataName, he, h.here.ends.parts] at hparts
    simpa using hparts.symm

/-- The two files of an image, once they have been written, with the locations at which they stand. -/
structure Holds (t : FileTree) (path : Path) (name : List Char) (header data : Bytes)
    (here there : Location) : Prop where
  header : ∃ mode, t.find path = .ok (here, .file header mode)
  sibling : ∃ mode, t.find (path.withExtension dataExtension) = .ok (there, .file data mode)
  data : ∃ mode, t.find (dataPath path (String.ofList name)) = .ok (there, .file data mode)

/-- Two files with different names that are written for an image stand beside each other. -/
theorem Stands.holds {t : FileTree} {path : Path} {front : List (List Char)} {last : List Char}
    {directory : Location} {header data : Bytes} (h : Stands t path front last directory header data)
    (hne : path.withExtension dataExtension ≠ path) :
    Holds t path (dataName last) header data (FileTree.below directory last)
      (FileTree.below directory (dataName last)) := by
  obtain ⟨mode, hheader⟩ := h.header
  obtain ⟨mode', hdata⟩ := h.data fun he => hne (h.dataName_eq_iff.mp he)
  obtain ⟨others, hbeside⟩ := h.there.beside h.here.ends
  exact ⟨⟨mode, h.here.find hheader⟩, ⟨mode', h.there.find hdata⟩, ⟨mode', hbeside.find hdata⟩⟩

end Files

section Samples

variable {d : Descriptor} {name : String}

/-- A header that is written tells that the samples are stored plainly. -/
theorem plain_written (h : d.Storable) : Plain (Header.written d name) d.kept := by
  have hbinary : (Header.written d name).get? "BinaryData" = some "True" :=
    Header.get?_written (by simp [Header.writtenFields])
  have hcompressed : (Header.written d name).get? "CompressedData" = some "False" :=
    Header.get?_written (by simp [Header.writtenFields])
  have horder : (Header.written d name).get? "BinaryDataByteOrderMSB" = some "False" :=
    Header.get?_written (by simp [Header.writtenFields])
  have hother : (Header.written d name).get? "ElementByteOrderMSB" = none := by
    apply Header.get?_written_none
    rw [Header.writtenKeys]
    split_ifs <;> decide
  have hsize : (Header.written d name).get? "HeaderSize" = none := by
    apply Header.get?_written_none
    rw [Header.writtenKeys]
    split_ifs <;> decide
  refine ⟨Header.descriptor_written h, ?_, ?_, ?_, hsize⟩
  · rw [isBinary, hbinary]
    rfl
  · rw [Header.flag, List.any_cons, hcompressed]
    rfl
  · rw [Header.flag, List.any_cons, List.any_cons, horder, hother]
    rfl

/-- The samples of an image are read from the bytes that were written for them. -/
theorem readSamples_written (hd : d.Storable) (path : Path) {xs : List Float}
    (h : xs.length = d.sampleCount) :
    readSamples path (Header.written d name) d.kept (encodeSamples d.elementType xs) =
      .ok (xs.map (stored d.elementType)) := by
  have hcount : d.kept.sampleCount = xs.length := h.symm
  have hlen : (encodeSamples d.elementType xs).length =
      d.kept.sampleCount * d.kept.elementType.size := by
    rw [length_encodeSamples, hcount]
    rfl
  rw [(plain_written hd).readSamples path hlen, hcount]
  exact congrArg Except.ok (decodeSamples_encodeSamples d.elementType xs)

theorem map_beq {f : Float → Float} {xs : List Float} (h : ∀ x ∈ xs, (f x == x) = true) :
    (xs.map f == xs) = true := by
  induction xs with
  | nil => rfl
  | cons x rest ih =>
    rw [List.map_cons, List.cons_beq_cons, Bool.and_eq_true]
    exact ⟨h x List.mem_cons_self, ih fun y hy => h y (List.mem_cons_of_mem x hy)⟩

/-- What a header keeps of a descriptor is equal to it. -/
theorem descriptor_kept_beq (h : d.Storable) : (d.kept == d) = true := by
  have hspacing : (d.spacing.map kept == d.spacing) = true :=
    map_beq fun x hx => kept_beq (h.spacing_number x hx)
  have horigin : (d.origin.map kept == d.origin) = true :=
    map_beq fun x hx => kept_beq (h.origin_number x hx)
  have hdirection : (d.direction.map kept == d.direction) = true :=
    map_beq fun x hx => kept_beq (h.direction_number x hx)
  change (d.dimension == d.dimension && d.size == d.size && d.spacing.map kept == d.spacing &&
    d.origin.map kept == d.origin && d.direction.map kept == d.direction &&
    d.elementType == d.elementType && d.components == d.components) = true
  rw [hspacing, horigin, hdirection]
  simp

end Samples

section Images

/-- An image that its files hold completely: each sample is one that its stored type keeps. -/
structure Recoverable (image : Image) : Prop where
  storable : image.descriptor.Storable
  pixels_length : image.pixels.length = image.descriptor.sampleCount
  kept : ∀ x ∈ image.pixels, (stored image.descriptor.elementType x == x) = true

/-- A successful write writes the samples and then the header. -/
theorem write_eq_ok {t t' : FileTree} {path : Path} {image : Image}
    (h : write t path image = .ok (t', .ok ())) :
    ∃ name between, (path.withExtension dataExtension).fileName? = some name ∧
      t.write (path.withExtension dataExtension)
        (encodeSamples image.descriptor.elementType image.pixels) = .ok between ∧
      between.write path (Utf8.ofString (headerText image.descriptor name)) = .ok t' := by
  rw [write] at h
  cases hf : files path image with
  | error failure =>
    rw [hf] at h
    cases h
  | ok f =>
    simp only [hf] at h
    split_ifs at h with hdirection
    rw [files] at hf
    split_ifs at hf with hlength
    cases hn : (path.withExtension dataExtension).fileName? with
    | none => simp [hn] at hf
    | some name =>
      simp only [hn, Except.ok.injEq] at hf
      subst hf
      rw [Except.ok.injEq, Files.write] at h
      dsimp only at h
      cases hd : t.write (path.withExtension dataExtension)
          (encodeSamples image.descriptor.elementType image.pixels) with
      | error c => simp [hd] at h
      | ok between =>
        simp only [hd] at h
        cases hh : between.write path (Utf8.ofString (headerText image.descriptor name)) with
        | error c => simp [hh] at h
        | ok last =>
          simp only [hh, Prod.mk.injEq, and_true] at h
          exact ⟨name, between, rfl, rfl, by rw [hh, h]⟩

/-- What is read from the two files of an image is what they keep of it. -/
theorem read_of_holds {t : FileTree} {path : Path} {image : Image} {name : List Char}
    {here there : Location} (hd : image.descriptor.Storable)
    (hp : image.pixels.length = image.descriptor.sampleCount)
    (hname : IsDataName (String.ofList name)) (hdot : '.' ∈ name)
    (hf : Holds t path name (Utf8.ofString (headerText image.descriptor (String.ofList name)))
      (encodeSamples image.descriptor.elementType image.pixels) here there) :
    read t path =
      .ok ⟨image.descriptor.kept, image.pixels.map (stored image.descriptor.elementType)⟩ := by
  obtain ⟨mode, hheader⟩ := hf.header
  obtain ⟨mode', hdata⟩ := hf.data
  have hdot' : '.' ∈ (String.ofList name).toList := by rwa [String.toList_ofList]
  have hpart : IsPart (String.ofList name).toList :=
    ⟨List.ne_nil_of_mem hdot', hname.trimmed, hname.unbroken⟩
  have hbytes : t.read path =
      .ok (Utf8.ofString (headerText image.descriptor (String.ofList name))) := by
    rw [FileTree.read, hheader]
  have hstored : readStored t path (Header.written image.descriptor (String.ofList name)) =
      .ok (encodeSamples image.descriptor.elementType image.pixels) := by
    have hvalue : (Header.written image.descriptor (String.ofList name)).get? Header.dataFileKey =
        some (String.ofList name) := List.lookup_cons_self
    have hread : t.read (dataPath path (String.ofList name)) =
        .ok (encodeSamples image.descriptor.elementType image.pixels) := by
      rw [FileTree.read, hdata]
    rw [readStored, hvalue]
    simp only [ofValue_name hname hdot', hread]
  rw [read, hbytes]
  refine bind_eq_ok.mpr ⟨_, rfl, bind_eq_ok.mpr ⟨_, ?_, bind_eq_ok.mpr ⟨_, ?_,
    bind_eq_ok.mpr ⟨_, hstored, bind_eq_ok.mpr ⟨_, readSamples_written hd path hp, rfl⟩⟩⟩⟩⟩
  · rw [Header.read_headerText hd.toShaped hpart]
    rfl
  · rw [Header.descriptor_written hd]
    rfl

/-- An image that is written is read back, and only its two files have changed. -/
theorem read_of_write {t t' : FileTree} {path : Path} {image : Image} (hi : image.Recoverable)
    (hname : ∀ name, (path.withExtension dataExtension).fileName? = some name → IsDataName name)
    (hne : path.withExtension dataExtension ≠ path)
    (hw : write t path image = .ok (t', .ok ())) :
    (∃ back, read t' path = .ok back ∧ (back.descriptor == image.descriptor) = true ∧
      (back.pixels == image.pixels) = true) ∧
    ∃ here there, (∃ e, t'.find path = .ok (here, e)) ∧
      (∃ e, t'.find (path.withExtension dataExtension) = .ok (there, e)) ∧
      t.SameOutside [here, there] t' := by
  obtain ⟨name, between, hn, hdata, hheader⟩ := write_eq_ok hw
  obtain ⟨front, last, directory, hstands, hsame⟩ := stands_of_write hdata hheader
  have hholds := hstands.holds hne
  obtain rfl : name = String.ofList (dataName last) := by
    have hn' := hstands.there.ends.fileName
    rwa [hn, Option.some.injEq] at hn'
  have hdot : '.' ∈ dataName last := List.mem_append_right _ List.mem_cons_self
  have hread := read_of_holds hi.storable hi.pixels_length (hname _ hn) hdot hholds
  obtain ⟨mode, hfirst⟩ := hholds.header
  obtain ⟨mode', hsecond⟩ := hholds.sibling
  exact ⟨⟨_, hread, descriptor_kept_beq hi.storable, map_beq hi.kept⟩, _, _, ⟨_, hfirst⟩,
    ⟨_, hsecond⟩, hsame⟩

def succeeds : Except Defect (FileTree × Except Failure Unit) → Bool
  | .ok (_, .ok _) => true
  | _ => false

theorem write_succeeds {result : Except Defect (FileTree × Except Failure Unit)}
    (h : succeeds result = true) : ∃ t', result = .ok (t', .ok ()) := by
  match result, h with
  | .ok (t', .ok ()), _ => exact ⟨t', rfl⟩

def turned : Image where
  descriptor :=
    { dimension := 2
      size := [2, 1]
      spacing := [1.0, 0.5]
      origin := [-0.0, 3.0]
      direction := [0.0, 1.0, -1.0, 0.0]
      elementType := .short
      components := 1 }
  pixels := [1.0, -2.0]

theorem recoverable_turned : turned.Recoverable where
  storable := {
    dimension_pos := by decide
    size_length := rfl
    spacing_length := rfl
    origin_length := rfl
    direction_length := rfl
    components_pos := by decide
    dimension_lt := by decide
    size_lt := by decide
    components_lt := by decide
    bytes_lt := by decide
    spacing_number := by decide +kernel
    origin_number := by decide +kernel
    direction_number := by decide +kernel }
  pixels_length := rfl
  kept := by decide +kernel

theorem read_of_write_turned :
    ∃ t', write ⟨[], []⟩ ⟨"turned.mhd"⟩ turned = .ok (t', .ok ()) ∧
      (∃ back, read t' ⟨"turned.mhd"⟩ = .ok back ∧ (back.descriptor == turned.descriptor) = true ∧
        (back.pixels == turned.pixels) = true) ∧
      ∃ here there, (∃ e, t'.find ⟨"turned.mhd"⟩ = .ok (here, e)) ∧
        (∃ e, t'.find (Path.withExtension ⟨"turned.mhd"⟩ dataExtension) = .ok (there, e)) ∧
        FileTree.SameOutside [here, there] ⟨[], []⟩ t' := by
  have hfile : (Path.withExtension ⟨"turned.mhd"⟩ dataExtension).fileName? = some "turned.raw" := by
    decide +kernel
  have hname : ∀ name, (Path.withExtension ⟨"turned.mhd"⟩ dataExtension).fileName? = some name →
      IsDataName name := by
    intro name hn
    rw [hfile, Option.some.injEq] at hn
    rw [← hn]
    have hword : IsWord "turned.raw".toList := isWord_of_all (by decide) (by decide)
    exact ⟨(isPart_of_word hword).trimmed, by decide, by decide, by decide⟩
  have hne : Path.withExtension ⟨"turned.mhd"⟩ dataExtension ≠ ⟨"turned.mhd"⟩ := by decide +kernel
  obtain ⟨t', hw⟩ := write_succeeds (show succeeds (write ⟨[], []⟩ ⟨"turned.mhd"⟩ turned) = true by
    decide +kernel)
  exact ⟨t', hw, read_of_write recoverable_turned hname hne hw⟩

end Images

end Assay.Image
