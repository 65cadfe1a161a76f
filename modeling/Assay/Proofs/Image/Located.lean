import Assay.Proofs.Image.RoundTrip

namespace Assay.Image

open Assay.Text Assay.Path

namespace Header

/-- The value that a name has when it is read from the line that was written for it. -/
def readName (name : String) : String :=
  String.ofList (trim (name.toList.takeWhile (· ≠ '\n')))

theorem keeps_of_readName {name : String} (h : readName name = name) :
    IsTrimmed name.toList ∧ '\n' ∉ name.toList := by
  have htrim : trim (name.toList.takeWhile (· ≠ '\n')) = name.toList := by
    rw [← String.ofList_inj, String.ofList_toList]
    exact h
  have hline : name.toList.takeWhile (· ≠ '\n') = name.toList := by
    refine (List.takeWhile_sublist _).eq_of_length_le ?_
    conv_lhs => rw [← htrim]
    exact length_trim_le _
  rw [hline] at htrim
  refine ⟨isTrimmed_of_trim htrim, fun hm => ?_⟩
  rw [List.takeWhile_eq_self_iff] at hline
  simpa using hline _ hm

/-- The bytes of a text with a line feed behind it are its first line, a line feed, and what follows. -/
theorem encode_firstLine (s : List Char) :
    ∃ rest, Utf8.encode s ++ [lineFeed] =
      Utf8.encode (s.takeWhile (· ≠ '\n')) ++ lineFeed :: rest := by
  have hsplit := @List.takeWhile_append_dropWhile _ (· ≠ '\n') s
  cases hd : s.dropWhile (· ≠ '\n') with
  | nil =>
    rw [hd, List.append_nil] at hsplit
    exact ⟨[], by rw [hsplit]⟩
  | cons c more =>
    have hc : c = '\n' := by
      have hnot := List.head?_dropWhile_not (· ≠ '\n') s
      rw [hd] at hnot
      simpa using hnot
    rw [hd, hc] at hsplit
    refine ⟨Utf8.encode more ++ [lineFeed], ?_⟩
    conv_lhs => rw [← hsplit, Utf8.encode_append, List.append_assoc]
    rfl

theorem readFrom_dataFileLine (fields : List (String × String)) (name : String) :
    ∃ rest, readFrom fields (dataFileLine name) = .ok ⟨(dataFileKey, readName name) :: fields, rest⟩ := by
  obtain ⟨rest, hrest⟩ := encode_firstLine name.toList
  have hkey : IsWord dataFileKey.toList := isWord_of_all (by decide) (by decide)
  have hmark : '=' ∉ dataFileKey.toList := by decide
  have hline : '\n' ∉ dataFileKey.toList ++ [' ', '=', ' '] ++ name.toList.takeWhile (· ≠ '\n') := by
    rw [List.mem_append, not_or]
    refine ⟨by decide, fun hm => ?_⟩
    simpa using List.mem_takeWhile_imp hm
  have hfield : firstField? (Utf8.encode (dataFileKey.toList ++ [' ', '=', ' '] ++
      name.toList.takeWhile (· ≠ '\n'))) = .ok (some (dataFileKey, readName name)) := by
    rw [firstField?_encode hline, field?_trim hkey hmark, String.ofList_toList]
    rfl
  refine ⟨rest, ?_⟩
  rw [dataFileLine, ofString_headerLine, lineBytes, lineText, Utf8.encode_append, List.append_assoc,
    hrest, ← List.append_assoc, ← Utf8.encode_append]
  exact readFrom_last (Utf8.lineFeed_notMem_encode hline) hfield fields rest

end Header

section Locating

def Located (t : FileTree) (path : Path) (data : Bytes) : Prop :=
  ∃ header h value there mode, t.read path = .ok header ∧ Header.read header = .ok h ∧
    h.get? Header.dataFileKey = some value ∧ Storage.ofValue value = .ok (.file value) ∧
    t.find (path.withExtension dataExtension) = .ok (there, .file data mode) ∧
    t.find (dataPath path value) = .ok (there, .file data mode)

variable {t : FileTree} {path : Path} {front : List (List Char)} {last : List Char}
  {directory : Location} {d : Descriptor} {header data : Bytes}

theorem single_of_ofValue {name : String} (h : Storage.ofValue name = .ok (.file name)) :
    '%' ∉ name.toList ∧ ¬"LIST".toList <+: name.toList := by
  rw [Storage.ofValue] at h
  split_ifs at h with hlocal hseveral
  · cases h
  · rw [Bool.or_eq_true, not_or, List.isPrefixOf_iff_prefix, List.contains_iff_mem] at hseveral
    exact ⟨hseveral.2, hseveral.1⟩

theorem dot_mem_dataName (last : List Char) : '.' ∈ dataName last :=
  List.mem_append_right _ List.mem_cons_self

theorem Stands.data_at (h : Stands t path front last directory header data)
    (hsame : path.withExtension dataExtension = path → header = data) :
    ∃ mode, t.entryAt? (FileTree.below directory (dataName last)) = some (.file data mode) := by
  by_cases hnames : dataName last = last
  · have hdata := h.header
    rwa [hsame (h.dataName_eq_iff.mp hnames), ← hnames] at hdata
  · exact h.data hnames

theorem Stands.located (h : Stands t path front last directory
      (Utf8.ofString (headerText d (String.ofList (dataName last)))) data)
    (hd : d.Shaped) (hname : IsDataName (String.ofList (dataName last)))
    (hsame : path.withExtension dataExtension = path →
      Utf8.ofString (headerText d (String.ofList (dataName last))) = data) : Located t path data := by
  obtain ⟨mode, hheader⟩ := h.header
  obtain ⟨mode', hdata⟩ := h.data_at hsame
  obtain ⟨others, hbeside⟩ := h.there.beside h.here.ends
  have hdot : '.' ∈ (String.ofList (dataName last)).toList := by
    rw [String.toList_ofList]
    exact dot_mem_dataName last
  have hpart : IsPart (String.ofList (dataName last)).toList :=
    ⟨List.ne_nil_of_mem hdot, hname.trimmed, hname.unbroken⟩
  have hread : t.read path =
      .ok (Utf8.ofString (headerText d (String.ofList (dataName last)))) := by
    rw [FileTree.read, h.here.find hheader]
  exact ⟨_, _, _, _, mode', hread, Header.read_headerText hd hpart, List.lookup_cons_self,
    ofValue_name hname hdot, h.there.find hdata, hbeside.find hdata⟩

/-- Samples that are found again have a name that the header keeps and the reader takes. -/
theorem Stands.isDataName_of_located (h : Stands t path front last directory
      (Utf8.ofString (headerText d (String.ofList (dataName last)))) data)
    (hd : d.Shaped) (hl : Located t path data) :
    IsDataName (String.ofList (dataName last)) ∧
      (path.withExtension dataExtension = path →
        Utf8.ofString (headerText d (String.ofList (dataName last))) = data) := by
  obtain ⟨header, read, value, there, mode, hheader, hread, hvalue, htaken, hraw, hdata⟩ := hl
  obtain ⟨mode', hstored⟩ := h.header
  rw [FileTree.read, h.here.find hstored, Except.ok.injEq] at hheader
  subst hheader
  obtain ⟨rest, hline⟩ := Header.readFrom_dataFileLine (Header.writtenFields d).reverse
    (String.ofList (dataName last))
  rw [Header.readFrom_headerText hd, hline, Except.ok.injEq] at hread
  subst hread
  rw [Header.get?, List.lookup_cons_self, Option.some.injEq] at hvalue
  -- the value leads to the file of the samples, so that it is the name of this file
  have hslash : '/' ∉ value.toList := by
    rw [← hvalue, Header.readName, String.toList_ofList]
    intro hm
    have hsub := (trim_sublist _).trans
      (List.takeWhile_sublist (l := (String.ofList (dataName last)).toList) (· ≠ '\n'))
    have hname := hsub.subset hm
    rw [String.toList_ofList] at hname
    exact h.there.ends.name.whole hname
  have hthere : there = FileTree.below directory (dataName last) :=
    FileTree.step_name_ok h.there.ends.name
      (FileTree.step_of_find h.there.ends.parts h.there.leads hraw)
  have hbeside : t.find (path.beside value.toList) = .ok (there, .file data mode) := by
    rw [Path.beside, String.ofList_toList]
    exact hdata
  have hstep := FileTree.step_of_find_beside h.here.ends hslash h.here.leads hbeside
  rw [hthere] at hstep
  have hsame : value = String.ofList (dataName last) := by
    rw [← FileTree.eq_of_step_below hstep, String.ofList_toList]
  rw [hsame] at hvalue htaken
  obtain ⟨htrimmed, hunbroken⟩ := Header.keeps_of_readName hvalue
  obtain ⟨hsingle, hplain⟩ := single_of_ofValue htaken
  refine ⟨⟨htrimmed, hunbroken, hsingle, hplain⟩, fun hone => ?_⟩
  rw [hone, h.here.find hstored, Except.ok.injEq, Prod.mk.injEq, Entry.file.injEq] at hraw
  exact hraw.2.1

theorem stands_of_written {t' : FileTree} {image : Image} (hw : write t path image = .ok (t', .ok ())) :
    ∃ front last directory,
      (path.withExtension dataExtension).fileName? = some (String.ofList (dataName last)) ∧
      Stands t' path front last directory
        (Utf8.ofString (headerText image.descriptor (String.ofList (dataName last))))
        (encodeSamples image.descriptor.elementType image.pixels) := by
  obtain ⟨name, between, hn, hdata, hheader⟩ := write_eq_ok hw
  obtain ⟨front, last, directory, hstands, -⟩ := stands_of_write hdata hheader
  have hname := hstands.there.ends.fileName
  obtain rfl : name = String.ofList (dataName last) := by rwa [hn, Option.some.injEq] at hname
  exact ⟨front, last, directory, hname, hstands⟩

/-- What is written for an image is found again exactly when the header keeps the name of the file of the
samples, the reader takes it for the name of a single file, and the header has not replaced this file by
anything else than the samples. -/
theorem located_iff {t' : FileTree} {image : Image} (hd : image.descriptor.Shaped)
    (hw : write t path image = .ok (t', .ok ())) :
    ∃ name, (path.withExtension dataExtension).fileName? = some name ∧
      (Located t' path (encodeSamples image.descriptor.elementType image.pixels) ↔
        IsDataName name ∧ (path.withExtension dataExtension = path →
          Utf8.ofString (headerText image.descriptor name) =
            encodeSamples image.descriptor.elementType image.pixels)) := by
  obtain ⟨front, last, directory, hname, hstands⟩ := stands_of_written hw
  exact ⟨_, hname, fun hl => hstands.isDataName_of_located hd hl,
    fun ⟨hname, hsame⟩ => hstands.located hd hname hsame⟩

theorem located_iff_turned :
    ∃ t', write ⟨[], []⟩ ⟨"turned.mhd"⟩ turned = .ok (t', .ok ()) ∧
      Located t' ⟨"turned.mhd"⟩ (encodeSamples .short turned.pixels) := by
  obtain ⟨t', hw⟩ := write_succeeds (show succeeds (write ⟨[], []⟩ ⟨"turned.mhd"⟩ turned) = true by
    decide +kernel)
  obtain ⟨name, hname, hiff⟩ := located_iff recoverable_turned.storable.toShaped hw
  have hfile : (Path.withExtension ⟨"turned.mhd"⟩ dataExtension).fileName? = some "turned.raw" := by
    decide +kernel
  have hne : Path.withExtension ⟨"turned.mhd"⟩ dataExtension ≠ ⟨"turned.mhd"⟩ := by decide +kernel
  obtain rfl : name = "turned.raw" := Option.some.inj (hname.symm.trans hfile)
  have hword : IsWord "turned.raw".toList := isWord_of_all (by decide) (by decide)
  exact ⟨t', hw, hiff.mpr ⟨⟨(isPart_of_word hword).trimmed, by decide, by decide, by decide⟩,
    fun he => absurd he hne⟩⟩

/-- The samples of an image that is written to a name like that of a list, or to the name of their own
file, are not found again. -/
theorem not_located :
    (∃ t', write ⟨[], []⟩ ⟨"LISTED.mhd"⟩ turned = .ok (t', .ok ()) ∧
      ¬Located t' ⟨"LISTED.mhd"⟩ (encodeSamples .short turned.pixels)) ∧
    ∃ t', write ⟨[], []⟩ ⟨"x.raw"⟩ turned = .ok (t', .ok ()) ∧
      ¬Located t' ⟨"x.raw"⟩ (encodeSamples .short turned.pixels) := by
  have hshaped := recoverable_turned.storable.toShaped
  constructor
  · obtain ⟨t', hw⟩ := write_succeeds (show succeeds (write ⟨[], []⟩ ⟨"LISTED.mhd"⟩ turned) = true by
      decide +kernel)
    obtain ⟨front, last, directory, hname, hstands⟩ := stands_of_written hw
    have hfile : (Path.withExtension ⟨"LISTED.mhd"⟩ dataExtension).fileName? = some "LISTED.raw" := by
      decide +kernel
    refine ⟨t', hw, fun hl => ?_⟩
    have hplain := (hstands.isDataName_of_located hshaped hl).1.plain
    rw [← Option.some.inj (hfile.symm.trans hname)] at hplain
    exact hplain (by decide)
  · obtain ⟨t', hw⟩ := write_succeeds (show succeeds (write ⟨[], []⟩ ⟨"x.raw"⟩ turned) = true by
      decide +kernel)
    obtain ⟨front, last, directory, hname, hstands⟩ := stands_of_written hw
    have hfile : (Path.withExtension ⟨"x.raw"⟩ dataExtension).fileName? = some "x.raw" := by
      decide +kernel
    refine ⟨t', hw, fun hl => ?_⟩
    have hsame := (hstands.isDataName_of_located hshaped hl).2 (by decide +kernel)
    rw [← Option.some.inj (hfile.symm.trans hname)] at hsame
    have hdiffers : Utf8.ofString (headerText turned.descriptor "x.raw") ≠
        encodeSamples .short turned.pixels := by decide +kernel
    exact hdiffers hsame

end Locating

end Assay.Image
