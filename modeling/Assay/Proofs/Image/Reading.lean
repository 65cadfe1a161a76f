import Assay.Image.Reader
import Assay.Proofs.Image.Header

namespace Assay.Image

namespace Header

section Keys

def descriptorKeys : List String :=
  ["ObjectType", "NDims", "DimSize", "ElementSpacing", "ElementSize", "Offset", "Origin", "Position",
    "TransformMatrix", "Rotation", "Orientation", "ElementType", "ElementNumberOfChannels"]

def sampleKeys : List String :=
  ["BinaryData", "CompressedData", "HeaderSize", "BinaryDataByteOrderMSB", "ElementByteOrderMSB"]

def knownKeys : List String :=
  dataFileKey :: (descriptorKeys ++ sampleKeys)

variable {h h' : Header}

theorem firstOf?_congr {keys : List String} (hk : ∀ key ∈ keys, h'.get? key = h.get? key) :
    h'.firstOf? keys = h.firstOf? keys := by
  induction keys with
  | nil => rfl
  | cons key rest ih =>
    have hrest := ih fun other hm => hk other (List.mem_cons_of_mem key hm)
    rw [firstOf?, firstOf?] at hrest
    rw [firstOf?, firstOf?, List.findSome?_cons, List.findSome?_cons, hk key List.mem_cons_self, hrest]

theorem flag_congr {keys : List String} (hk : ∀ key ∈ keys, h'.get? key = h.get? key) :
    h'.flag keys = h.flag keys := by
  rw [flag, flag, Bool.eq_iff_iff, List.any_eq_true, List.any_eq_true]
  constructor
  · rintro ⟨key, hm, hyes⟩
    exact ⟨key, hm, by rwa [← hk key hm]⟩
  · rintro ⟨key, hm, hyes⟩
    exact ⟨key, hm, by rwa [hk key hm]⟩

theorem descriptor_congr (hk : ∀ key ∈ descriptorKeys, h'.get? key = h.get? key) :
    h'.descriptor = h.descriptor := by
  have hfirst : ∀ keys, keys ⊆ descriptorKeys → h'.firstOf? keys = h.firstOf? keys := fun keys hsub =>
    firstOf?_congr fun key hm => hk key (hsub hm)
  simp only [descriptor, dimension, required, reals, direction, elementType, components,
    hk "ObjectType" (by decide), hk "NDims" (by decide), hk "DimSize" (by decide),
    hk "ElementType" (by decide), hk "ElementNumberOfChannels" (by decide),
    hfirst ["ElementSpacing", "ElementSize"] (by decide),
    hfirst ["Offset", "Origin", "Position"] (by decide),
    hfirst ["TransformMatrix", "Rotation", "Orientation"] (by decide)]

end Keys

end Header

/-- Two headers that agree on the keys of the samples have the same samples. -/
theorem readSamples_congr {h h' : Header} (hk : ∀ key ∈ Header.sampleKeys, h'.get? key = h.get? key)
    (path : Path) (d : Descriptor) (raw : Bytes) :
    readSamples path h' d raw = readSamples path h d raw := by
  have hflag : ∀ keys, keys ⊆ Header.sampleKeys → h'.flag keys = h.flag keys := fun keys hsub =>
    Header.flag_congr fun key hm => hk key (hsub hm)
  have hskip : ∀ needed bytes, skipFront h' needed bytes = skipFront h needed bytes := by
    intro needed bytes
    rw [skipFront, skipFront, hk "HeaderSize" (by decide)]
  have hbinary : ∀ bytes, readBinary path h' d bytes = readBinary path h d bytes := by
    intro bytes
    simp only [readBinary, hskip,
      hflag ["BinaryDataByteOrderMSB", "ElementByteOrderMSB"] (by decide)]
  have htext : isBinary h' = isBinary h := by
    rw [isBinary, isBinary, hk "BinaryData" (by decide)]
  rw [readSamples, readSamples, htext, hflag ["CompressedData"] (by decide), funext hbinary]

/-- What is read depends on the values of the known keys, the bytes behind the header, and the file that the
header names. -/
theorem read_congr {t t' : FileTree} {path : Path} {bytes bytes' : Bytes} {h h' : Header}
    (hbytes : t.read path = .ok bytes) (hbytes' : t'.read path = .ok bytes')
    (hh : Header.read bytes = .ok h) (hh' : Header.read bytes' = .ok h')
    (hk : ∀ key ∈ Header.knownKeys, h'.get? key = h.get? key) (hrest : h'.rest = h.rest)
    (hdata : ∀ value name, h.get? Header.dataFileKey = some value →
      Storage.ofValue value = .ok (.file name) →
      t'.read (dataPath path name) = t.read (dataPath path name)) :
    read t' path = read t path := by
  have hdescriptor : h'.descriptor = h.descriptor :=
    Header.descriptor_congr fun key hm =>
      hk key (List.mem_cons_of_mem _ (List.mem_append_left _ hm))
  have hsamples : ∀ d raw, readSamples path h' d raw = readSamples path h d raw :=
    readSamples_congr (fun key hm => hk key (List.mem_cons_of_mem _ (List.mem_append_right _ hm))) path
  have hstored : readStored t' path h' = readStored t path h := by
    rw [readStored, readStored, hk _ List.mem_cons_self, hrest]
    cases hvalue : h.get? Header.dataFileKey with
    | none => rfl
    | some value =>
      cases hplace : Storage.ofValue value with
      | error fault => simp only [hplace]
      | ok place =>
        cases place with
        | behindHeader => simp only [hplace]
        | file name => simp only [hplace, hdata value name hvalue hplace]
  simp only [read, hbytes, hbytes', Except.mapError, hh, hh', hdescriptor, hstored, hsamples, bind, pure,
    Except.bind]

section Plainly

variable {h : Header} {d : Descriptor} {data : Bytes}

/-- A header of an image whose samples are bytes with the low one first, neither compressed nor behind
others. -/
structure Plain (h : Header) (d : Descriptor) : Prop where
  descriptor : h.descriptor = .ok d
  binary : isBinary h = true
  whole : h.flag ["CompressedData"] = false
  lowFirst : h.flag ["BinaryDataByteOrderMSB", "ElementByteOrderMSB"] = false
  atFront : h.get? "HeaderSize" = none

theorem skipFront_none (hn : h.get? "HeaderSize" = none) (needed : Nat) (raw : Bytes) :
    skipFront h needed raw = .ok raw := by
  rw [skipFront, hn]

theorem readBinary_of_skip (path : Path) {raw : Bytes}
    (hskip : skipFront h (d.sampleCount * d.elementType.size) raw = .ok data)
    (hlen : data.length = d.sampleCount * d.elementType.size) :
    readBinary path h d raw = .ok (decodeSamples d.elementType
      (h.flag ["BinaryDataByteOrderMSB", "ElementByteOrderMSB"]) d.sampleCount data) := by
  rw [readBinary]
  simp only [hskip, hlen, Nat.lt_irrefl, if_false]

theorem Plain.readSamples (plain : Plain h d) (path : Path)
    (hlen : data.length = d.sampleCount * d.elementType.size) :
    readSamples path h d data = .ok (decodeSamples d.elementType false d.sampleCount data) := by
  have hread := readBinary_of_skip path (skipFront_none plain.atFront _ data) hlen
  rw [plain.lowFirst] at hread
  rw [Image.readSamples, plain.binary, plain.whole]
  exact hread

end Plainly

end Assay.Image
