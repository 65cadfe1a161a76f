import Mathlib
import Assay.Proofs.Image.Safety

namespace Assay.Image

variable {t : FileTree} {path : Path} {h : Header} {d : Descriptor} {image : Image} {raw : Bytes}

/-- Whether the file that a path leads to starts with the lines of a header. -/
def Headed (t : FileTree) (path : Path) (h : Header) : Prop :=
  ∃ bytes, t.read path = .ok bytes ∧ Header.read bytes = .ok h

theorem Headed.unique {other : Header} (hh : Headed t path h) (ho : Headed t path other) :
    h = other := by
  obtain ⟨bytes, hb, hh⟩ := hh
  obtain ⟨bytes', hb', ho⟩ := ho
  obtain rfl : bytes = bytes' := Except.ok.inj (hb.symm.trans hb')
  exact Except.ok.inj (hh.symm.trans ho)

/-- Every part of an image that is read has been read. -/
theorem parts_of_read (hr : read t path = .ok image) :
    ∃ h raw, Headed t path h ∧ h.descriptor = .ok image.descriptor ∧ readStored t path h = .ok raw ∧
      readSamples path h image.descriptor raw = .ok image.pixels := by
  obtain ⟨bytes, hb, hr⟩ := bind_eq_ok.mp hr
  obtain ⟨h, hh, hr⟩ := bind_eq_ok.mp hr
  obtain ⟨d, hd, hr⟩ := bind_eq_ok.mp hr
  obtain ⟨raw, hraw, hr⟩ := bind_eq_ok.mp hr
  obtain ⟨pixels, hpixels, hr⟩ := bind_eq_ok.mp hr
  cases hr
  exact ⟨h, raw, ⟨bytes, mapError_ok hb, mapError_ok hh⟩, mapError_ok hd, hraw, hpixels⟩

section Fields

theorem Header.get?_of_required {key value : String} (hr : h.required key = .ok value) :
    h.get? key = some value := by
  rw [required] at hr
  split at hr
  · cases hr
  · rename_i found hf
    cases hr
    exact hf

/-- The type of a descriptor is the one that the header names. -/
theorem Header.ofName?_of_descriptor {name : String} (hd : h.descriptor = .ok d)
    (hn : h.get? "ElementType" = some name) : ElementType.ofName? name = some d.elementType := by
  obtain ⟨_, _, _, _, _, htype, _, _⟩ := imageDescriptor_ok.mp (descriptor_ok.mp hd).2
  obtain ⟨value, hvalue, htype⟩ := bind_eq_ok.mp htype
  obtain rfl : name = value := Option.some.inj (hn.symm.trans (get?_of_required hvalue))
  cases hof : ElementType.ofName? name with
  | none =>
    rw [hof] at htype
    cases htype
  | some type =>
    rw [hof] at htype
    cases htype
    rfl

/-- The products of the first sizes are sizes when those that are checked are, which start with no less. -/
theorem Header.product_take_lt {a c width : Nat} {sizes : List Nat} (ha : a ≤ c)
    (hlt : a < Decimal.sizeLimit) (hf : fits c sizes width = true) (axes : Nat) :
    a * (sizes.take axes).prod < Decimal.sizeLimit := by
  induction sizes generalizing a c axes with
  | nil => simpa using hlt
  | cons n rest ih =>
    cases axes with
    | zero => simpa using hlt
    | succ axes =>
      obtain ⟨hn, hrest⟩ := fits_cons.mp hf
      have hle : a * n ≤ c * n := Nat.mul_le_mul_right n ha
      rw [List.take_succ_cons, List.prod_cons, ← Nat.mul_assoc]
      exact ih hle (Nat.lt_of_le_of_lt hle hn) hrest axes

/-- No product of the first sizes that the header of a descriptor lists is too large. -/
theorem Header.product_sizes_lt {value : String} {sizes : List Nat} (hd : h.descriptor = .ok d)
    (hv : h.get? "DimSize" = some value)
    (hs : items Decimal.size? "DimSize" value.toList = .ok sizes) (axes : Nat) :
    (sizes.take axes).prod < Decimal.sizeLimit := by
  obtain ⟨_, ⟨found, hfound, hsize⟩, _, _, _, _, hcomponents, hfits⟩ :=
    imageDescriptor_ok.mp (descriptor_ok.mp hd).2
  obtain rfl : value = found := Option.some.inj (hv.symm.trans (get?_of_required hfound))
  obtain rfl : sizes = d.size := Except.ok.inj (hs.symm.trans (countedItems_ok.mp hsize).1)
  simpa using product_take_lt (components_pos hcomponents) (by decide) hfits axes

end Fields

section Samples

def unpacked (h : Header) (raw : Bytes) : Except Zlib.Fault Bytes :=
  if h.flag ["CompressedData"] then Zlib.decompress raw else .ok raw

theorem length_skipFront {needed : Nat} {content bytes : Bytes}
    (hs : skipFront h needed content = .ok bytes) : bytes.length ≤ content.length := by
  rw [skipFront] at hs
  split at hs
  · cases hs
    exact Nat.le_refl _
  · split at hs
    · cases hs
    · split_ifs at hs <;> cases hs
      · exact (List.drop_sublist _ _).length_le
      · exact (List.drop_sublist _ _).length_le
      · exact Nat.le_refl _

/-- Samples that are stored as bytes are there in full once they are unpacked. -/
theorem unpacked_of_readSamples {pixels : List Float} (hb : isBinary h = true)
    (hs : readSamples path h d raw = .ok pixels) :
    ∃ content, unpacked h raw = .ok content ∧
      d.sampleCount * d.elementType.size ≤ content.length := by
  have hfull : ∀ content, readBinary path h d content = .ok pixels →
      d.sampleCount * d.elementType.size ≤ content.length := by
    intro content hc
    rw [readBinary] at hc
    split at hc
    · cases hc
    · rename_i bytes hskip
      split_ifs at hc with hfew
      exact Nat.le_trans (Nat.le_of_not_lt hfew) (length_skipFront hskip)
  rw [readSamples, hb, Bool.not_true, if_neg Bool.false_ne_true] at hs
  rw [unpacked]
  split_ifs at hs ⊢
  · split at hs
    · cases hs
    · exact ⟨_, ‹_›, hfull _ hs⟩
  · exact ⟨raw, rfl, hfull raw hs⟩

/-- Samples that are stored as text are numbers, and there are enough of them. -/
theorem numbers_of_readSamples {pixels : List Float} (hb : isBinary h = false)
    (hs : readSamples path h d raw = .ok pixels) :
    ∃ text xs, Text.Utf8.decode? raw = some text ∧
      Header.items Decimal.real? "pixel data" text = .ok xs ∧ d.sampleCount ≤ xs.length := by
  rw [readSamples, hb, Bool.not_false, if_pos rfl, readText] at hs
  split at hs
  · cases hs
  · split at hs
    · cases hs
    · split_ifs at hs with hfew
      exact ⟨_, _, ‹_›, ‹_›, Nat.le_of_not_lt hfew⟩

end Samples

/-- The flaws that keep a stored image from being read, whatever else is stored of it. -/
inductive Flaw (t : FileTree) (path : Path) : Prop where
  | unreadable {cause : SystemCause} (file : t.read path = .error cause)
  | malformedHeader {bytes : Bytes} {fault : HeaderFault} (file : t.read path = .ok bytes)
    (lines : Header.read bytes = .error fault)
  | malformedField {h : Header} {fault : HeaderFault} (header : Headed t path h)
    (fields : h.descriptor = .error fault)
  | unsupportedType {h : Header} {name : String} (header : Headed t path h)
    (named : h.get? "ElementType" = some name) (unknown : ElementType.ofName? name = none)
  | overflow {h : Header} {value : String} {sizes : List Nat} {axes : Nat} (header : Headed t path h)
    (listed : h.get? "DimSize" = some value)
    (read : Header.items Decimal.size? "DimSize" value.toList = .ok sizes)
    (large : Decimal.sizeLimit ≤ (sizes.take axes).prod)
  | missingData {h : Header} {failure : Failure} (header : Headed t path h)
    (data : readStored t path h = .error failure)
  | corruptStream {h : Header} {raw : Bytes} {fault : Zlib.Fault} (header : Headed t path h)
    (binary : isBinary h = true) (data : readStored t path h = .ok raw)
    (stream : unpacked h raw = .error fault)
  | shortData {h : Header} {d : Descriptor} {raw content : Bytes} (header : Headed t path h)
    (fields : h.descriptor = .ok d) (binary : isBinary h = true)
    (data : readStored t path h = .ok raw) (stream : unpacked h raw = .ok content)
    (short : content.length < d.sampleCount * d.elementType.size)
  | shortText {h : Header} {d : Descriptor} {raw : Bytes} {text : List Char} {xs : List Float}
    (header : Headed t path h) (fields : h.descriptor = .ok d) (plain : isBinary h = false)
    (data : readStored t path h = .ok raw) (decoded : Text.Utf8.decode? raw = some text)
    (numbers : Header.items Decimal.real? "pixel data" text = .ok xs)
    (short : xs.length < d.sampleCount)

/-- An image with a flaw is not read. -/
theorem Flaw.read_ne_ok (flaw : Flaw t path) (image : Image) : read t path ≠ .ok image := by
  intro hr
  obtain ⟨h, raw, hheader, hd, hraw, hsamples⟩ := parts_of_read hr
  -- header, descriptor and data of the flaw are those that were read, and one of them cannot have been
  cases flaw with
  | unreadable file =>
    obtain ⟨bytes, hb, _⟩ := hheader
    exact nomatch file.symm.trans hb
  | malformedHeader file lines =>
    obtain ⟨bytes, hb, hh⟩ := hheader
    obtain rfl := Except.ok.inj (file.symm.trans hb)
    exact nomatch lines.symm.trans hh
  | malformedField header fields =>
    obtain rfl := header.unique hheader
    exact nomatch fields.symm.trans hd
  | unsupportedType header named unknown =>
    obtain rfl := header.unique hheader
    exact nomatch unknown.symm.trans (Header.ofName?_of_descriptor hd named)
  | overflow header listed read large =>
    obtain rfl := header.unique hheader
    exact absurd (Header.product_sizes_lt hd listed read _) (Nat.not_lt.mpr large)
  | missingData header data =>
    obtain rfl := header.unique hheader
    exact nomatch data.symm.trans hraw
  | corruptStream header binary data stream =>
    obtain rfl := header.unique hheader
    obtain rfl := Except.ok.inj (data.symm.trans hraw)
    obtain ⟨content, hcontent, _⟩ := unpacked_of_readSamples binary hsamples
    exact nomatch stream.symm.trans hcontent
  | shortData header fields binary data stream short =>
    obtain rfl := header.unique hheader
    obtain rfl := Except.ok.inj (data.symm.trans hraw)
    obtain rfl := Except.ok.inj (fields.symm.trans hd)
    obtain ⟨content, hcontent, hfull⟩ := unpacked_of_readSamples binary hsamples
    obtain rfl := Except.ok.inj (stream.symm.trans hcontent)
    exact absurd short (Nat.not_lt.mpr hfull)
  | shortText header fields plain data decoded numbers short =>
    obtain rfl := header.unique hheader
    obtain rfl := Except.ok.inj (data.symm.trans hraw)
    obtain rfl := Except.ok.inj (fields.symm.trans hd)
    obtain ⟨text, xs, htext, hxs, hfull⟩ := numbers_of_readSamples plain hsamples
    obtain rfl := Option.some.inj (decoded.symm.trans htext)
    obtain rfl := Except.ok.inj (numbers.symm.trans hxs)
    exact absurd short (Nat.not_lt.mpr hfull)

end Assay.Image
