import Assay.Image.Reader
import Assay.Proofs.Image.Header

namespace Assay.Image

open Guarded

section Lines

/-- Where the line that starts at a place ends: behind its line feed, or where the bytes end. -/
def lineEnd (bytes : Bytes) (place : Nat) : Guarded Nat := do
  let rest ← slice bytes place bytes.length
  match rest.findIdx? (· == Header.lineFeed) with
  | none => pure bytes.length
  | some i => add (← add place i) 1

theorem lt_of_lineEnd {bytes : Bytes} {place last : Nat} (hp : place < bytes.length)
    (h : lineEnd bytes place = .ok last) : place < last := by
  rw [lineEnd, slice_rest (Nat.le_of_lt hp), ok_bind] at h
  split at h
  · cases h
    exact hp
  · rename_i i _
    obtain ⟨sum, hsum, h⟩ := bind_eq_ok.mp h
    rw [add, size] at hsum h
    split_ifs at hsum h
    cases hsum
    cases h
    omega

structure Scanned where
  fields : List (String × String)
  place : Nat

def Scanned.header (s : Scanned) : Header :=
  ⟨s.fields, []⟩

/-- Reads lines from a place on, up to the one that names the data file. -/
def scan (bytes : Bytes) (fields : List (String × String)) (place : Nat) :
    ExceptT HeaderFault Guarded Scanned :=
  if _ : place < bytes.length then
    match _ : lineEnd bytes place with
    | .error trap => stop trap
    | .ok last => do
      let line ← slice bytes place last
      match Text.Utf8.decode? line with
      | none => throw HeaderFault.notText
      | some line =>
        match Header.field? line with
        | .error fault => throw fault
        | .ok none => scan bytes fields last
        | .ok (some (key, value)) =>
          if key = Header.dataFileKey then pure ⟨(key, value) :: fields, last⟩
          else scan bytes ((key, value) :: fields) last
  else throw HeaderFault.noDataFile
termination_by bytes.length - place
decreasing_by all_goals
  have := lt_of_lineEnd (by assumption) (by assumption)
  omega

theorem field?_lineFeed (line : List Char) :
    Header.field? (line ++ ['\n']) = Header.field? line := by
  rw [Header.field?, Header.field?, Text.trim_append_blank (by decide)]

/-- The line feed at the end of a line does not matter for its field. -/
theorem firstField?_slice {bytes line : Bytes}
    (h : line = bytes.takeWhile (· ≠ Header.lineFeed) ∨
      line = bytes.takeWhile (· ≠ Header.lineFeed) ++ [Header.lineFeed]) :
    Header.firstField? bytes =
      match Text.Utf8.decode? line with
      | none => .error .notText
      | some line => Header.field? line := by
  rw [Header.firstField?]
  rcases h with rfl | rfl
  · rfl
  · rw [Header.lineFeed, Text.Utf8.decode?_lineFeed]
    cases Text.Utf8.decode? (bytes.takeWhile (· ≠ 10)) with
    | none => rfl
    | some line => exact (field?_lineFeed line).symm

/-- The first line feed ends the first line. -/
theorem split_of_findIdx? {bytes : Bytes} {i : Nat}
    (h : bytes.findIdx? (· == Header.lineFeed) = some i) :
    ∃ line back, bytes = line ++ Header.lineFeed :: back ∧ Header.lineFeed ∉ line ∧
      line.length = i := by
  induction bytes generalizing i with
  | nil => cases h
  | cons b rest ih =>
    rw [List.findIdx?_cons] at h
    split_ifs at h with hb
    · cases h
      exact ⟨[], rest, by rw [eq_of_beq hb]; rfl, List.not_mem_nil, rfl⟩
    · obtain ⟨j, hj, rfl⟩ := Option.map_eq_some_iff.mp h
      obtain ⟨line, back, rfl, hline, hlen⟩ := ih hj
      refine ⟨b :: line, back, rfl, ?_, by rw [List.length_cons, hlen]⟩
      intro hm
      rcases List.mem_cons.mp hm with rfl | hm
      · exact hb (beq_self_eq_true _)
      · exact hline hm

theorem lineFeed_notMem {bytes : Bytes} (h : bytes.findIdx? (· == Header.lineFeed) = none) :
    Header.lineFeed ∉ bytes := by
  intro hm
  have hne := List.findIdx?_eq_none_iff.mp h _ hm
  simp at hne

/-- Where a line ends, the next one starts. -/
theorem lineEnd_ok {bytes : Bytes} {place : Nat} (hb : bytes.length < Decimal.sizeLimit)
    (hp : place < bytes.length) :
    ∃ last, lineEnd bytes place = .ok last ∧ last ≤ bytes.length ∧
      bytes.drop last = Header.afterLine (bytes.drop place) ∧
      Header.firstField? (bytes.drop place) =
        match Text.Utf8.decode? ((bytes.take last).drop place) with
        | none => .error .notText
        | some line => Header.field? line := by
  rw [lineEnd, slice_rest (Nat.le_of_lt hp), ok_bind]
  cases hf : (bytes.drop place).findIdx? (· == Header.lineFeed) with
  | none =>
    have hline := lineFeed_notMem hf
    refine ⟨bytes.length, rfl, Nat.le_refl _, ?_, firstField?_slice (.inl ?_)⟩
    · rw [List.drop_length, Header.afterLine_last hline]
    · rw [List.take_length, Header.takeWhile_last hline]
  | some i =>
    obtain ⟨line, back, he, hline, hlen⟩ := split_of_findIdx? hf
    have htotal : place + i + 1 + back.length = bytes.length := by
      have hrest := congrArg List.length he
      rw [List.length_drop, List.length_append, List.length_cons] at hrest
      omega
    refine ⟨place + i + 1, ?_, by omega, ?_, firstField?_slice (.inr ?_)⟩
    · simp only [add_ok (show place + i < Decimal.sizeLimit by omega), ok_bind,
        add_ok (show place + i + 1 < Decimal.sizeLimit by omega)]
    · rw [he, Header.afterLine_line hline, Nat.add_assoc, ← List.drop_drop, he, ← hlen,
        List.drop_length_add_append]
      rfl
    · rw [he, Header.takeWhile_line hline, List.drop_take, he,
        show place + i + 1 - place = line.length + 1 by omega, List.take_length_add_append]
      rfl

/-- Both ways to read a header find the same fields and the same place behind it. -/
theorem scan_eq {bytes : Bytes} (hb : bytes.length < Decimal.sizeLimit)
    (fields : List (String × String)) (place : Nat) :
    scan bytes fields place =
      given ((Header.readFrom fields (bytes.drop place)).map fun h =>
        ⟨h.fields, bytes.length - h.rest.length⟩) := by
  induction hn : bytes.length - place using Nat.strongRecOn generalizing fields place with
  | ind n ih =>
    rw [scan]
    split_ifs with hp
    · obtain ⟨last, hlast, hle, hnext, hfield⟩ := lineEnd_ok hb hp
      have hlt := lt_of_lineEnd hp hlast
      have hne : bytes.drop place ≠ [] := by
        rw [Ne, List.drop_eq_nil_iff]
        omega
      have hrec := fun more => ih (bytes.length - last) (by omega) more last rfl
      rw [Header.readFrom_step fields hne, hfield, ← hnext]
      split
      · rename_i trap htrap
        rw [hlast] at htrap
        cases htrap
      · rename_i last' hlast'
        rw [hlast] at hlast'
        cases hlast'
        rw [lift_bind (slice_ok (Nat.le_of_lt hlt) hle)]
        cases hd : Text.Utf8.decode? ((bytes.take last).drop place) with
        | none => rfl
        | some line =>
          simp only
          cases Header.field? line with
          | error fault => rfl
          | ok read =>
            cases read with
            | none => exact hrec fields
            | some field =>
              obtain ⟨key, value⟩ := field
              simp only
              split_ifs with hkey
              · simp only [Except.map, List.length_drop]
                rw [Nat.sub_sub_self hle]
                rfl
              · exact hrec _
    · have hnil : bytes.drop place = [] := List.drop_eq_nil_iff.mpr (by omega)
      rw [hnil, Header.readFrom, dif_pos rfl]
      rfl

end Lines

section Fields

def directionGuarded (h : Header) (n : Nat) : ExceptT HeaderFault Guarded (List Float) :=
  match h.firstOf? ["TransformMatrix", "Rotation", "Orientation"] with
  | none => identityInPlace n
  | some (key, value) => do
    let values ← given (Header.items Decimal.real? key value.toList)
    let cells ← mul n n
    let m ← given (Header.counted key cells values)
    transposeInPlace n m

def descriptorGuarded (h : Header) : ExceptT HeaderFault Guarded Descriptor := do
  match h.get? "ObjectType" with
  | some value => if value ≠ "Image" then throw (HeaderFault.otherObject value)
  | none => pure ()
  let n ← given h.dimension
  let sizes ← given (h.required "DimSize")
  let size ← given (Header.countedItems Decimal.size? "DimSize" sizes n)
  let spacing ← given (h.reals ["ElementSpacing", "ElementSize"] n (List.replicate n 1.0))
  let origin ← given (h.reals ["Offset", "Origin", "Position"] n (List.replicate n 0.0))
  let direction ← directionGuarded h n
  let elementType ← given h.elementType
  let components ← given h.components
  if Header.fits components size elementType.size then
    pure ⟨n, size, spacing, origin, direction, elementType, components⟩
  else throw HeaderFault.tooLarge

theorem directionGuarded_eq (h : Header) {n : Nat} (hn : n * n < Decimal.sizeLimit) :
    directionGuarded h n = given (h.direction n) := by
  rw [directionGuarded, Header.direction]
  cases h.firstOf? ["TransformMatrix", "Rotation", "Orientation"] with
  | none => exact lift_ok (identityInPlace_ok hn)
  | some field =>
    obtain ⟨key, value⟩ := field
    simp only [Header.countedItems]
    cases Header.items Decimal.real? key value.toList with
    | error fault => rfl
    | ok values =>
      change (liftM (mul n n) : ExceptT HeaderFault Guarded Nat) >>= _ = _
      rw [lift_bind (mul_ok hn)]
      simp only [Header.counted]
      split_ifs with hlen
      · exact lift_ok (transposeInPlace_ok hlen hn)
      · rfl

/-- The number of axes is no larger than the value that lists the sizes. -/
theorem dimension_le {value : String} {n : Nat} {size : List Nat}
    (h : Header.countedItems Decimal.size? "DimSize" value n = .ok size) : n ≤ value.toList.length := by
  obtain ⟨hitems, hlen⟩ := Header.countedItems_ok.mp h
  rw [← hlen, Header.length_items hitems]
  exact Text.length_words_le _

theorem square_lt {n : Nat} (h : n < 2 ^ 32) : n * n < Decimal.sizeLimit :=
  Nat.mul_lt_mul'' h h

theorem descriptorGuarded_eq {h : Header}
    (hs : ∀ value, h.get? "DimSize" = some value → value.toList.length < 2 ^ 32) :
    descriptorGuarded h = given h.descriptor := by
  have himage :
      (do
        let n ← given h.dimension
        let sizes ← given (h.required "DimSize")
        let size ← given (Header.countedItems Decimal.size? "DimSize" sizes n)
        let spacing ← given (h.reals ["ElementSpacing", "ElementSize"] n (List.replicate n 1.0))
        let origin ← given (h.reals ["Offset", "Origin", "Position"] n (List.replicate n 0.0))
        let direction ← directionGuarded h n
        let elementType ← given h.elementType
        let components ← given h.components
        if Header.fits components size elementType.size then
          pure (Descriptor.mk n size spacing origin direction elementType components)
        else throw HeaderFault.tooLarge) = given h.imageDescriptor := by
    refine given_bind fun n _ => given_bind fun sizes hsizes => given_bind fun size hsize =>
      given_bind fun spacing _ => given_bind fun origin _ => ?_
    have hvalue : h.get? "DimSize" = some sizes := by
      rw [Header.required] at hsizes
      split at hsizes
      · cases hsizes
      · rename_i hget
        cases hsizes
        exact hget
    have hn : n < 2 ^ 32 := Nat.lt_of_le_of_lt (dimension_le hsize) (hs sizes hvalue)
    rw [directionGuarded_eq h (square_lt hn)]
    refine given_bind fun direction _ => given_bind fun elementType _ =>
      given_bind fun components _ => ?_
    split_ifs <;> rfl
  rw [descriptorGuarded, Header.descriptor_eq]
  cases h.get? "ObjectType" with
  | none => exact himage
  | some value =>
    simp only
    split_ifs with hne
    · rfl
    · exact himage

end Fields

section Samples

def sampleCountGuarded (d : Descriptor) : Guarded Nat := do
  mul (← product d.size) d.components

def decodeGuarded (t : ElementType) (highFirst : Bool) (piece : Bytes) : Guarded Float :=
  if t.size = 1 then do
    pure (decodeSample t highFirst [← index piece 0])
  else do
    pure (decodeSample t highFirst (← copy t.size piece))

def skipFrontGuarded (h : Header) (needed : Nat) (raw : Bytes) :
    ExceptT HeaderFault Guarded Bytes :=
  match h.get? "HeaderSize" with
  | none => pure raw
  | some value =>
    match Decimal.integer? value.toList with
    | none => throw HeaderFault.badHeaderSize
    | some n =>
      if n = -1 ∧ needed ≤ raw.length then do
        slice raw (← sub raw.length needed) raw.length
      else if 0 < n then pure (raw.drop n.toNat)
      else pure raw

def readTextGuarded (path : Path) (count : Nat) (raw : Bytes) :
    ExceptT Failure Guarded (List Float) :=
  match Text.Utf8.decode? raw with
  | none => throw (Failure.imageData path .notText)
  | some text => do
    let xs ← given ((Header.items Decimal.real? "pixel data" text).mapError (Failure.imageHeader path))
    if xs.length < count then throw (Failure.imageData path (.fewSamples xs.length count))
    else slice xs 0 count

def readBinaryGuarded (path : Path) (h : Header) (t : ElementType) (count : Nat) (raw : Bytes) :
    ExceptT Failure Guarded (List Float) := do
  let needed ← mul count t.size
  let bytes ← ExceptT.adapt (Failure.imageHeader path) (skipFrontGuarded h needed raw)
  if bytes.length < needed then throw (Failure.imageData path (.fewBytes bytes.length needed))
  else
    let data ← slice bytes 0 needed
    let cut ← chunks t.size data
    let highFirst := h.flag ["BinaryDataByteOrderMSB", "ElementByteOrderMSB"]
    (cut.mapM (decodeGuarded t highFirst) : Guarded (List Float))

def readSamplesGuarded (path : Path) (h : Header) (d : Descriptor) (raw : Bytes) :
    ExceptT Failure Guarded (List Float) := do
  let count ← sampleCountGuarded d
  if !isBinary h then readTextGuarded path count raw
  else if h.flag ["CompressedData"] then
    match Zlib.decompress raw with
    | .error fault => throw (Failure.imageData path (.compressed fault))
    | .ok bytes => readBinaryGuarded path h d.elementType count bytes
  else readBinaryGuarded path h d.elementType count raw

theorem product_ok {c a width : Nat} {sizes : List Nat} (ha : a ≤ c)
    (h : Header.fits c sizes width = true) :
    sizes.foldlM mul a = .ok (sizes.foldl (· * ·) a) := by
  induction sizes generalizing c a with
  | nil => rfl
  | cons n rest ih =>
    obtain ⟨hlt, hrest⟩ := Header.fits_cons.mp h
    have hle : a * n ≤ c * n := Nat.mul_le_mul_right n ha
    rw [List.foldlM_cons, mul_ok (Nat.lt_of_le_of_lt hle hlt), ok_bind, List.foldl_cons]
    exact ih hle hrest

theorem bytes_lt {d : Descriptor}
    (h : Header.fits d.components d.size d.elementType.size = true) :
    d.sampleCount * d.elementType.size < Decimal.sizeLimit := by
  rw [Descriptor.sampleCount_eq, Nat.mul_comm d.size.prod]
  exact Header.bytes_lt_of_fits h

theorem sampleCountGuarded_ok {d : Descriptor} (hc : 1 ≤ d.components)
    (h : Header.fits d.components d.size d.elementType.size = true) :
    sampleCountGuarded d = .ok d.sampleCount := by
  have hcount : d.sampleCount < Decimal.sizeLimit :=
    Nat.lt_of_le_of_lt (Nat.le_mul_of_pos_right _ (ElementType.size_pos _)) (bytes_lt h)
  rw [sampleCountGuarded, product, product_ok hc h, ok_bind]
  exact mul_ok hcount

theorem decodeGuarded_ok {t : ElementType} {piece : Bytes} (highFirst : Bool)
    (h : piece.length = t.size) :
    decodeGuarded t highFirst piece = .ok (decodeSample t highFirst piece) := by
  rw [decodeGuarded]
  split_ifs with hone
  · rw [hone] at h
    obtain ⟨b, rfl⟩ := List.length_eq_one_iff.mp h
    rfl
  · rw [copy_ok h]
    rfl

/-- The samples of the pieces are the samples of the bytes. -/
theorem mapM_decodeGuarded {t : ElementType} (highFirst : Bool) {count : Nat} {bytes : Bytes}
    (h : count * t.size ≤ bytes.length) :
    (pieces t.size count bytes).mapM (decodeGuarded t highFirst) =
      .ok (decodeSamples t highFirst count bytes) := by
  induction count generalizing bytes with
  | zero => rfl
  | succ count ih =>
    rw [Nat.succ_mul] at h
    have hfirst : (bytes.take t.size).length = t.size := by
      rw [List.length_take]
      omega
    have hrest : count * t.size ≤ (bytes.drop t.size).length := by
      rw [List.length_drop]
      omega
    rw [pieces, List.mapM_cons, decodeGuarded_ok highFirst hfirst, ok_bind, ih hrest, ok_bind]
    rfl

/-- Bytes behind the last sample do not matter. -/
theorem decodeSamples_take {t : ElementType} (highFirst : Bool) {count size : Nat} {bytes : Bytes}
    (h : count * t.size ≤ size) :
    decodeSamples t highFirst count (bytes.take size) = decodeSamples t highFirst count bytes := by
  induction count generalizing bytes size with
  | zero => rfl
  | succ count ih =>
    rw [Nat.succ_mul] at h
    rw [decodeSamples, decodeSamples, List.take_take, Nat.min_eq_left (by omega), List.drop_take,
      ih (by omega)]

theorem skipFrontGuarded_eq (h : Header) (needed : Nat) (raw : Bytes) :
    skipFrontGuarded h needed raw = given (skipFront h needed raw) := by
  rw [skipFrontGuarded, skipFront]
  cases h.get? "HeaderSize" with
  | none => rfl
  | some value =>
    simp only
    cases Decimal.integer? value.toList with
    | none => rfl
    | some n =>
      simp only
      split_ifs with hend hfront
      · rw [sub_ok hend.2]
        exact lift_ok (slice_rest (Nat.sub_le _ _))
      · rfl
      · rfl

theorem readTextGuarded_eq (path : Path) (count : Nat) (raw : Bytes) :
    readTextGuarded path count raw = given (readText path count raw) := by
  rw [readTextGuarded, readText]
  cases Text.Utf8.decode? raw with
  | none => rfl
  | some text =>
    simp only
    cases Header.items Decimal.real? "pixel data" text with
    | error fault => rfl
    | ok xs =>
      change (if xs.length < count then _ else _) = _
      simp only
      split_ifs with hfew
      · rfl
      · exact lift_ok (slice_front (Nat.le_of_not_lt hfew))

theorem readBinaryGuarded_eq (path : Path) (h : Header) {d : Descriptor} (raw : Bytes)
    (hd : Header.fits d.components d.size d.elementType.size = true) :
    readBinaryGuarded path h d.elementType d.sampleCount raw =
      given (readBinary path h d raw) := by
  rw [readBinaryGuarded, lift_bind (mul_ok (bytes_lt hd)), skipFrontGuarded_eq, adapt_given, readBinary]
  cases skipFront h (d.sampleCount * d.elementType.size) raw with
  | error fault => rfl
  | ok bytes =>
    change (if bytes.length < _ then _ else _) = _
    simp only
    split_ifs with hfew
    · rfl
    · have hlen : d.sampleCount * d.elementType.size ≤ bytes.length := Nat.le_of_not_lt hfew
      have htake : (bytes.take (d.sampleCount * d.elementType.size)).length =
          d.sampleCount * d.elementType.size := by
        rw [List.length_take, Nat.min_eq_left hlen]
      rw [lift_bind (slice_front hlen), lift_bind (chunks_ok (ElementType.size_pos _) _), htake,
        Nat.mul_div_cancel _ (ElementType.size_pos _)]
      refine lift_ok ?_
      rw [mapM_decodeGuarded _ (Nat.le_of_eq htake.symm), decodeSamples_take _ (Nat.le_refl _)]

theorem readSamplesGuarded_eq (path : Path) (h : Header) {d : Descriptor} (raw : Bytes)
    (hc : 1 ≤ d.components)
    (hd : Header.fits d.components d.size d.elementType.size = true) :
    readSamplesGuarded path h d raw = given (readSamples path h d raw) := by
  rw [readSamplesGuarded, lift_bind (sampleCountGuarded_ok hc hd), readSamples]
  split_ifs with htext hcompressed
  · exact readTextGuarded_eq path _ raw
  · cases Zlib.decompress raw with
    | error fault => rfl
    | ok bytes => exact readBinaryGuarded_eq path h bytes hd
  · exact readBinaryGuarded_eq path h raw hd

end Samples

section Reading

def readStoredGuarded (t : FileTree) (path : Path) (bytes : Bytes) (s : Scanned) :
    ExceptT Failure Guarded Bytes :=
  match s.header.get? Header.dataFileKey with
  | none => throw (Failure.imageHeader path .noDataFile)
  | some value =>
    match Storage.ofValue value with
    | .error fault => throw (Failure.imageHeader path fault)
    | .ok .behindHeader => slice bytes s.place bytes.length
    | .ok (.file name) =>
      given ((t.read (dataPath path name)).mapError (Failure.fileRead (dataPath path name)))

/-- Reads the image that a path leads to, and stops where memory or arithmetic would go wrong. -/
def readGuarded (t : FileTree) (path : Path) : ExceptT Failure Guarded Image := do
  let bytes ← given ((t.read path).mapError (Failure.fileRead path))
  let s ← ExceptT.adapt (Failure.imageHeader path) (scan bytes [] 0)
  let d ← ExceptT.adapt (Failure.imageHeader path) (descriptorGuarded s.header)
  let raw ← readStoredGuarded t path bytes s
  let pixels ← readSamplesGuarded path s.header d raw
  pure ⟨d, pixels⟩

theorem mapError_ok {ε δ α : Type} {m : ε → δ} {r : Except ε α} {a : α}
    (h : r.mapError m = .ok a) : r = .ok a := by
  cases r with
  | error e => cases h
  | ok b =>
    cases h
    rfl

theorem map_mapError {ε δ α β : Type} (m : ε → δ) (f : α → β) (r : Except ε α) :
    (r.map f).mapError m = (r.mapError m).map f := by
  cases r <;> rfl

theorem readStoredGuarded_eq (t : FileTree) (path : Path) {bytes : Bytes} {h : Header}
    (hr : Header.read bytes = .ok h) :
    readStoredGuarded t path bytes ⟨h.fields, bytes.length - h.rest.length⟩ =
      given (readStored t path h) := by
  rw [readStoredGuarded, readStored]
  change (match h.get? Header.dataFileKey with | none => _ | some value => _) = _
  cases h.get? Header.dataFileKey with
  | none => rfl
  | some value =>
    simp only
    cases Storage.ofValue value with
    | error fault => rfl
    | ok storage =>
      cases storage with
      | behindHeader =>
        have hrest : bytes.drop (bytes.length - h.rest.length) = h.rest :=
          (List.suffix_iff_eq_drop.mp (Header.rest_suffix hr)).symm
        exact lift_ok ((slice_rest (Nat.sub_le _ _)).trans (congrArg Except.ok hrest))
      | file name =>
        simp only
        cases t.read (dataPath path name) <;> rfl

/-- A file that a path leads to is in the tree. -/
theorem mem_of_read {t : FileTree} {p : Path} {content : Bytes} (h : t.read p = .ok content) :
    ∃ location mode, (location, Entry.file content mode) ∈ t.entries := by
  rw [FileTree.read] at h
  split at h
  · cases h
  · cases h
  · rename_i location found mode hf
    cases h
    rw [FileTree.find] at hf
    split at hf
    · cases hf
    · split at hf
      · cases hf
      · split at hf
        · rename_i e he
          cases hf
          rw [FileTree.entryAt?] at he
          split_ifs at he with hroot
          · cases he
          · obtain ⟨front, back, hl, _⟩ := List.lookup_eq_some_iff.mp he
            refine ⟨location, mode, ?_⟩
            rw [hl]
            exact List.mem_append_right front List.mem_cons_self
        · cases hf

/-- Every sample that the grid wants is read. -/
theorem length_readSamples {path : Path} {h : Header} {d : Descriptor} {raw : Bytes}
    {pixels : List Float} (hr : readSamples path h d raw = .ok pixels) :
    pixels.length = d.sampleCount := by
  have hbinary : ∀ bytes, readBinary path h d bytes = .ok pixels → pixels.length = d.sampleCount := by
    intro bytes hb
    rw [readBinary] at hb
    split at hb
    · cases hb
    · split_ifs at hb
      cases hb
      exact length_decodeSamples _ _ _ _
  have htext : readText path d.sampleCount raw = .ok pixels → pixels.length = d.sampleCount := by
    intro ht
    rw [readText] at ht
    split at ht
    · cases ht
    · split at ht
      · cases ht
      · split_ifs at ht with hfew
        cases ht
        rw [List.length_take, Nat.min_eq_left (Nat.le_of_not_lt hfew)]
  rw [readSamples] at hr
  split_ifs at hr
  · exact htext hr
  · split at hr
    · cases hr
    · exact hbinary _ hr
  · exact hbinary _ hr

end Reading

/-- An image whose descriptor has a shape, with one sample for each component of each pixel. -/
structure WellFormed (image : Image) : Prop where
  shaped : image.descriptor.Shaped
  pixels_length : image.pixels.length = image.descriptor.size.prod * image.descriptor.components

theorem wellFormed_of_read {t : FileTree} {path : Path} {image : Image}
    (hr : read t path = .ok image) : image.WellFormed := by
  obtain ⟨bytes, _, hr⟩ := bind_eq_ok.mp hr
  obtain ⟨h, _, hr⟩ := bind_eq_ok.mp hr
  obtain ⟨d, hd, hr⟩ := bind_eq_ok.mp hr
  obtain ⟨raw, _, hr⟩ := bind_eq_ok.mp hr
  obtain ⟨pixels, hp, hr⟩ := bind_eq_ok.mp hr
  cases hr
  refine ⟨Header.descriptor_shaped (mapError_ok hd), ?_⟩
  rw [length_readSamples hp, Descriptor.sampleCount_eq]

/-- No content of the files stops the reader: it answers with an image or with the reason why there is
none. Every image that it reads is well formed. -/
theorem read_safe (t : FileTree) (path : Path)
    (small : ∀ location content mode, (location, Entry.file content mode) ∈ t.entries →
      content.length < 2 ^ 32) :
    readGuarded t path = given (read t path) ∧ ∀ image, read t path = .ok image → image.WellFormed := by
  refine ⟨?_, fun image hr => wellFormed_of_read hr⟩
  refine given_bind fun bytes hbytes => ?_
  obtain ⟨location, mode, hm⟩ := mem_of_read (mapError_ok hbytes)
  have hlen := small location bytes mode hm
  have hsize : bytes.length < Decimal.sizeLimit := Nat.lt_trans hlen (by decide)
  rw [scan_eq hsize, List.drop_zero, adapt_given, map_mapError, given_map_bind]
  refine given_bind fun h hh => ?_
  have hread : Header.read bytes = .ok h := mapError_ok hh
  have hs : ∀ value, h.get? "DimSize" = some value → value.toList.length < 2 ^ 32 := by
    intro value hv
    have hle := Header.length_field_le hread (Nat.le_refl _) (by simp) _ (Header.mem_of_get? hv)
    exact Nat.lt_of_le_of_lt hle hlen
  have hdescriptor : descriptorGuarded (Scanned.header ⟨h.fields, bytes.length - h.rest.length⟩) =
      given h.descriptor := descriptorGuarded_eq hs
  rw [hdescriptor, adapt_given]
  refine given_bind fun d hd => ?_
  obtain ⟨_, _, _, _, _, _, _, hfits⟩ :=
    Header.imageDescriptor_ok.mp (Header.descriptor_ok.mp (mapError_ok hd)).2
  rw [readStoredGuarded_eq t path hread]
  refine given_bind fun raw _ => ?_
  have hsamples : readSamplesGuarded path (Scanned.header ⟨h.fields, bytes.length - h.rest.length⟩) d raw =
      given (readSamples path h d raw) :=
    readSamplesGuarded_eq path h raw (Header.descriptor_shaped (mapError_ok hd)).components_pos hfits
  rw [hsamples]
  exact given_bind fun pixels _ => rfl

def pairBytes : Bytes :=
  Text.Utf8.ofString "NDims = 1\nDimSize = 2\nElementType = MET_UCHAR\nElementDataFile = LOCAL\n" ++ [7, 9]

def pairTree : FileTree where
  entries := [(["pair.mha"], .file pairBytes 0o644)]
  workingDirectory := []

theorem read_safe_pair :
    ∃ image, read pairTree ⟨"pair.mha"⟩ = .ok image ∧
      readGuarded pairTree ⟨"pair.mha"⟩ = given (.ok image) ∧ image.WellFormed := by
  have small : ∀ location content mode, (location, Entry.file content mode) ∈ pairTree.entries →
      content.length < 2 ^ 32 := by
    intro location content mode hm
    simp only [pairTree, List.mem_singleton, Prod.mk.injEq, Entry.file.injEq] at hm
    rw [hm.2.1]
    decide +kernel
  obtain ⟨hguarded, hshape⟩ := read_safe pairTree ⟨"pair.mha"⟩ small
  cases hr : read pairTree ⟨"pair.mha"⟩ with
  | error failure =>
    have hok : (read pairTree ⟨"pair.mha"⟩).toBool = true := by decide +kernel
    rw [hr] at hok
    cases hok
  | ok image =>
    rw [hr] at hguarded
    exact ⟨image, rfl, hguarded, hshape image hr⟩

end Assay.Image
