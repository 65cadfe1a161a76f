import Assay.Failure
import Assay.FileTree.Basic
import Assay.Image.Header
import Assay.Image.Basic
import Assay.Image.Sample
import Assay.Zlib

namespace Assay.Image

inductive Storage where
  | behindHeader
  | file (name : String)
  deriving DecidableEq, Repr

/-- Where a value of the last header line says that the data are. Values that mean several files are
not supported. -/
def Storage.ofValue (value : String) : Except HeaderFault Storage :=
  if Text.sameLetters value "LOCAL" then .ok .behindHeader
  else if "LIST".toList.isPrefixOf value.toList || value.toList.contains '%' then
    .error (.severalFiles value)
  else .ok (.file value)

def dataPath (header : Path) (name : String) : Path :=
  (header.parent?.getD ⟨"."⟩).join ⟨name⟩

/-- The bytes of the samples among the stored bytes. A negative one as the size of what stands in
front means that the samples stand at the end. -/
def skipFront (h : Header) (needed : Nat) (raw : Bytes) : Except HeaderFault Bytes :=
  match h.get? "HeaderSize" with
  | none => .ok raw
  | some value =>
    match Decimal.integer? value.toList with
    | none => .error .badHeaderSize
    | some n =>
      if n = -1 ∧ needed ≤ raw.length then .ok (raw.drop (raw.length - needed))
      else if 0 < n then .ok (raw.drop n.toNat)
      else .ok raw

/-- Reads samples that are written as text. Samples beyond the grid are ignored. -/
def readText (path : Path) (count : Nat) (raw : Bytes) : Except Failure (List Float) :=
  match Text.Utf8.decode? raw with
  | none => .error (.imageData path .notText)
  | some text =>
    match Header.items Decimal.real? "pixel data" text with
    | .error fault => .error (.imageHeader path fault)
    | .ok xs =>
      if xs.length < count then .error (.imageData path (.fewSamples xs.length count))
      else .ok (xs.take count)

/-- Reads samples of the stored type. Bytes behind the last sample are ignored. -/
def readBinary (path : Path) (h : Header) (d : Descriptor) (raw : Bytes) :
    Except Failure (List Float) :=
  let needed := d.sampleCount * d.elementType.size
  match skipFront h needed raw with
  | .error fault => .error (.imageHeader path fault)
  | .ok bytes =>
    if bytes.length < needed then .error (.imageData path (.fewBytes bytes.length needed))
    else
      let highFirst := h.flag ["BinaryDataByteOrderMSB", "ElementByteOrderMSB"]
      .ok (decodeSamples d.elementType highFirst d.sampleCount bytes)

def isBinary (h : Header) : Bool :=
  ((h.get? "BinaryData").map Header.isTrue).getD true

def readSamples (path : Path) (h : Header) (d : Descriptor) (raw : Bytes) :
    Except Failure (List Float) :=
  if !isBinary h then readText path d.sampleCount raw
  else if h.flag ["CompressedData"] then
    match Zlib.decompress raw with
    | .error fault => .error (.imageData path (.compressed fault))
    | .ok bytes => readBinary path h d bytes
  else readBinary path h d raw

def readStored (t : FileTree) (path : Path) (h : Header) : Except Failure Bytes :=
  match h.get? Header.dataFileKey with
  | none => .error (.imageHeader path .noDataFile)
  | some value =>
    match Storage.ofValue value with
    | .error fault => .error (.imageHeader path fault)
    | .ok .behindHeader => .ok h.rest
    | .ok (.file name) =>
      match t.read (dataPath path name) with
      | .error cause => .error (.fileRead (dataPath path name) cause)
      | .ok bytes => .ok bytes

def read (t : FileTree) (path : Path) : Except Failure Image := do
  let bytes ← (t.read path).mapError (Failure.fileRead path)
  let h ← (Header.read bytes).mapError (Failure.imageHeader path)
  let d ← h.descriptor.mapError (Failure.imageHeader path)
  let raw ← readStored t path h
  let pixels ← readSamples path h d raw
  pure ⟨d, pixels⟩

end Assay.Image
