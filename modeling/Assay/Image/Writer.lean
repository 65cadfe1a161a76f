import Assay.Image.Reader

namespace Assay.Image

/-- The text of a number in a header. A whole number is written as one, so that the sign of a zero
is lost. -/
def numberText (x : Float) : String :=
  if x == 0.0 then "0" else Decimal.plain x

def numbersText (xs : List Float) : String :=
  String.intercalate " " (xs.map numberText)

def headerLine (key value : String) : String :=
  key ++ " = " ++ value ++ "\n"

/-- The header of an image whose samples are in a file with a name. -/
def headerText (d : Descriptor) (dataFile : String) : String :=
  headerLine "ObjectType" "Image" ++
  headerLine "NDims" (toString d.dimension) ++
  headerLine "BinaryData" "True" ++
  headerLine "BinaryDataByteOrderMSB" "False" ++
  headerLine "CompressedData" "False" ++
  headerLine "TransformMatrix" (numbersText (transpose d.dimension d.direction)) ++
  headerLine "Offset" (numbersText d.origin) ++
  headerLine "CenterOfRotation" (numbersText (List.replicate d.dimension 0.0)) ++
  headerLine "ElementSpacing" (numbersText d.spacing) ++
  headerLine "DimSize" (String.intercalate " " (d.size.map toString)) ++
  (if d.components = 1 then "" else headerLine "ElementNumberOfChannels" (toString d.components)) ++
  headerLine "ElementType" d.elementType.name ++
  headerLine Header.dataFileKey dataFile

def dataExtension : String := "raw"

structure Files where
  dataPath : Path
  data : Bytes
  header : Bytes

/-- The files of an image that is to be written to a path. -/
def files (path : Path) (image : Image) : Except Failure Files :=
  let d := image.descriptor
  if image.pixels.length ≠ d.sampleCount then
    .error (.imageData path (.wrongBuffer image.pixels.length d.sampleCount))
  else
    let dataPath := path.withExtension dataExtension
    match dataPath.fileName? with
    | none => .error (.invalidImagePath path)
    | some name =>
      .ok ⟨dataPath, encodeSamples d.elementType image.pixels,
        Text.Utf8.ofString (headerText d name)⟩

/-- Writes the file of the samples and then the header. The tree holds what was written before a
failure. -/
def Files.write (f : Files) (t : FileTree) (path : Path) : FileTree × Except Failure Unit :=
  match t.write f.dataPath f.data with
  | .error cause => (t, .error (.system cause))
  | .ok written =>
    match written.write path f.header with
    | .error cause => (written, .error (.system cause))
    | .ok written => (written, .ok ())

/-- Whether the direction matrix has the values that the dimension needs. -/
def hasDirection (d : Descriptor) : Bool :=
  d.dimension * d.dimension ≤ d.direction.length

def write (t : FileTree) (path : Path) (image : Image) :
    Except Defect (FileTree × Except Failure Unit) :=
  match files path image with
  | .error failure => .ok (t, .error failure)
  | .ok f =>
    if hasDirection image.descriptor then .ok (f.write t path) else .error .shortDirection

example : numberText (-0.0) = "0" ∧ numberText 2.0 = "2" ∧ numberText 0.5 = "0.5" := by
  decide +kernel

end Assay.Image
