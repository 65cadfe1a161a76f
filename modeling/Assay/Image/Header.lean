import Assay.Decimal.Reading
import Assay.Image.Descriptor
import Assay.Image.Fault

namespace Assay.Image

/-- The fields of a header, latest first, and the bytes behind it. -/
structure Header where
  fields : List (String × String)
  rest : Bytes

namespace Header

def dataFileKey : String := "ElementDataFile"

def get? (h : Header) (key : String) : Option String :=
  h.fields.lookup key

def firstOf? (h : Header) (keys : List String) : Option (String × String) :=
  keys.findSome? fun key => (h.get? key).map fun value => (key, value)

def isTrue (value : String) : Bool :=
  Text.sameLetters value "true"

/-- Whether one of several keys says yes. -/
def flag (h : Header) (keys : List String) : Bool :=
  keys.any fun key => ((h.get? key).map isTrue).getD false

/-- The key and the value of a line, or nothing for a blank line. -/
def field? (line : List Char) : Except HeaderFault (Option (String × String)) :=
  let line := Text.trim line
  if line.isEmpty then .ok none
  else
    match Text.cutAt '=' line with
    | none => .error (.malformedLine (String.ofList line))
    | some (key, value) =>
      .ok (some (String.ofList (Text.trim key), String.ofList (Text.trim value)))

def lineFeed : UInt8 := 10

def afterLine (bytes : Bytes) : Bytes :=
  (bytes.dropWhile (· ≠ lineFeed)).drop 1

theorem length_afterLine_lt {bytes : Bytes} (h : bytes ≠ []) :
    (afterLine bytes).length < bytes.length := by
  have hd : (bytes.dropWhile (· ≠ lineFeed)).length ≤ bytes.length :=
    (List.dropWhile_sublist _).length_le
  have hp : 0 < bytes.length := List.length_pos_iff.mpr h
  rw [afterLine, List.length_drop]
  omega

/-- Reads lines up to the one that names the data file, after the fields read before. -/
def readFrom (fields : List (String × String)) (bytes : Bytes) : Except HeaderFault Header :=
  if _ : bytes = [] then .error .noDataFile
  else
    match Text.Utf8.decode? (bytes.takeWhile (· ≠ lineFeed)) with
    | none => .error .notText
    | some line =>
      match field? line with
      | .error fault => .error fault
      | .ok none => readFrom fields (afterLine bytes)
      | .ok (some (key, value)) =>
        if key = dataFileKey then .ok ⟨(key, value) :: fields, afterLine bytes⟩
        else readFrom ((key, value) :: fields) (afterLine bytes)
termination_by bytes.length
decreasing_by all_goals exact length_afterLine_lt (by assumption)

def read (bytes : Bytes) : Except HeaderFault Header :=
  readFrom [] bytes

def items {α : Type} (parse : List Char → Option α) (key : String) (value : List Char) :
    Except HeaderFault (List α) :=
  (Text.words value).mapM fun item =>
    match parse item with
    | none => .error (.badItem key (String.ofList item))
    | some x => .ok x

def counted {α : Type} (key : String) (expected : Nat) (xs : List α) :
    Except HeaderFault (List α) :=
  if xs.length = expected then .ok xs else .error (.wrongCount key xs.length expected)

def countedItems {α : Type} (parse : List Char → Option α) (key value : String) (expected : Nat) :
    Except HeaderFault (List α) :=
  match items parse key value.toList with
  | .error fault => .error fault
  | .ok xs => counted key expected xs

/-- The real numbers of the first of several keys that has a value, or a default. -/
def reals (h : Header) (keys : List String) (expected : Nat) (default : List Float) :
    Except HeaderFault (List Float) :=
  match h.firstOf? keys with
  | none => .ok default
  | some (key, value) => countedItems Decimal.real? key value expected

def required (h : Header) (key : String) : Except HeaderFault String :=
  match h.get? key with
  | none => .error (.missing key)
  | some value => .ok value

def dimension (h : Header) : Except HeaderFault Nat := do
  let value ← h.required "NDims"
  match Decimal.size? value.toList with
  | none => throw .dimensionNotANumber
  | some 0 => throw .dimensionZero
  | some n => pure n

/-- The direction matrix, which a header holds column by column. -/
def direction (h : Header) (n : Nat) : Except HeaderFault (List Float) :=
  match h.firstOf? ["TransformMatrix", "Rotation", "Orientation"] with
  | none => .ok (identity n)
  | some (key, value) =>
    match countedItems Decimal.real? key value (n * n) with
    | .error fault => .error fault
    | .ok m => .ok (transpose n m)

def elementType (h : Header) : Except HeaderFault ElementType := do
  let name ← h.required "ElementType"
  match ElementType.ofName? name with
  | none => throw (.badType name)
  | some t => pure t

def components (h : Header) : Except HeaderFault Nat :=
  match h.get? "ElementNumberOfChannels" with
  | none => .ok 1
  | some value =>
    match Decimal.size? value.toList with
    | none => .error .badChannels
    | some 0 => .error .badChannels
    | some n => .ok n

/-- The product of two sizes, if it is a size. -/
def product? (a b : Nat) : Option Nat :=
  if a * b < Decimal.sizeLimit then some (a * b) else none

/-- Whether the number of bytes of an image, and every partial product on the way to it, is a size.
-/
def fits (components : Nat) (size : List Nat) (width : Nat) : Bool :=
  ((size.foldlM product? components).bind fun n => product? n width).isSome

def descriptor (h : Header) : Except HeaderFault Descriptor := do
  match h.get? "ObjectType" with
  | some value => if value ≠ "Image" then throw (.otherObject value)
  | none => pure ()
  let n ← h.dimension
  let size ← countedItems Decimal.size? "DimSize" (← h.required "DimSize") n
  let spacing ← h.reals ["ElementSpacing", "ElementSize"] n (List.replicate n 1.0)
  let origin ← h.reals ["Offset", "Origin", "Position"] n (List.replicate n 0.0)
  let direction ← h.direction n
  let elementType ← h.elementType
  let components ← h.components
  if fits components size elementType.size then
    pure ⟨n, size, spacing, origin, direction, elementType, components⟩
  else throw .tooLarge

end Header

end Assay.Image
