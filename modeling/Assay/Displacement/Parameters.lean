import Assay.Decimal.Reading
import Assay.Displacement.Refusal

namespace Assay.Displacement

open Assay.Text

/-- What a parameter file says about a displacement and about the image it makes. -/
structure Parameters where
  offsets : List Float
  size : Option (List Nat)
  spacing : Option (List Float)
  origin : Option (List Float)
  direction : Option (List Float)
  background : Float
  elementType : Option Image.ElementType
  format : String

namespace Parameters

abbrev Entries := List (String × List String)

def body? (line : List Char) : Option (List Char) :=
  match line with
  | '(' :: rest => if rest.getLast? = some ')' then some rest.dropLast else none
  | _ => none

/-- The key and the values of a line. Quotes around a value do not belong to it. -/
def parameter? (line : List Char) : Option (String × List String) :=
  match (body? (trim (before ['/', '/'] line))).map words with
  | some (key :: values) =>
    some (String.ofList key, values.map fun v => String.ofList (trimChar '"' v))
  | _ => none

def entries (text : List Char) : Entries :=
  ((lines text).filterMap parameter?).reverse

def numbers (entries : Entries) (key : String) : Except Refusal (Option (List Float)) :=
  match entries.lookup key with
  | none => .ok none
  | some values =>
    (values.mapM fun text =>
      match Decimal.ofString? text with
      | none => Except.error (Refusal.badNumber key text)
      | some x => .ok x).map some

def first? (entries : Entries) (key : String) : Option String :=
  (entries.lookup key).bind List.head?

def elementTypes : List (String × Image.ElementType) :=
  [("unsigned char", .uchar), ("char", .char), ("unsigned short", .ushort), ("short", .short),
    ("int", .int), ("float", .float), ("double", .double)]

/-- Reads the stored type of the image, if it is there. A name may have several words. -/
def elementType? (entries : Entries) : Except Refusal (Option Image.ElementType) :=
  match entries.lookup "ResultImagePixelType" with
  | none => .ok none
  | some words =>
    let name := String.intercalate " " words
    match elementTypes.lookup name with
    | none => .error (.otherPixelType name)
    | some t => .ok (some t)

def transformName : String := "TranslationTransform"

def defaultFormat : String := "mhd"

/-- Reads the settings from the values of keys in a fixed order, so that of several faults the first
in that order is told, wherever its line stands. -/
def ofEntries (entries : Entries) : Except Refusal Parameters := do
  let transform := (first? entries "Transform").getD ""
  if transform ≠ transformName then throw (.otherTransform transform)
  let some offsets ← numbers entries "TransformParameters" | throw .missingOffsets
  let elementType ← elementType? entries
  let size ← numbers entries "Size"
  let spacing ← numbers entries "Spacing"
  let origin ← numbers entries "Origin"
  let direction ← numbers entries "Direction"
  let background ← numbers entries "DefaultPixelValue"
  pure
    { offsets := offsets
      size := size.map fun xs => xs.map Decimal.truncateToSize
      spacing := spacing
      origin := origin
      direction := direction
      background := (background.bind List.head?).getD 0.0
      elementType := elementType
      format := (first? entries "ResultImageFormat").getD defaultFormat }

def read (text : String) : Except Refusal Parameters :=
  ofEntries (entries text.toList)

def load (t : FileTree) (path : Path) : Except Refusal Parameters :=
  match t.readText path with
  | .error cause => .error (.unreadableParameters path cause)
  | .ok text => read text

example : parameter? " ( Size 5 \"6\" ) // grid".toList = some ("Size", ["5", "6"]) := by decide +kernel
example : parameter? "Size 5 6".toList = none := by decide +kernel

end Parameters

end Assay.Displacement
