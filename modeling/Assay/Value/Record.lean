import Assay.Value

namespace Assay.Value

/-- The fields that a value gives, by name. -/
abbrev Fields := List (String × Value)

/-- The name of the field that a key means. A whole number counts the fields from zero. A key of any
other type means none and is refused. -/
def fieldName? (names : List String) : Value → Option (Option String)
  | .text s => some (if names.contains s then some s else none)
  | .plain s => some (if names.contains s then some s else none)
  | .integer n => if 0 ≤ n then some names[n.toNat]? else none
  | _ => none

def addField (names : List String) (fields : Fields) (entry : Value × Value) : Option Fields :=
  match fieldName? names entry.1 with
  | none => none
  | some none => some fields
  | some (some name) =>
    if (fields.lookup name).isSome then none else some (fields ++ [(name, entry.2)])

/-- The fields of a record. A table gives them by name, in any order and among others that are
ignored, but none of them twice; a list gives them by position and may stop early. -/
def record? (names : List String) : Value → Option Fields
  | .table entries => entries.foldlM (addField names) []
  | .list items => if items.length ≤ names.length then some (names.zip items) else none
  | _ => none

def required {α : Type} (fields : Fields) (name : String) (read : Value → Option α) : Option α :=
  (fields.lookup name).bind read

def optional {α : Type} (fields : Fields) (name : String) (default : α) (read : Value → Option α) :
    Option α :=
  match fields.lookup name with
  | none => some default
  | some v => read v

end Assay.Value
