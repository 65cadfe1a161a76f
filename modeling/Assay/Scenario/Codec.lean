import Assay.Scenario.Basic
import Assay.Value.Record

namespace Assay

def ExitClass.name : ExitClass → String
  | success => "success"
  | failure => "failure"

def ExitClass.ofName? (s : String) : Option ExitClass :=
  if s = "success" then some success else if s = "failure" then some failure else none

/-- Reads an exit class: its name, or a table of its name and nothing. -/
def ExitClass.decode : Value → Option ExitClass
  | .text s => ofName? s
  | .plain s => ofName? s
  | .table [(.text s, .null)] => ofName? s
  | _ => none

namespace StreamExpectation

def kind : StreamExpectation → String
  | any => "any"
  | empty => "empty"
  | exact _ => "exact"
  | contains _ => "contains"
  | containsAll _ => "contains_all"

def encode (e : StreamExpectation) : Value :=
  let kind := (Value.text "kind", Value.text e.kind)
  match e with
  | any | empty => .table [kind]
  | exact s | contains s => .table [kind, (.text "text", .text s)]
  | containsAll ss => .table [kind, (.text "text", .list (ss.map .text))]

def ofKind? (kind : String) (text : Option Value) : Option StreamExpectation :=
  let nothing := match text with
    | none => true
    | some v => v.isNothing
  if kind = "any" then
    if nothing then some any else none
  else if kind = "empty" then
    if nothing then some empty else none
  else if kind = "exact" then (text.bind Value.text?).map exact
  else if kind = "contains" then (text.bind Value.text?).map contains
  else if kind = "contains_all" then (text.bind Value.texts?).map containsAll
  else none

/-- The kind and the text that the entries of a table give. A text in front of the kind is typed. -/
def further? (given : Option String × Option Value) (entry : Value × Value) :
    Option (Option String × Option Value) :=
  match entry.1.text? with
  | none => none
  | some key =>
    if key = "kind" then
      if given.1.isSome then none else entry.2.text?.map fun kind => (some kind, given.2)
    else if key = "text" then
      if given.2.isSome then none
      else if given.1.isSome then some (given.1, some entry.2)
      else entry.2.typed.map fun v => (none, some v)
    else some given

/-- Reads an expectation: a table, or a list of its kind and its text. -/
def decode : Value → Option StreamExpectation
  | .table entries =>
    match entries.foldlM further? (none, none) with
    | some (some kind, text) => ofKind? kind text
    | _ => none
  | .list [kind, text] => kind.text?.bind fun kind => ofKind? kind (some text)
  | _ => none

end StreamExpectation

namespace Artifact

def encode : Artifact → Value
  | exactText produced text =>
    .table [(.text "kind", .text "exact_text"), (.text "produced", .text produced),
      (.text "text", .text text)]
  | exactFile produced expected =>
    .table [(.text "kind", .text "exact_file"), (.text "produced", .text produced),
      (.text "expected", .text expected)]
  | image produced expected tolerance =>
    .table [(.text "kind", .text "image"), (.text "produced", .text produced),
      (.text "expected", .text expected),
      (.text "tolerance", match tolerance with
        | none => .null
        | some x => .real x)]

/-- Reads the fields of an artifact of a kind. -/
def ofKind? (kind : String) (v : Value) : Option Artifact :=
  if kind = "exact_text" then do
    let fields ← v.record? ["produced", "text"]
    let produced ← Value.required fields "produced" Value.text?
    let text ← Value.required fields "text" Value.text?
    pure (exactText produced text)
  else if kind = "exact_file" then do
    let fields ← v.record? ["produced", "expected"]
    let produced ← Value.required fields "produced" Value.text?
    let expected ← Value.required fields "expected" Value.text?
    pure (exactFile produced expected)
  else if kind = "image" then do
    let fields ← v.record? ["produced", "expected", "tolerance"]
    let produced ← Value.required fields "produced" Value.text?
    let expected ← Value.required fields "expected" Value.text?
    let tolerance ← Value.optional fields "tolerance" none Value.optionalNumber?
    pure (image produced expected tolerance)
  else none

def isKind (entry : Value × Value) : Bool :=
  match entry.1.text? with
  | some key => key == "kind"
  | none => false

/-- Reads an artifact: a table, or a list of its kind and its fields. -/
def decode : Value → Option Artifact
  | .table entries =>
    match entries.filter isKind with
    | [(_, kind)] => do
      let kind ← kind.text?
      let fields ← Value.typedEntries (entries.filter fun entry => !isKind entry)
      ofKind? kind (.table fields)
    | _ => none
  | .list (kind :: rest) => do
    let kind ← kind.text?
    let fields ← Value.typedItems rest
    ofKind? kind (.list fields)
  | _ => none

end Artifact

namespace Scenario

def fieldNames : List String :=
  ["name", "description", "args", "output_subdirs", "exit", "stdout", "stderr", "artifacts"]

def encode (s : Scenario) : Value :=
  .table
    [(.text "name", .text s.name),
     (.text "description", match s.description with
       | none => .null
       | some d => .text d),
     (.text "args", .list (s.args.map .text)),
     (.text "output_subdirs", .list (s.outputSubdirs.map .text)),
     (.text "exit", .text s.exit.name),
     (.text "stdout", s.stdout.encode),
     (.text "stderr", s.stderr.encode),
     (.text "artifacts", .list (s.artifacts.map Artifact.encode))]

def artifacts? (v : Value) : Option (List Artifact) :=
  v.items?.bind fun items => items.mapM Artifact.decode

def decode (v : Value) : Option Scenario := do
  let fields ← v.record? fieldNames
  let name ← Value.required fields "name" Value.text?
  let description ← Value.optional fields "description" none Value.optionalText?
  let args ← Value.optional fields "args" [] Value.texts?
  let outputSubdirs ← Value.optional fields "output_subdirs" [] Value.texts?
  let exit ← Value.required fields "exit" ExitClass.decode
  let stdout ← Value.optional fields "stdout" .any StreamExpectation.decode
  let stderr ← Value.optional fields "stderr" .any StreamExpectation.decode
  let artifacts ← Value.optional fields "artifacts" [] artifacts?
  pure ⟨name, description, args, outputSubdirs, exit, stdout, stderr, artifacts⟩

def decodeAll (v : Value) : Option (List Scenario) :=
  v.items?.bind fun items => items.mapM decode

def decodeFile (v : Value) : Option (List Scenario) := do
  let fields ← v.record? ["scenarios"]
  Value.required fields "scenarios" decodeAll

end Scenario

end Assay
