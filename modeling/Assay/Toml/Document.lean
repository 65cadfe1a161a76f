import Assay.Toml.Scalar

namespace Assay.Toml

/-- What a key of a table leads to. A table is open while no header has defined it, and dotted when
dotted keys made it. -/
inductive Item where
  | value (v : Value)
  | table (isOpen dotted : Bool) (entries : List (String × Item))
  | tables (items : List Item)

def replace (key : String) (item : Item) : List (String × Item) → List (String × Item)
  | [] => [(key, item)]
  | (k, old) :: rest => if k = key then (k, item) :: rest else (k, old) :: replace key item rest

/-- Changes the table that a path leads to. Tables that are missing on the way are made; of several
tables of one name the last is meant. Dotted keys lead into no table that a header has defined. -/
def Item.change (dotted : Bool) (f : Item → Option Item) : List String → Item → Option Item
  | [], item => f item
  | key :: rest, .table isOpen byDots entries =>
    let into (next : Option Item) (wrap : Item → Item) : Option Item :=
      next.map fun next => .table isOpen byDots (replace key (wrap next) entries)
    match entries.lookup key with
    | none => into (Item.change dotted f rest (.table true dotted [])) id
    | some (.value _) => none
    | some (.table innerOpen innerDotted inner) =>
      if dotted && !innerOpen then none
      else into (Item.change dotted f rest (.table innerOpen innerDotted inner)) id
    | some (.tables items) =>
      match items.getLast? with
      | none => none
      | some last =>
        into (Item.change dotted f rest last) fun next => .tables (items.dropLast ++ [next])
  | _ :: _, _ => none

/-- Adds a key to the table that the parts in front of it lead to. Whether these are dotted keys
has to agree with how the table was made. -/
def Item.add (path : List String) (v : Value) (item : Item) : Option Item :=
  match path.getLast? with
  | none => none
  | some key =>
    Item.change true (fun
      | .table isOpen dotted entries =>
        if dotted == path.dropLast.isEmpty || (entries.lookup key).isSome then none
        else some (.table isOpen dotted (entries ++ [(key, .value v)]))
      | _ => none) path.dropLast item

def Item.define (path : List String) (item : Item) : Option Item :=
  match path.getLast? with
  | none => none
  | some key =>
    Item.change false (fun
      | .table isOpen dotted entries =>
        match entries.lookup key with
        | none => some (.table isOpen dotted (entries ++ [(key, .table false false [])]))
        | some (.table true false inner) =>
          some (.table isOpen dotted (replace key (.table false false inner) entries))
        | some _ => none
      | _ => none) path.dropLast item

def Item.append (path : List String) (item : Item) : Option Item :=
  match path.getLast? with
  | none => none
  | some key =>
    Item.change false (fun
      | .table isOpen dotted entries =>
        let fresh := Item.table false false []
        match entries.lookup key with
        | none => some (.table isOpen dotted (entries ++ [(key, .tables [fresh])]))
        | some (.tables items) =>
          some (.table isOpen dotted (replace key (.tables (items ++ [fresh])) entries))
        | some _ => none
      | _ => none) path.dropLast item

mutual

def Item.toValue : Item → Value
  | .value v => v
  | .table _ _ entries => .table (Item.toEntries entries)
  | .tables items => .list (Item.toItems items)

def Item.toEntries : List (String × Item) → List (Value × Value)
  | [] => []
  | (key, item) :: rest => (.text key, item.toValue) :: Item.toEntries rest

def Item.toItems : List Item → List Value
  | [] => []
  | item :: rest => item.toValue :: Item.toItems rest

end

/-- A table without keys that only its own dotted keys can extend. -/
def Item.empty : Item := .table false false []

def comment : Parse Unit := do
  if ← follows ['#'] then modify fun s => s.dropWhile isPrinted else pure ()

/-- Goes over the end of a line and what may stand in front of it. -/
def lineEnd : Parse Unit := do
  blanks
  comment
  let s ← get
  if s.isEmpty then pure ()
  else if breakLength s = 0 then failure
  else advance (breakLength s)

/-- Goes over spaces, line breaks and comments between the items of a list. -/
def gap : Nat → Parse Unit
  | 0 => pure ()
  | fuel + 1 => do
    blanks
    if ← follows ['#'] then do
      comment
      if breakLength (← get) = 0 then failure else gap fuel
    else
      let n := breakLength (← get)
      if n = 0 then pure () else do advance n; gap fuel

mutual

/-- Reads a value that is nested no deeper than a limit. -/
def value : Nat → Parse Value
  | 0 => failure
  | depth + 1 => do
    match ← peek with
    | none => failure
    | some c =>
      if c = '"' ∨ c = '\'' then do pure (.text (← string c))
      else if c = '[' then do
        advance 1
        pure (.list (← items depth ((← get).length + 1)))
      else if c = '\x7b' then do
        advance 1
        blanks
        if ← follows ['\x7d'] then do advance 1; pure (.table [])
        else do
          let table ← entries depth ((← get).length + 1) Item.empty
          pure table.toValue
      else if c = 't' then word "true" (.boolean true)
      else if c = 'f' then word "false" (.boolean false)
      else number

def items : Nat → Nat → Parse (List Value)
  | 0, _ => failure
  | _, 0 => failure
  | depth + 1, fuel + 1 => do
    gap ((← get).length + 1)
    if ← follows [']'] then do advance 1; pure []
    else
      let v ← value (depth + 1)
      gap ((← get).length + 1)
      if ← follows [','] then do
        advance 1
        pure (v :: (← items (depth + 1) fuel))
      else do
        expect [']']
        pure [v]

def entries : Nat → Nat → Item → Parse Item
  | 0, _, _ => failure
  | _, 0, _ => failure
  | depth + 1, fuel + 1, table => do
    let path ← key
    expect ['=']
    blanks
    let v ← value (depth + 1)
    blanks
    match table.add path v with
    | none => failure
    | some table =>
      if ← follows [','] then do
        advance 1
        entries (depth + 1) fuel table
      else do
        expect ['\x7d']
        pure table

end

/-- A settings file that has been read in part: its root, and the path of the table under whose
header the next keys stand. -/
structure Document where
  root : Item
  header : List String

/-- Reads a line that starts with a bracket: the header of a table, or of one more of several. -/
def readHeader (d : Document) : Parse Document := do
  let several ← follows ['[', '[']
  advance (if several then 2 else 1)
  let path ← key
  expect (if several then [']', ']'] else [']'])
  lineEnd
  match (if several then d.root.append path else d.root.define path) with
  | none => failure
  | some root => pure ⟨root, path⟩

/-- Reads a line of a key and its value. -/
def readEntry (d : Document) : Parse Document := do
  let path ← key
  expect ['=']
  blanks
  let v ← value (deepest + 1)
  lineEnd
  match d.root.change false (Item.add path v) d.header with
  | none => failure
  | some root => pure { d with root := root }

def readLines : Nat → Document → Parse Document
  | 0, _ => failure
  | fuel + 1, d => do
    blanks
    let s ← get
    match s with
    | [] => pure d
    | c :: _ =>
      if c = '#' || breakLength s ≠ 0 then do lineEnd; readLines fuel d
      else if c = '[' then do readLines fuel (← readHeader d)
      else do readLines fuel (← readEntry d)

/-- The value tree of a settings file. -/
def read? (s : String) : Option Value :=
  let text := s.toList
  let text := if text.head? = some Yaml.byteOrderMark then text.drop 1 else text
  ((readLines (text.length + 1) ⟨.empty, []⟩).run text).map fun result => result.1.root.toValue

end Assay.Toml
