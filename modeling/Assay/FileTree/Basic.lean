import Assay.Path
import Assay.Text.Utf8
import Assay.FileTree.Cause

namespace Assay

/-- The names that lead from the root to an entry. -/
abbrev Location := List String

inductive Entry where
  | directory
  | file (content : Bytes) (mode : Nat)
  deriving DecidableEq, Repr

def Entry.isDirectory : Entry → Bool
  | .directory => true
  | .file _ _ => false

def executeBits : Nat := 0o111

/-- Whether an entry is a file that somebody may execute. -/
def Entry.isExecutable : Entry → Bool
  | .directory => false
  | .file _ mode => mode &&& executeBits != 0

def newFileMode : Nat := 0o644

/-- The entries of a file system without links, and the directory that relative paths start from.
The root is a directory and has no entry of its own. -/
structure FileTree where
  entries : List (Location × Entry)
  workingDirectory : Location
  deriving DecidableEq, Repr

namespace FileTree

def entryAt? (t : FileTree) (location : Location) : Option Entry :=
  if location.isEmpty then some .directory else t.entries.lookup location

/-- Puts an entry in place of the one at its location, or after all others. -/
def putEntry (location : Location) (e : Entry) : List (Location × Entry) → List (Location × Entry)
  | [] => [(location, e)]
  | (other, old) :: rest =>
    if other = location then (location, e) :: rest else (other, old) :: putEntry location e rest

def put (t : FileTree) (location : Location) (e : Entry) : FileTree :=
  { t with entries := putEntry location e t.entries }

def longestName : Nat := 255

def longestPath : Nat := 4095

/-- Why a text cannot be a path at all. -/
def pathFault? (p : Path) : Option SystemCause :=
  let s := p.text.toList
  if s.contains '\x00' then some .nulInName
  else if s.isEmpty then some .notFound
  else if longestPath < Text.Utf8.size s then some .nameTooLong
  else none

/-- The location below a directory that a part of a path leads to. -/
def step (t : FileTree) (here : Location) (segment : List Char) : Except SystemCause Location :=
  match t.entryAt? here with
  | none => .error .notFound
  | some (.file _ _) => .error .notADirectory
  | some .directory =>
    if Path.isIdle segment then .ok here
    else if segment = ['.', '.'] then .ok here.dropLast
    else if longestName < Text.Utf8.size segment then .error .nameTooLong
    else
      let there := here ++ [String.ofList segment]
      if (t.entryAt? there).isSome then .ok there else .error .notFound

/-- The location that the parts of a path lead to. -/
def walk (t : FileTree) : Location → List (List Char) → Except SystemCause Location
  | here, [] => .ok here
  | here, segment :: rest =>
    match t.step here segment with
    | .error c => .error c
    | .ok there => t.walk there rest

def start (t : FileTree) (p : Path) : Location :=
  if p.isAbsolute then [] else t.workingDirectory

/-- The parts of a path to be followed from its start. An absolute path's text starts with a slash,
in front of which there is nothing. -/
def parts (p : Path) : List (List Char) :=
  if p.isAbsolute then (Path.segments p.text.toList).drop 1 else Path.segments p.text.toList

def find (t : FileTree) (p : Path) : Except SystemCause (Location × Entry) :=
  match pathFault? p with
  | some c => .error c
  | none =>
    match t.walk (t.start p) (parts p) with
    | .error c => .error c
    | .ok there =>
      match t.entryAt? there with
      | some e => .ok (there, e)
      | none => .error .notFound

def has (t : FileTree) (p : Path) : Bool :=
  match t.find p with
  | .ok _ => true
  | .error _ => false

def hasDirectory (t : FileTree) (p : Path) : Bool :=
  match t.find p with
  | .ok (_, e) => e.isDirectory
  | .error _ => false

def read (t : FileTree) (p : Path) : Except SystemCause Bytes :=
  match t.find p with
  | .error c => .error c
  | .ok (_, .directory) => .error .isADirectory
  | .ok (_, .file content _) => .ok content

def readText (t : FileTree) (p : Path) : Except SystemCause String :=
  match t.read p with
  | .error c => .error c
  | .ok content =>
    match Text.Utf8.toString? content with
    | none => .error .notText
    | some s => .ok s

/-- Where the last part of a path is to be created: a directory that exists, and a part below it. -/
structure Place where
  directory : Location
  last : List Char

/-- The place that a list of parts names, after its start. -/
def place (t : FileTree) (here : Location) (parts : List (List Char)) :
    Except SystemCause Place :=
  match t.walk here parts.dropLast with
  | .error c => .error c
  | .ok there =>
    match t.entryAt? there with
    | none => .error .notFound
    | some (.file _ _) => .error .notADirectory
    | some .directory => .ok ⟨there, parts.getLast?.getD []⟩

/-- Whether a part of a path is a step back or leads nowhere, so that it cannot be created. -/
def isStep (segment : List Char) : Bool :=
  Path.isIdle segment || segment == ['.', '.']

/-- The parts of a path without the empty ones at its end, which only slashes make. -/
def dropSlashes (parts : List (List Char)) : List (List Char) :=
  (parts.reverse.dropWhile List.isEmpty).reverse

/-- Writes a file: its content is replaced, and its mode kept, or it is created. A path that ends in
a slash, or whose last part is no name, means a directory. -/
def write (t : FileTree) (p : Path) (content : Bytes) : Except SystemCause FileTree :=
  match pathFault? p with
  | some c => .error c
  | none =>
    match t.place (t.start p) (dropSlashes (parts p)) with
    | .error c => .error c
    | .ok place =>
      if isStep place.last || p.text.toList.getLast? = some '/' then .error .isADirectory
      else if longestName < Text.Utf8.size place.last then .error .nameTooLong
      else
        let there := place.directory ++ [String.ofList place.last]
        match t.entryAt? there with
        | some .directory => .error .isADirectory
        | some (.file _ mode) => .ok (t.put there (.file content mode))
        | none => .ok (t.put there (.file content newFileMode))

/-- Makes one directory. Slashes at the end of its path are ignored. -/
def makeDirectory (t : FileTree) (p : Path) : Except SystemCause FileTree :=
  match pathFault? p with
  | some c => .error c
  | none =>
    match t.place (t.start p) (dropSlashes (parts p)) with
    | .error c => .error c
    | .ok place =>
      if isStep place.last then .error .alreadyExists
      else if longestName < Text.Utf8.size place.last then .error .nameTooLong
      else
        let there := place.directory ++ [String.ofList place.last]
        match t.entryAt? there with
        | some _ => .error .alreadyExists
        | none => .ok (t.put there .directory)

/-- Makes the first of a list of directories, each of which is the parent of the one before it, and
before it those of the others that are missing. A directory that is already there is left alone. The
tree holds what was made before a failure. -/
def makeChain (t : FileTree) : List Path → FileTree × Except SystemCause Unit
  | [] => (t, .ok ())
  | p :: above =>
    if p.text.isEmpty then (t, .ok ())
    else
      match t.makeDirectory p with
      | .ok made => (made, .ok ())
      | .error .notFound =>
        match t.makeChain above with
        | (made, .error c) => (made, .error c)
        | (made, .ok ()) =>
          match made.makeDirectory p with
          | .ok made => (made, .ok ())
          | .error c => if made.hasDirectory p then (made, .ok ()) else (made, .error c)
      | .error c => if t.hasDirectory p then (t, .ok ()) else (t, .error c)

/-- Makes a directory and those above it that are missing. -/
def makeDirectories (t : FileTree) (p : Path) : FileTree × Except SystemCause Unit :=
  t.makeChain p.ancestors

theorem lookup_putEntry_self (location : Location) (e : Entry) (l : List (Location × Entry)) :
    (putEntry location e l).lookup location = some e := by
  induction l with
  | nil => simp [putEntry]
  | cons x rest ih =>
    obtain ⟨other, old⟩ := x
    by_cases h : other = location
    · simp [putEntry, h]
    · have h' : (location == other) = false := by simpa using fun h'' => h h''.symm
      simp [putEntry, h, List.lookup_cons, h', ih]

theorem lookup_putEntry_ne {location other : Location} (h : other ≠ location) (e : Entry)
    (l : List (Location × Entry)) : (putEntry location e l).lookup other = l.lookup other := by
  have h' : (other == location) = false := by simpa using h
  induction l with
  | nil => simp [putEntry, List.lookup_cons, h']
  | cons x rest ih =>
    obtain ⟨third, old⟩ := x
    by_cases hl : third = location
    · subst hl
      simp [putEntry, List.lookup_cons, h']
    · simp [putEntry, hl, List.lookup_cons, ih]

/-- What was put at a location stands there. -/
@[simp] theorem entryAt?_put_self {t : FileTree} {location : Location} (h : location ≠ []) (e : Entry) :
    (t.put location e).entryAt? location = some e := by
  simp [put, entryAt?, h, lookup_putEntry_self]

/-- Putting an entry at one location leaves all others as they were. -/
theorem entryAt?_put_ne {t : FileTree} {location other : Location} (h : other ≠ location) (e : Entry) :
    (t.put location e).entryAt? other = t.entryAt? other := by
  simp [put, entryAt?, lookup_putEntry_ne h]

end FileTree

end Assay
