import Assay.Failure
import Assay.FileTree.Basic

namespace Assay

structure SearchPath where
  directories : List Path
  deriving DecidableEq, Repr

namespace SearchPath

/-- The directories of a text, with colons between them. -/
def ofText (s : String) : SearchPath :=
  ⟨(s.toList.splitOn ':').map fun directory => ⟨String.ofList directory⟩⟩

def isProgram (t : FileTree) (p : Path) : Bool :=
  match t.find p with
  | .ok (_, e) => e.isExecutable
  | .error _ => false

def find? (s : SearchPath) (t : FileTree) (name : Path) : Option Path :=
  (s.directories.map fun directory => directory.join name).find? (isProgram t)

end SearchPath

/-- Whether a path is a name that leads to nothing by itself. -/
def isBareName (t : FileTree) (p : Path) : Bool :=
  p.components.length == 1 && !t.has p

/-- A name that leads to nothing by itself is looked up in the search path; any other path has to
lead to a file that may be executed. -/
def resolveExecutable (t : FileTree) (s : SearchPath) (p : Path) : Except Failure Path :=
  if isBareName t p then
    match s.find? t p with
    | none => .error (.executable p .notInSearchPath)
    | some q => .ok q
  else
    match t.find p with
    | .error cause => .error (.executable p (.system cause))
    | .ok (_, .directory) => .error (.executable p .notAFile)
    | .ok (_, .file content mode) =>
      if (Entry.file content mode).isExecutable then .ok p
      else .error (.executable p .notExecutable)

end Assay
