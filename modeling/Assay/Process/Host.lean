import Assay.Configuration.Lookup
import Assay.Process.Basic

namespace Assay

/-- What a program in a file does; a program that has started always ends. -/
abbrev Program := List String → FileTree → ProcessResult × FileTree

/-- The search path of a system, and the programs that its files hold. -/
structure Host where
  searchPath : SearchPath
  program? : Location → Bytes → Option Program

namespace Host

def file (t : FileTree) (p : Path) : Except SystemCause (Location × Bytes) :=
  match t.find p with
  | .error cause => .error cause
  | .ok (_, .directory) => .error .permissionDenied
  | .ok (location, .file content mode) =>
    if (Entry.file content mode).isExecutable then .ok (location, content)
    else .error .permissionDenied

/-- Whether the look-up goes on with the next directory. -/
def isPassed : SystemCause → Bool
  | .notFound | .notADirectory | .permissionDenied => true
  | _ => false

/-- Looks up a name in directories. One that may not be executed is told only if no other is found.
-/
def search (t : FileTree) (name : Path) :
    SystemCause → List Path → Except SystemCause (Location × Bytes)
  | cause, [] => .error cause
  | cause, directory :: rest =>
    match file t (directory.join name) with
    | .ok found => .ok found
    | .error met =>
      if !isPassed met then .error met
      else search t name (if met = .permissionDenied then met else cause) rest

def locate (h : Host) (t : FileTree) (p : Path) : Except SystemCause (Location × Bytes) :=
  if p.text.isEmpty then .error .notFound
  else if p.text.toList.contains '/' then file t p
  else if FileTree.longestName < Text.Utf8.size p.text.toList then .error .nameTooLong
  else search t p .notFound h.searchPath.directories

/-- Whether a text holds the character that no argument can hold. -/
def hasNul (s : String) : Bool :=
  s.toList.contains '\x00'

/-- Starts the program that a path means. -/
def launch (h : Host) : Launcher := fun p args t =>
  if hasNul p.text || args.any hasNul then .error .nulInArgument
  else
    match h.locate t p with
    | .error cause => .error cause
    | .ok (location, content) =>
      match h.program? location content with
      | none => .error .badFormat
      | some program => .ok (program args t)

end Host

end Assay
