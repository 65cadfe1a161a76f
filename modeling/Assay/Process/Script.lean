import Assay.Process.Host

namespace Assay

structure ScriptCase where
  printsArgs : Bool
  stdout : Bytes
  stderr : Bytes
  writes : List (Path × Bytes)
  exit : Exit

/-- The cases of a scripted program, by the first argument. -/
structure Script where
  cases : List (String × ScriptCase)

namespace Script

def silent : ScriptCase := ⟨false, [], [], [], .code 0⟩

def otherwise : String := "*"

/-- The case for arguments: that of the first one, or that for all others. A call without arguments
counts as one with an empty argument. -/
def case (s : Script) (args : List String) : ScriptCase :=
  let first := args.head?.getD ""
  (s.cases.lookup first <|> s.cases.lookup otherwise).getD silent

/-- Writes files, skipping those that cannot be written. -/
def writeAll (t : FileTree) (writes : List (Path × Bytes)) : FileTree :=
  writes.foldl (fun t w =>
    match t.write w.1 w.2 with
    | .ok written => written
    | .error _ => t) t

def argLines (args : List String) : Bytes :=
  args.flatMap fun arg => Text.Utf8.ofString (arg ++ "\n")

def program (s : Script) : Program := fun args t =>
  let c := s.case args
  let printed := if c.printsArgs then argLines args else []
  (⟨c.exit, printed ++ c.stdout, c.stderr⟩, writeAll t c.writes)

end Script

end Assay
