import Assay.Failure
import Assay.FileTree.Basic
import Assay.Text.Search

namespace Assay

structure ProcessResult where
  exit : Exit
  stdout : Bytes
  stderr : Bytes
  deriving DecidableEq, Repr

/-- What happens when a program is started with arguments in a file tree: it does not start, or it
ends and leaves a file tree. -/
abbrev Behaviour := List String → FileTree → Except SystemCause (ProcessResult × FileTree)

/-- What happens when the program that a path means is started. -/
abbrev Launcher := Path → Behaviour

/-- A step of a run: it may change the file tree, also when it fails. -/
abbrev Run := ExceptT Failure (StateM FileTree)

structure Invocation where
  program : Path
  args : List String
  deriving DecidableEq, Repr

namespace Invocation

/-- Whether an argument is shown between quotes: it is empty or holds a blank. -/
def needsQuotes (arg : String) : Bool :=
  arg.isEmpty || arg.toList.any Text.isBlank

def argText (arg : String) : String :=
  if needsQuotes arg then "'" ++ arg ++ "'" else arg

def display (i : Invocation) : String :=
  String.intercalate " " (i.program.text :: i.args.map argText)

end Invocation

/-- Why a program did not start, as a failure: it is not found or may not be executed, or anything
else. -/
def startFailure (program : Path) : SystemCause → Failure
  | .notFound => .executable program (.system .notFound)
  | .permissionDenied => .executable program (.system .permissionDenied)
  | cause => .spawn program cause

/-- Starts a program and waits for its end. If it has to succeed, any other end is a failure. -/
def Launcher.run (launch : Launcher) (i : Invocation) (mustSucceed : Bool) :
    Run ProcessResult := do
  match launch i.program i.args (← get) with
  | .error cause => throw (startFailure i.program cause)
  | .ok (result, left) =>
    set left
    if mustSucceed && !result.exit.isSuccess then
      throw (.requiredSuccess i.display result.exit
        (Text.trimmed (Text.Utf8.toStringLossy result.stderr)))
    else pure result

end Assay
