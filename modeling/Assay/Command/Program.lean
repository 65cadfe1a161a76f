import Assay.Command.Arguments
import Assay.Command.Execution
import Assay.Process.Host

namespace Assay.Command

def programName : String := "transformix-conformance"

def programVersion : String := "0.1.0"

def versionText : String := programName ++ " " ++ programVersion ++ "\n"

/-- What is printed when a command line cannot be understood, or when a description is asked for. -/
def usageText : String :=
  "Usage: " ++ programName ++ " [-v] <" ++ String.intercalate "|" (forms.map Form.name) ++
    "> [ARGUMENTS]\n"

def Conclusion.code : Conclusion → Nat
  | passed => 0
  | failed => 1

def fatalCode : Nat := 2

def printed (text : String) : ProcessResult := ⟨.code 0, Text.Utf8.ofString text, []⟩

/-- The end of a command line that names no command to be done. -/
def usageEnd : UsageFault → ProcessResult
  | .help => printed usageText
  | .version => printed versionText
  | _ => ⟨.code fatalCode, [], Text.Utf8.ofString usageText⟩

def failureText (failure : Failure) : String :=
  "Error: " ++ failure.message ++ "\n"

def answerEnd : Except Failure Answer → ProcessResult
  | .ok answer => ⟨.code answer.conclusion.code, Text.Utf8.ofString answer.printed, []⟩
  | .error failure => ⟨.code fatalCode, [], Text.Utf8.ofString (failureText failure)⟩

/-- The program. What it does depends on the setup; that it says more is asked for by an argument.
-/
def program (s : Setup) : Program := fun args t =>
  match read .program args with
  | .error fault => (usageEnd fault, t)
  | .ok line =>
    let (outcome, left) := ({ s with verbose := line.verbose }.execute line.command).run t
    (answerEnd outcome, left)

end Assay.Command
