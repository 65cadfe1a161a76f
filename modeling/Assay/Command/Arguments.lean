import Assay.Command.Grammar

namespace Assay.Command

def helpSwitch : Switch := ⟨"help", some 'h', .help⟩

def versionSwitch : Switch := ⟨"version", some 'V', .version⟩

def verboseSwitch : Switch := ⟨"verbose", some 'v', .flag⟩

def long (name : String) (role : Role) : Switch := ⟨name, none, role⟩

/-- A command: its name, its grammar apart from what all commands share, and what its arguments ask
for. -/
structure Form where
  name : String
  switches : List Switch
  paths : Nat
  command : Reading → Except UsageFault Command

def overrides (r : Reading) : Overrides :=
  ⟨r.path? "exe", r.path? "output-root", r.path? "data-dir", r.path? "parameter-dir",
    r.path? "expected-dir", r.path? "config"⟩

def runForm : Form where
  name := "run"
  switches :=
    [long "exe" .path, long "output-root" .path, long "data-dir" .path, long "parameter-dir" .path,
      long "expected-dir" .path, long "config" .path, long "scenarios" .path, long "filter" .text,
      ⟨"jobs", some 'j', .count⟩, long "json" .flag]
  paths := 0
  command := fun r =>
    .ok (.run ⟨overrides r, r.path? "scenarios", r.text? "filter", r.count? "jobs",
      r.has "json"⟩)

def listForm : Form where
  name := "list"
  switches := [long "scenarios" .path, long "config" .path]
  paths := 0
  command := fun r => .ok (.list (r.path? "scenarios") (r.path? "config"))

def compareImagesForm : Form where
  name := "compare-images"
  switches := [long "tolerance" .real]
  paths := 2
  command := fun r =>
    match r.paths with
    | [actual, expected] => .ok (.compareImages actual expected (r.real? "tolerance"))
    | _ => .error .missingPositional

def compareFilesForm : Form where
  name := "compare-files"
  switches := []
  paths := 2
  command := fun r =>
    match r.paths with
    | [actual, expected] => .ok (.compareFiles actual expected)
    | _ => .error .missingPositional

def inspectForm : Form where
  name := "inspect"
  switches := []
  paths := 1
  command := fun r =>
    match r.paths with
    | [image] => .ok (.inspect image)
    | _ => .error .missingPositional

def forms : List Form :=
  [runForm, listForm, compareImagesForm, compareFilesForm, inspectForm]

def form? (name : String) : Option Form :=
  forms.find? fun f => f.name == name

def helpWord : String := "help"

structure Line where
  verbose : Bool
  command : Command

/-- The switches around the commands: those that come before the name of a command, and those that
every command shares. -/
structure Surroundings where
  before : List Switch
  shared : List Switch
  deriving DecidableEq, Repr

def Surroundings.bare : Surroundings := ⟨[helpSwitch], [helpSwitch]⟩

/-- The commands of the program, which can be told to say more. -/
def Surroundings.program : Surroundings where
  before := verboseSwitch :: Surroundings.bare.before ++ [versionSwitch]
  shared := verboseSwitch :: Surroundings.bare.shared

def Form.read (f : Form) (shared : List Switch) (front : Reading) (args : List String) :
    Except UsageFault Line := do
  let r ← Grammar.read ⟨f.switches ++ shared, f.paths⟩ args
  let command ← f.command r
  pure ⟨front.has verboseSwitch.name || r.has verboseSwitch.name, command⟩

/-- What the words behind the one that asks for a description ask for. At most one of them names a
command. -/
def describe : List String → UsageFault
  | [] => .help
  | [name] => if (form? name).isSome || name == helpWord then .help else .unknownCommand
  | _ => .unknownCommand

/-- Why a word where a command has to stand, behind the mark that only paths follow, names none. -/
def behindSeparator : List String → UsageFault
  | [] => .missingCommand
  | word :: _ =>
    if (form? word).isSome || word == helpWord then .unknownArgument else .unknownCommand

def readFrom (s : Surroundings) (front : Reading) : List String → Except UsageFault Line
  | [] => .error .missingCommand
  | arg :: rest =>
    if arg = helpWord then .error (describe rest)
    else
      match form? arg with
      | some f => f.read s.shared front rest
      | none =>
        match Shape.of arg with
        | .word => .error .unknownCommand
        | .separator => .error (behindSeparator rest)
        | shape =>
          match Reading.takeShape ⟨s.before, 0⟩ front arg shape with
          | .error fault => .error fault
          | .ok front => readFrom s front rest

def read (s : Surroundings) (args : List String) : Except UsageFault Line :=
  readFrom s Reading.empty args

end Assay.Command
