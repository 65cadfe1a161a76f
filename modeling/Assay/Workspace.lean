import Assay.Configuration.Basic
import Assay.Process.Basic

namespace Assay

/-- The output directory of a scenario in a run. -/
structure Workspace where
  configuration : Configuration
  directory : Path

namespace Workspace

/-- Whether a text can be the name of a scenario: a single step of a path that leads down. -/
def isName (name : String) : Bool :=
  !(name.isEmpty || name == "." || name == ".." || name.toList.contains '/' ||
    name.toList.contains '\\')

def make (directory : Path) : Run Unit := do
  let (made, result) := (← get).makeDirectories directory
  set made
  match result with
  | .error cause => throw (.outputDirectory directory cause)
  | .ok () => pure ()

/-- The workspace of a scenario, whose directory is made or used again. -/
def enter (c : Configuration) (name : String) : Run Workspace := do
  if !isName name then throw (.invalidScenario name .badName)
  let directory := c.outputRoot.join ⟨name⟩
  make directory
  pure ⟨c, directory⟩

/-- Whether a path stays inside the directory that it is relative to. -/
def staysInside (p : Path) : Bool :=
  !p.isAbsolute && !p.components.contains .parent

/-- Makes a directory below the output directory. -/
def subdirectory (w : Workspace) (relative : String) : Run Path := do
  if !staysInside ⟨relative⟩ then throw (.settings (.escapingDirectory relative))
  let directory := w.directory.join ⟨relative⟩
  make directory
  pure directory

def placeholder (name : String) : List Char :=
  '\x7b' :: name.toList ++ ['\x7d']

def placeholders (w : Workspace) : List (List Char × Path) :=
  [(placeholder "out", w.directory), (placeholder "data", w.configuration.dataDir),
    (placeholder "params", w.configuration.parameterDir),
    (placeholder "expected", w.configuration.expectedDir)]

/-- A template with its placeholders replaced, one after another. -/
def expand (w : Workspace) (template : String) : String :=
  String.ofList (w.placeholders.foldl (fun text p =>
    Text.replaceAll p.1 p.2.text.toList text) template.toList)

/-- The path that a template means: by itself if it starts with a brace or becomes absolute, else
below a directory. -/
def expandBelow (w : Workspace) (base : Path) (template : String) : Path :=
  let expanded : Path := ⟨w.expand template⟩
  if expanded.isAbsolute || template.toList.head? = some '\x7b' then expanded
  else base.join expanded

def outputPath (w : Workspace) (template : String) : Path :=
  w.expandBelow w.directory template

def expectedPath (w : Workspace) (template : String) : Path :=
  w.expandBelow w.configuration.expectedDir template

end Workspace

end Assay
