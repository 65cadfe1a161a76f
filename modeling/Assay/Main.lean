import Assay.Command.Program
import Assay.Displacement.Program

namespace Assay.Main

/-- The mode of a file that was read. Whether it may be executed is not known, so it may. -/
def assumedMode : Nat := 0o755

partial def readEntries (location : Location) (entries : Array IO.FS.DirEntry) :
    IO (List (Location × Entry)) := do
  let mut read := []
  for entry in entries do
    let there := location ++ [entry.fileName]
    if ← entry.path.isDir then
      let below ← readEntries there (← entry.path.readDir)
      read := read ++ (there, Entry.directory) :: below
    else
      let content ← IO.FS.readBinFile entry.path
      read := read ++ [(there, Entry.file content.toList assumedMode)]
  pure read

def locationOf (path : String) : Location :=
  ((Path.segments path.toList).filter (· ≠ [])).map String.ofList

/-- The location followed by the locations that it is below of. -/
def withAncestors (location : Location) : List Location :=
  (List.range location.length).map fun n => location.take (n + 1)

def pathOf (location : Location) : String :=
  "/" ++ String.intercalate "/" location

def readFile? (path : String) : IO (Option (Location × Entry)) := do
  try
    let content ← IO.FS.readBinFile path
    pure (some (locationOf path, .file content.toList assumedMode))
  catch _ => pure none

/-- The entries of a list with the directories above them. -/
def complete (entries : List (Location × Entry)) : List (Location × Entry) :=
  entries.flatMap (fun e => (withAncestors e.1.dropLast).map (·, Entry.directory)) ++ entries

/-- Reads the file tree that the program works on: everything below the working directory, and the
file of the user's settings. -/
def readTree (settings : String) : IO FileTree := do
  let here ← IO.currentDir
  let location := locationOf here.toString
  let below ← readEntries location (← here.readDir)
  let outside := (← readFile? settings).toList
  pure ⟨complete ((location, .directory) :: outside) ++ below, location⟩

def writeEntry (entry : Location × Entry) : IO Unit :=
  match entry.2 with
  | .directory => IO.FS.createDirAll (pathOf entry.1)
  | .file content _ => IO.FS.writeBinFile (pathOf entry.1) ⟨content.toArray⟩

def writeChanges (before after : FileTree) : IO Unit :=
  (after.entries.filter fun e => before.entryAt? e.1 != some e.2).forM writeEntry

def userSettings : IO String := do
  match ← IO.getEnv "XDG_CONFIG_HOME" with
  | some directory => pure directory
  | none => pure ((← IO.getEnv "HOME").getD "" ++ "/.config")

/-- The only program that can be started from here is the displacing one, by a file of its name. -/
def readSetup (userSettings : String) : IO Command.Setup := do
  let searchPath := SearchPath.ofText ((← IO.getEnv "PATH").getD "")
  let flaw := (← IO.getEnv "MOCK_TRANSFORMIX_FAULT").bind Displacement.Flaw.ofName?
  let host : Host :=
    { searchPath := searchPath
      program? := fun location _ =>
        if location.getLast? == some Displacement.programName then some (Displacement.program flaw)
        else none }
  let environment : Environment :=
    { executable := ← IO.getEnv RequiredSetting.executable.variable
      outputRoot := ← IO.getEnv RequiredSetting.outputRoot.variable
      searchPath := searchPath
      userSettings := ⟨userSettings⟩ }
  let palette := if (← IO.getEnv "NO_COLOR").isSome then .plain else .colored
  pure ⟨host.launch, environment, palette, false⟩

end Assay.Main

def main (args : List String) : IO UInt32 := do
  let settings ← Assay.Main.userSettings
  let setup ← Assay.Main.readSetup settings
  let before ← Assay.Main.readTree (Assay.Configuration.defaultFile ⟨settings⟩).text
  let (result, after) := Assay.Command.program setup args before
  Assay.Main.writeChanges before after
  (← IO.getStdout).putStr (Assay.Text.Utf8.toStringLossy result.stdout)
  (← IO.getStderr).putStr (Assay.Text.Utf8.toStringLossy result.stderr)
  pure (result.exit.code?.getD Assay.Command.fatalCode).toUInt32
