import Assay.Image.Basic
import Assay.Report.Style
import Assay.Run.Summary

namespace Assay.Report

def passMark : String := "✓"

def failMark : String := "✗"

def mismatchLine (p : Palette) (m : Mismatch) : String :=
  "      " ++ paint p .yellow (m.check ++ ":") ++ " " ++ m.detail ++ "\n"

/-- The line for a scenario, and below it the checks that failed. -/
def outcomeHead (p : Palette) (o : Outcome) : String :=
  if o.passed then "  " ++ paint p .green passMark ++ " " ++ o.name ++ "\n"
  else
    "  " ++ paint p .red failMark ++ " " ++ paint p .boldWhite o.name ++ "\n" ++
      String.join (o.mismatches.map (mismatchLine p))

/-- How a scenario can be repeated: the command and the output directory. -/
def outcomeTrace (p : Palette) (o : Outcome) : String :=
  "      $ " ++ paint p .dimmed o.command ++ "\n      output: " ++
    paint p .dimmed o.outputDir.text ++ "\n"

def outcome (p : Palette) (verbose : Bool) (o : Outcome) : String :=
  outcomeHead p o ++ if verbose || !o.passed then outcomeTrace p o else ""

def total (p : Palette) (s : Summary) : String :=
  if s.allPassed then
    "\n" ++ paint p .boldGreen passMark ++ " " ++
      paint p .boldGreen s!"{s.passed} scenarios passed" ++ "\n\n"
  else
    "\n" ++ paint p .boldRed failMark ++ " " ++
      paint p .boldRed s!"{s.failed} of {s.passed + s.failed} scenarios failed" ++ "\n\n"

def summary (p : Palette) (verbose : Bool) (s : Summary) : String :=
  "\n" ++ paint p .cyan "Scenarios:" ++ "\n" ++
    String.join (s.outcomes.map (outcome p verbose)) ++ total p s

def verdict (p : Palette) : Verdict → String
  | .pass => paint p .green passMark ++ " " ++ paint p .boldGreen "Equal" ++ "\n"
  | .fail m => paint p .red failMark ++ " " ++ m.text ++ "\n"

/-- The line for a scenario in the list of a catalog. -/
def scenarioLine (p : Palette) (s : Scenario) : String :=
  match s.description with
  | none => paint p .boldWhite s.name ++ "\n"
  | some d => paint p .boldWhite s.name ++ "  " ++ paint p .dimmed d ++ "\n"

def catalog (p : Palette) (scenarios : List Scenario) : String :=
  String.join (scenarios.map (scenarioLine p))

/-- The lowest and the highest of some numbers, apart from what is no number. -/
def extremes (xs : List Float) : Float × Float :=
  xs.foldl (fun range x =>
    (if x < range.1 then x else range.1, if range.2 < x then x else range.2))
    (Decimal.infinite, -Decimal.infinite)

/-- The line for the range of samples; without samples there is none. -/
def rangeLine (pixels : List Float) : String :=
  if pixels.isEmpty then ""
  else
    let range := extremes pixels
    "  Range:      " ++ Text.bracketed [Decimal.plain range.1, Decimal.plain range.2] ++ "\n"

def image (path : Path) (i : Image) : String :=
  let d := i.descriptor
  "Image: " ++ path.text ++ "\n" ++
  s!"  Dimension:  {d.dimension}\n" ++
  "  Size:       " ++ Image.Descriptor.sizesText d.size ++ "\n" ++
  "  Spacing:    " ++ Image.Descriptor.realsText d.spacing ++ "\n" ++
  "  Origin:     " ++ Image.Descriptor.realsText d.origin ++ "\n" ++
  "  Direction:  " ++ Image.Descriptor.realsText d.direction ++ "\n" ++
  "  Pixel type: " ++ d.elementType.name ++ "\n" ++
  (if d.components = 1 then "" else s!"  Components: {d.components}\n") ++
  rangeLine i.pixels

end Assay.Report
