import Assay.Text.Search

namespace Assay.Report

inductive Style where
  | cyan
  | green
  | red
  | yellow
  | dimmed
  | boldGreen
  | boldRed
  | boldWhite
  deriving DecidableEq, Repr

def Style.code : Style → String
  | cyan => "36"
  | green => "32"
  | red => "31"
  | yellow => "33"
  | dimmed => "2"
  | boldGreen => "1;32"
  | boldRed => "1;31"
  | boldWhite => "1;37"

/-- The characters that change how a terminal shows what follows. -/
def control (code : String) : String :=
  "\x1b[" ++ code ++ "m"

def Style.on (s : Style) : String :=
  control s.code

def off : String :=
  control "0"

inductive Palette where
  | plain
  | colored
  deriving DecidableEq, Repr

/-- Everything is switched off behind a styled text, so inside of it the style is switched on again
after every place that switches everything off. -/
def paint (p : Palette) (s : Style) (text : String) : String :=
  match p with
  | .plain => text
  | .colored =>
    s.on ++ String.ofList (Text.replaceAll off.toList (off ++ s.on).toList text.toList) ++ off

end Assay.Report
