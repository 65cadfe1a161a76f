import Assay.Configuration.Resolution

namespace Assay

structure RunRequest where
  settings : Overrides
  scenarios : Option Path
  filter : Option String
  jobs : Option Nat
  json : Bool
  deriving DecidableEq, Repr

inductive Command where
  | run (request : RunRequest)
  | list (scenarios settings : Option Path)
  | compareImages (actual expected : Path) (tolerance : Option Float)
  | compareFiles (actual expected : Path)
  | inspect (image : Path)

inductive UsageFault where
  | missingCommand
  | unknownCommand
  | unknownArgument
  | missingPositional
  | missingValue
  | badValue
  | unneededValue
  | repeatedOption
  | help
  | version
  deriving DecidableEq, Repr

end Assay
