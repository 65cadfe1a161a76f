import Assay.Command.Basic
import Assay.Decimal.Reading

namespace Assay.Command

inductive Role where
  | flag
  | path
  | text
  | count
  | real
  | help
  | version
  deriving DecidableEq, Repr

def Role.takesValue : Role → Bool
  | path | text | count | real => true
  | flag | help | version => false

/-- A switch: its name, perhaps a letter, and what it is for. -/
structure Switch where
  name : String
  letter : Option Char
  role : Role
  deriving DecidableEq, Repr

inductive Setting where
  | flag
  | path (p : Path)
  | text (s : String)
  | count (n : Nat)
  | real (x : Float)

/-- Reads a value for a switch. A path is not empty. -/
def Role.setting : Role → String → Except UsageFault Setting
  | path, s => if s = "" then .error .missingValue else .ok (.path ⟨s⟩)
  | text, s => .ok (.text s)
  | count, s =>
    match Decimal.size? s.toList with
    | none => .error .badValue
    | some n => .ok (.count n)
  | real, s =>
    match Decimal.ofString? s with
    | none => .error .badValue
    | some x => .ok (.real x)
  | flag, _ | help, _ | version, _ => .error .unneededValue

/-- The switches of a command, and how many paths it wants. -/
structure Grammar where
  switches : List Switch
  paths : Nat
  deriving DecidableEq, Repr

def Grammar.named? (g : Grammar) (name : String) : Option Switch :=
  g.switches.find? fun s => s.name == name

def Grammar.lettered? (g : Grammar) (letter : Char) : Option Switch :=
  g.switches.find? fun s => s.letter == some letter

/-- What was given last. It is checked when the next argument is reached, so that an argument which
nobody knows is told before a fault of the one in front of it. -/
inductive Pending where
  | awaiting (s : Switch)
  | value (s : Switch) (text : String)
  | path (text : String)
  deriving DecidableEq, Repr

structure Reading where
  settings : List (String × Setting)
  paths : List Path
  pending : Option Pending
  onlyPaths : Bool

namespace Reading

def empty : Reading := ⟨[], [], none, false⟩

def get? (r : Reading) (name : String) : Option Setting :=
  r.settings.lookup name

def path? (r : Reading) (name : String) : Option Path :=
  match r.get? name with
  | some (.path p) => some p
  | _ => none

def text? (r : Reading) (name : String) : Option String :=
  match r.get? name with
  | some (.text s) => some s
  | _ => none

def count? (r : Reading) (name : String) : Option Nat :=
  match r.get? name with
  | some (.count n) => some n
  | _ => none

def real? (r : Reading) (name : String) : Option Float :=
  match r.get? name with
  | some (.real x) => some x
  | _ => none

def has (r : Reading) (name : String) : Bool :=
  (r.get? name).isSome

/-- Takes a setting that no switch of its name has given before. -/
def take (r : Reading) (s : Switch) (setting : Except UsageFault Setting) :
    Except UsageFault Reading :=
  if r.has s.name then .error .repeatedOption
  else setting.map fun x => { r with settings := (s.name, x) :: r.settings, pending := none }

def settle (r : Reading) : Except UsageFault Reading :=
  match r.pending with
  | none => .ok r
  | some (.awaiting _) => .error .missingValue
  | some (.value s text) => r.take s (s.role.setting text)
  | some (.path text) =>
    if text = "" then .error .missingValue
    else .ok { r with paths := r.paths ++ [⟨text⟩], pending := none }

def takeBare (r : Reading) (s : Switch) : Except UsageFault Reading :=
  match r.settle with
  | .error fault => .error fault
  | .ok r =>
    match s.role with
    | .help => .error .help
    | .version => .error .version
    | _ => r.take s (.ok .flag)

def takeValued (r : Reading) (s : Switch) (attached : Option String) :
    Except UsageFault Reading :=
  match r.settle with
  | .error fault => .error fault
  | .ok r =>
    match attached with
    | none => .ok { r with pending := some (.awaiting s) }
    | some value => r.take s (s.role.setting value)

/-- The number of paths, with the one that is not checked yet. -/
def pathCount (r : Reading) : Nat :=
  match r.pending with
  | some (.path _) => r.paths.length + 1
  | _ => r.paths.length

def takePath (g : Grammar) (r : Reading) (text : String) : Except UsageFault Reading :=
  if r.pathCount < g.paths then
    r.settle.map fun r => { r with pending := some (.path text) }
  else .error .unknownArgument

/-- Takes a switch by its name, which follows two dashes. -/
def takeNamed (g : Grammar) (r : Reading) (name : String) (attached : Option String) :
    Except UsageFault Reading :=
  match g.named? name with
  | none => .error .unknownArgument
  | some s =>
    if s.role.takesValue then r.takeValued s attached
    else if attached.isSome then .error .unneededValue
    else r.takeBare s

/-- The value behind a letter; an equals sign in front does not belong to it. -/
def attachedTo (rest : List Char) : Option String :=
  match rest with
  | [] => none
  | '=' :: rest => some (String.ofList rest)
  | rest => some (String.ofList rest)

/-- Takes switches by their letters, which follow one dash. What stands behind the letter of a
switch that takes a value is the value. -/
def takeLetters (g : Grammar) (r : Reading) : List Char → Except UsageFault Reading
  | [] => .ok r
  | c :: rest =>
    match g.lettered? c with
    | none => .error .unknownArgument
    | some s =>
      if s.role.takesValue then r.takeValued s (attachedTo rest)
      else
        match r.takeBare s with
        | .error fault => .error fault
        | .ok r => takeLetters g r rest

end Reading

inductive Shape where
  | separator
  | named (name : String) (attached : Option String)
  | letters (text : List Char)
  | word
  deriving DecidableEq, Repr

/-- The shape of an argument. A single dash is a word. -/
def Shape.of (arg : String) : Shape :=
  match arg.toList with
  | ['-', '-'] => .separator
  | '-' :: '-' :: rest =>
    match Text.cutAt '=' rest with
    | none => .named (String.ofList rest) none
    | some (name, value) => .named (String.ofList name) (some (String.ofList value))
  | ['-'] => .word
  | '-' :: rest => .letters rest
  | _ => .word

/-- Whether characters behind a dash make a negative number: digits with at most one point behind
the first of them, then perhaps an exponent without a sign. -/
def isMagnitude (s : List Char) : Bool :=
  let rest := s.dropWhile Decimal.isDigit
  let rest := match rest with
    | '.' :: fraction => fraction.dropWhile Decimal.isDigit
    | rest => rest
  let startsWell := (s.head?.map Decimal.isDigit).getD false
  let endsWell := match rest with
    | [] => true
    | c :: digits => (c == 'e' || c == 'E') && !digits.isEmpty && digits.all Decimal.isDigit
  startsWell && endsWell

/-- Whether a switch that waits for its value takes an argument of a shape. -/
def Switch.accepts (s : Switch) : Shape → Bool
  | .word => true
  | .letters text => s.role == .real && isMagnitude text
  | .separator | .named _ _ => false

namespace Reading

def takeShape (g : Grammar) (r : Reading) (arg : String) : Shape → Except UsageFault Reading
  | .separator => .ok { r with onlyPaths := true }
  | .named name attached => takeNamed g r name attached
  | .letters text => takeLetters g r text
  | .word => takePath g r arg

def step (g : Grammar) (r : Reading) (arg : String) : Except UsageFault Reading :=
  if r.onlyPaths then takePath g r arg
  else
    match r.pending with
    | some (.awaiting s) =>
      if s.accepts (.of arg) then .ok { r with pending := some (.value s arg) }
      else takeShape g r arg (.of arg)
    | _ => takeShape g r arg (.of arg)

def steps (g : Grammar) (r : Reading) (args : List String) : Except UsageFault Reading :=
  args.foldlM (step g) r

end Reading

def Grammar.read (g : Grammar) (args : List String) : Except UsageFault Reading :=
  match Reading.empty.steps g args with
  | .error fault => .error fault
  | .ok r =>
    match r.settle with
    | .error fault => .error fault
    | .ok r => if r.paths.length < g.paths then .error .missingPositional else .ok r

example : isMagnitude "1.5e3".toList = true ∧ isMagnitude "1e-3".toList = false := by decide
example : Shape.of "--a=b=c" = .named "a" (some "b=c") := by decide +kernel

end Assay.Command
