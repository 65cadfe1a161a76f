import Assay.Decimal.Notation
import Assay.Run.Summary
import Assay.Value

namespace Assay.Report.Json

def hexDigit (n : Nat) : Char :=
  (Nat.digitChar n)

def encodeChar (c : Char) : List Char :=
  if c = '"' then ['\\', '"']
  else if c = '\\' then ['\\', '\\']
  else if c = '\x08' then ['\\', 'b']
  else if c = '\x0c' then ['\\', 'f']
  else if c = '\n' then ['\\', 'n']
  else if c = '\r' then ['\\', 'r']
  else if c = '\t' then ['\\', 't']
  else if c.toNat < 0x20 then
    ['\\', 'u', '0', '0', hexDigit (c.toNat / 16), hexDigit (c.toNat % 16)]
  else [c]

def string (s : String) : String :=
  String.ofList ('"' :: s.toList.flatMap encodeChar ++ ['"'])

def indent (level : Nat) : String :=
  String.ofList (List.replicate (2 * level) ' ')

/-- Items on lines of their own between two brackets, or the brackets alone. -/
def block (opening closing : String) (level : Nat) (items : List String) : String :=
  if items.isEmpty then opening ++ closing
  else
    opening ++ "\n" ++
      String.intercalate ",\n" (items.map fun item => indent (level + 1) ++ item) ++ "\n" ++
      indent level ++ closing

def keyText : Value → String
  | .text s | .plain s | .moment s => s
  | .integer n => String.ofList (Decimal.integer n)
  | _ => ""

mutual

/-- The text of a value at a level. A number that is not finite has no text and is left out. -/
def write (level : Nat) : Value → String
  | .null => "null"
  | .boolean b => if b then "true" else "false"
  | .integer n => String.ofList (Decimal.integer n)
  | .real x => if x.isFinite then Decimal.exact x else "null"
  | .text s | .plain s | .moment s => string s
  | .list items => block "[" "]" level (writeItems (level + 1) items)
  | .table entries => block "\x7b" "\x7d" level (writeEntries (level + 1) entries)

def writeItems (level : Nat) : List Value → List String
  | [] => []
  | v :: rest => write level v :: writeItems level rest

def writeEntries (level : Nat) : List (Value × Value) → List String
  | [] => []
  | (k, v) :: rest => (string (keyText k) ++ ": " ++ write level v) :: writeEntries level rest

end

def ofMismatch (m : Mismatch) : Value :=
  .table [(.text "check", .text m.check), (.text "detail", .text m.detail)]

/-- An exit as a value: its code, or nothing. -/
def ofExit (e : Exit) : Value :=
  match e.code? with
  | none => .null
  | some n => .integer n

def ofOutcome (o : Outcome) : Value :=
  .table
    [(.text "name", .text o.name),
     (.text "command", .text o.command),
     (.text "exit_code", ofExit o.exit),
     (.text "output_dir", .text o.outputDir.text),
     (.text "mismatches", .list (o.mismatches.map ofMismatch))]

def ofSummary (s : Summary) : Value :=
  .table
    [(.text "passed", .integer s.passed),
     (.text "failed", .integer s.failed),
     (.text "outcomes", .list (s.outcomes.map ofOutcome))]

def summary (s : Summary) : String :=
  write 0 (ofSummary s) ++ "\n"

end Assay.Report.Json
