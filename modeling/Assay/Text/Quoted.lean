import Assay.Text.Visible

namespace Assay.Text.Quoted

/-- The digits of a number in base sixteen, in lower case and without leading zeros. -/
def hex (n : Nat) : List Char :=
  (Nat.toDigits 16 n)

def codePoint (c : Char) : List Char :=
  "\\u\x7b".toList ++ hex c.toNat ++ ['\x7d']

def encodeChar (c : Char) : List Char :=
  if c = '\x00' then ['\\', '0']
  else if c = '\t' then ['\\', 't']
  else if c = '\r' then ['\\', 'r']
  else if c = '\n' then ['\\', 'n']
  else if c = '\\' then ['\\', '\\']
  else if c = '"' then ['\\', '"']
  else if isVisible c then [c]
  else codePoint c

def encode (s : List Char) : List Char :=
  '"' :: s.flatMap encodeChar ++ ['"']

end Quoted

def quoted (s : String) : String :=
  String.ofList (Quoted.encode s.toList)

/-- A list of spelled items between brackets, with commas. -/
def bracketed (items : List String) : String :=
  "[" ++ String.intercalate ", " items ++ "]"

example : quoted "a\"b\n" = "\"a\\\"b\\n\"" := by decide +kernel
example : bracketed ["1", "2"] = "[1, 2]" := by decide +kernel

end Assay.Text
