import Assay.Comparison.Verdict
import Assay.Text.Quoted
import Assay.Text.Search
import Assay.Text.Utf8

namespace Assay

namespace Comparison

open Text

/-- Wants a text up to the blanks at its ends. -/
def exactText (check : String) (actual : Bytes) (expected : String) : Verdict :=
  let actual := trim (Utf8.decodeLossy actual)
  let expected := trim expected.toList
  if actual == expected then .pass
  else
    .fail ⟨check, "expected '" ++ String.ofList expected ++ "', got '" ++
      String.ofList (excerpt actual) ++ "'"⟩

def missing (actual : List Char) (needles : List String) : List String :=
  needles.filter fun needle => !occursIn needle.toList actual

def containsAll (check : String) (actual : Bytes) (needles : List String) : Verdict :=
  let actual := Utf8.decodeLossy actual
  let absent := missing actual needles
  if absent.isEmpty then .pass
  else
    .fail ⟨check, "missing " ++ bracketed (absent.map quoted) ++ " in '" ++
      String.ofList (excerpt (trim actual)) ++ "'"⟩

end Comparison

inductive StreamExpectation where
  | any
  | empty
  | exact (text : String)
  | contains (text : String)
  | containsAll (texts : List String)
  deriving DecidableEq, Repr

def StreamExpectation.check (e : StreamExpectation) (stream : String) (actual : Bytes) : Verdict :=
  match e with
  | any => .pass
  | empty =>
    .ofBool actual.isEmpty stream
      ("expected no output, got '" ++
        String.ofList (Text.excerpt (Text.Utf8.decodeLossy actual)) ++ "'")
  | exact text => Comparison.exactText stream actual text
  | contains text => Comparison.containsAll stream actual [text]
  | containsAll texts => Comparison.containsAll stream actual texts

end Assay
