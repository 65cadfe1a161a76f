import Assay.Displacement.Refusal

namespace Assay.Displacement

structure Options where
  pairs : List (String × String)
  deriving DecidableEq, Repr

namespace Options

def get? (o : Options) (key : String) : Option String :=
  o.pairs.lookup key

def has (o : Options) (key : String) : Bool :=
  (o.get? key).isSome

def readFrom (pairs : List (String × String)) : List String → Except Refusal Options
  | [] => .ok ⟨pairs⟩
  | key :: rest =>
    if key.toList.head? ≠ some '-' then .error (.unexpectedArgument key)
    else
      match rest with
      | [] => .error (.noValue key)
      | value :: rest => readFrom ((key, value) :: pairs) rest

def read (args : List String) : Except Refusal Options :=
  readFrom [] args

def inputs : List String := ["-in", "-def", "-jac", "-jacmat"]

def required (o : Options) (key : String) : Except Refusal String :=
  match o.get? key with
  | none => .error (.missingOption key)
  | some value => .ok value

/-- What every call needs: an output directory, a parameter file, and something to be transformed.
-/
structure Places where
  out : Path
  parameters : Path
  deriving DecidableEq, Repr

def places (o : Options) : Except Refusal Places :=
  match o.required "-out" with
  | .error r => .error r
  | .ok out =>
    match o.required "-tp" with
    | .error r => .error r
    | .ok parameters =>
      if inputs.any o.has then .ok ⟨⟨out⟩, ⟨parameters⟩⟩ else .error .missingInput

example : (read ["-in", "a", "-in", "b"]).toOption.bind (fun o => o.get? "-in") = some "b" := by
  decide +kernel

end Options

end Assay.Displacement
