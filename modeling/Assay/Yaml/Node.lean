import Assay.Yaml.Token

namespace Assay.Yaml

/-- The tokens still to be read, and the nodes that have an anchor, latest first. -/
structure Pending where
  tokens : List Token
  anchors : List (String × Value)

/-- A step that reads from the front of the tokens. -/
abbrev Parse := StateT Pending Option

def peek : Parse (Option Token) := do
  pure (← get).tokens.head?

def advance : Parse Unit :=
  modify fun p => { p with tokens := p.tokens.drop 1 }

/-- Whether the next token is one of several, or there is none. -/
def atOneOf (tokens : List Token) : Parse Bool := do
  match ← peek with
  | none => pure true
  | some t => pure (tokens.contains t)

def missing : Value := .plain ""

def expect (token : Token) : Parse Unit := do
  if (← peek) = some token then advance else failure

/-- Reads the anchor and the tag in front of a node, and answers the anchor and whether there was
either. -/
def properties : Nat → Option String → Bool → Bool → Parse (Option String × Bool)
  | 0, name, _, found => pure (name, found)
  | fuel + 1, name, tagged, found => do
    match ← peek with
    | some (.anchor n) =>
      if name.isSome then pure (name, found)
      else do advance; properties fuel (some n) tagged true
    | some .tag =>
      if tagged then pure (name, found)
      else do advance; properties fuel name true true
    | _ => pure (name, found)

mutual

/-- Reads a node. In the block context it may be a block collection, and behind a key also items
that are not indented. -/
def node : Nat → Bool → Bool → Parse Value
  | 0, _, _ => failure
  | fuel + 1, block, unindented => do
    match ← peek with
    | some (.alias name) =>
      advance
      match (← get).anchors.lookup name with
      | some v => pure v
      | none => failure
    | _ =>
      let (name, found) ← properties 2 none false false
      let v ← content fuel block unindented found
      match name with
      | some name => modify fun p => { p with anchors := (name, v) :: p.anchors }
      | none => pure ()
      pure v

/-- Reads a node behind its anchor and tag. -/
def content : Nat → Bool → Bool → Bool → Parse Value
  | 0, _, _, _ => failure
  | fuel + 1, block, unindented, found => do
    match ← peek with
    | some (.plain s) => advance; pure (.plain s)
    | some (.text s) => advance; pure (.text s)
    | some .sequenceStart => advance; pure (.list (← flowItems fuel true))
    | some .mappingStart => advance; pure (.table (← flowEntries fuel true))
    | some .blockItem =>
      if unindented then pure (.list (← unindentedItems fuel))
      else if found then pure missing
      else failure
    | some .blockSequenceStart =>
      if block then do advance; pure (.list (← blockItems fuel))
      else if found then pure missing
      else failure
    | some .blockMappingStart =>
      if block then do advance; pure (.table (← blockEntries fuel))
      else if found then pure missing
      else failure
    | _ => if found then pure missing else failure

def blockItems : Nat → Parse (List Value)
  | 0 => failure
  | fuel + 1 => do
    match ← peek with
    | some .blockItem =>
      advance
      let v ← if ← atOneOf [.blockItem, .blockEnd] then pure missing else node fuel true false
      pure (v :: (← blockItems fuel))
    | some .blockEnd => advance; pure []
    | _ => failure

/-- Reads the items of a sequence that stands at the column of its key. -/
def unindentedItems : Nat → Parse (List Value)
  | 0 => failure
  | fuel + 1 => do
    match ← peek with
    | some .blockItem =>
      advance
      let v ← if ← atOneOf [.blockItem, .key, .value, .blockEnd] then pure missing
        else node fuel true false
      pure (v :: (← unindentedItems fuel))
    | _ => pure []

/-- Reads a key or a value of a block mapping, which is missing in front of certain tokens. -/
def blockPart : Nat → Parse Value
  | 0 => failure
  | fuel + 1 => do
    if ← atOneOf [.key, .value, .blockEnd] then pure missing else node fuel true true

def blockEntries : Nat → Parse (List (Value × Value))
  | 0 => failure
  | fuel + 1 => do
    match ← peek with
    | some .key =>
      advance
      let k ← blockPart fuel
      let v ← if (← peek) = some .value then do advance; blockPart fuel else pure missing
      pure ((k, v) :: (← blockEntries fuel))
    | some .blockEnd => advance; pure []
    | _ => failure

/-- Reads the value of an entry between brackets or braces, up to one of several tokens. -/
def flowValue : Nat → List Token → Parse Value
  | 0, _ => failure
  | fuel + 1, ends => do
    if (← peek) = some .value then do
      advance
      if ← atOneOf ends then pure missing else node fuel false false
    else pure missing

def flowItems : Nat → Bool → Parse (List Value)
  | 0, _ => failure
  | fuel + 1, first => do
    if (← peek) = some .sequenceEnd then do advance; pure []
    else
      if !first then expect .comma
      match ← peek with
      | some .sequenceEnd => advance; pure []
      | some .key =>
        advance
        let k ← if ← atOneOf [.value, .comma, .sequenceEnd] then pure missing
          else node fuel false false
        let v ← flowValue fuel [.comma, .sequenceEnd]
        pure (.table [(k, v)] :: (← flowItems fuel false))
      | _ =>
        let v ← node fuel false false
        pure (v :: (← flowItems fuel false))

def flowEntries : Nat → Bool → Parse (List (Value × Value))
  | 0, _ => failure
  | fuel + 1, first => do
    if (← peek) = some .mappingEnd then do advance; pure []
    else
      if !first then expect .comma
      match ← peek with
      | some .mappingEnd => advance; pure []
      | some .key =>
        advance
        let k ← if ← atOneOf [.value, .comma, .mappingEnd] then pure missing
          else node fuel false false
        let v ← flowValue fuel [.comma, .mappingEnd]
        pure ((k, v) :: (← flowEntries fuel false))
      | _ =>
        let k ← node fuel false false
        pure ((k, missing) :: (← flowEntries fuel false))

end

def directives : Nat → Bool → Parse Unit
  | 0, _ => failure
  | fuel + 1, versioned => do
    match ← peek with
    | some (.version major minor) =>
      if versioned || major ≠ 1 || (minor ≠ 1 && minor ≠ 2) then failure
      else do advance; directives fuel true
    | some .tagDirective => advance; directives fuel versioned
    | _ => pure ()

/-- Whether the next token starts a document that is marked as one. -/
def atMarkedDocument : Parse Bool := do
  match ← peek with
  | some (.version _ _) => pure true
  | some .tagDirective => pure true
  | some .documentStart => pure true
  | _ => pure false

/-- Reads the content of a document behind its mark. -/
def marked (fuel : Nat) : Parse Value := do
  match ← peek with
  | none => pure missing
  | some .documentEnd => pure missing
  | _ => if ← atMarkedDocument then pure missing else node fuel true false

def document (fuel : Nat) : Parse Value := do
  match ← peek with
  | none => failure
  | some _ =>
    let v ← if ← atMarkedDocument then do
        directives fuel false
        expect .documentStart
        marked fuel
      else node fuel true false
    if (← get).tokens.all (· == .documentEnd) then pure v else failure

def read? (s : String) : Option Value :=
  (Token.scan s.toList).bind fun tokens =>
    ((document (4 * tokens.length + 4)).run ⟨tokens, []⟩).map (·.1)

end Assay.Yaml
