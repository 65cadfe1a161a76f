import Assay.Text.Blank

namespace Assay

/-- A path as it was written; its components are the view that ignores repeated slashes and single
dots. -/
structure Path where
  text : String
  deriving DecidableEq, Repr

/-- One step of a path. A single dot is a step only at the start of a relative path. -/
inductive Component where
  | root
  | current
  | parent
  | name (text : String)
  deriving DecidableEq, Repr

namespace Path

def isAbsolute (p : Path) : Bool :=
  p.text.toList.head? = some '/'

def segments (s : List Char) : List (List Char) :=
  s.splitOn '/'

/-- Whether a part of a path leads nowhere: it is empty or a single dot. -/
def isIdle (segment : List Char) : Bool :=
  segment == [] || segment == ['.']

/-- The parts without those at the end that lead nowhere. -/
def dropIdle (parts : List (List Char)) : List (List Char) :=
  (parts.reverse.dropWhile isIdle).reverse

def joined (parts : List (List Char)) : List Char :=
  List.intercalate ['/'] parts

/-- The step that a part of a path means, if it leads somewhere. -/
def componentOf? (segment : List Char) : Option Component :=
  if isIdle segment then none
  else if segment = ['.', '.'] then some .parent
  else some (.name (String.ofList segment))

/-- Whether a relative path starts with a single dot as a part of its own. -/
def startsHere (p : Path) : Bool :=
  (segments p.text.toList).head? = some ['.']

def components (p : Path) : List Component :=
  let start :=
    if p.isAbsolute then [Component.root]
    else if p.startsHere then [Component.current]
    else []
  start ++ (segments p.text.toList).filterMap componentOf?

/-- The name that a path ends in, if its last step is a name. -/
def fileName? (p : Path) : Option String :=
  match p.components.getLast? with
  | some (.name n) => some n
  | _ => none

def label (p : Path) : String :=
  p.fileName?.getD p.text

def join (p q : Path) : Path :=
  if q.isAbsolute then q
  else
    let base := p.text.toList
    let slash := if base.isEmpty || base.getLast? = some '/' then [] else ['/']
    ⟨String.ofList (base ++ slash ++ q.text.toList)⟩

/-- The part of a path's text that its parent keeps in any case: the root's slash or the single dot
at the start. -/
def anchor (p : Path) : List Char :=
  if p.isAbsolute then ['/'] else if p.startsHere then ['.'] else []

/-- The path without its last step; the root and the empty path have no parent. -/
def parent? (p : Path) : Option Path :=
  let body := dropIdle (segments (p.text.toList.drop p.anchor.length))
  if body.isEmpty then
    if p.isAbsolute || p.text.isEmpty then none else some ⟨""⟩
  else some ⟨String.ofList (p.anchor ++ joined (dropIdle body.dropLast))⟩

/-- A path followed by its ancestors, nearest first. The count limits how many are listed. -/
def ancestorsWithin : Nat → Path → List Path
  | 0, _ => []
  | n + 1, p =>
    match p.parent? with
    | none => [p]
    | some q => p :: ancestorsWithin n q

/-- A path followed by its ancestors, nearest first. No path has more of them than characters. -/
def ancestors (p : Path) : List Path :=
  ancestorsWithin (p.text.length + 1) p

/-- The part of a name in front of its last dot, unless that dot is its first character. -/
def stem (name : List Char) : List Char :=
  let front := (name.reverse.dropWhile (· ≠ '.')).drop 1
  if front.isEmpty then name else front.reverse

/-- The path with another extension; a path that ends in no name stays. -/
def withExtension (p : Path) (extension : String) : Path :=
  match p.fileName? with
  | none => p
  | some name =>
    let front := (dropIdle (segments p.text.toList)).dropLast
    ⟨String.ofList (joined (front ++ [stem name.toList ++ '.' :: extension.toList]))⟩

end Path

example : (Path.mk "a/b/./").components = [.name "a", .name "b"] := by decide +kernel
example : (Path.mk "./i.mhd").parent? = some ⟨"."⟩ := by decide +kernel
example : (Path.mk "d/a.b.mhd/").withExtension "raw" = ⟨"d/a.b.raw"⟩ := by decide +kernel
example : (Path.mk "d/.hidden").withExtension "raw" = ⟨"d/.hidden.raw"⟩ := by decide +kernel
example : (Path.mk "a").join ⟨""⟩ = ⟨"a/"⟩ := by decide +kernel

end Assay
