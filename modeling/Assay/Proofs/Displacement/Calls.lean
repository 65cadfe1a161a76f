import Mathlib.Tactic.SplitIfs
import Assay.Displacement.Program
import Assay.Proofs.Run.Steps

namespace Assay.Displacement

namespace Work

variable {α β : Type}

/-- What a step of a call answers on a file tree, and the tree that it leaves. -/
def onTree (x : Work α) (t : FileTree) : Except Stop α × FileTree :=
  x.run t

/-- A step that breaks off on a file tree. -/
def Breaks (x : Work α) (t : FileTree) : Prop :=
  ∃ defect, (onTree x t).1 = .error (.broken defect)

def demand (holds : Prop) [Decidable holds] (r : Refusal) : Work Unit :=
  if holds then pure () else refuse r

def optionally (value : Option String) (step : Path → Work Unit) : Work Unit :=
  match value with
  | none => pure ()
  | some path => step ⟨path⟩

variable {x : Work α} {f : α → Work β} {t : FileTree}

theorem onTree_bind (x : Work α) (f : α → Work β) (t : FileTree) :
    onTree (x >>= f) t = match onTree x t with
      | (.ok a, there) => onTree (f a) there
      | (.error stop, there) => (.error stop, there) := by
  unfold onTree
  rw [Run.run_bind]
  rcases x.run t with ⟨r, there⟩
  cases r <;> rfl

@[simp] theorem onTree_pure (a : α) (t : FileTree) : onTree (pure a) t = (.ok a, t) := rfl

@[simp] theorem onTree_get (t : FileTree) : onTree get t = (.ok t, t) := rfl

@[simp] theorem onTree_set (new t : FileTree) : onTree (set new) t = (.ok ⟨⟩, new) := rfl

@[simp] theorem onTree_refuse (r : Refusal) (t : FileTree) :
    onTree (refuse r : Work α) t = (.error (.refused r), t) := rfl

@[simp] theorem onTree_throw (stop : Stop) (t : FileTree) :
    onTree (throw stop : Work α) t = (.error stop, t) := rfl

theorem breaks_bind :
    Breaks (x >>= f) t ↔ Breaks x t ∨ ∃ a there, onTree x t = (.ok a, there) ∧ Breaks (f a) there := by
  unfold Breaks
  rw [onTree_bind]
  rcases onTree x t with ⟨r, there⟩
  cases r with
  | error stop => simp
  | ok a =>
    constructor
    · intro h
      exact .inr ⟨a, there, rfl, h⟩
    · rintro (⟨defect, h⟩ | ⟨a', there', h, h'⟩)
      · cases h
      · cases h
        exact h'

@[simp] theorem not_breaks_pure (a : α) (t : FileTree) : ¬Breaks (pure a) t := by
  simp [Breaks]

@[simp] theorem breaks_throw (defect : Defect) (t : FileTree) :
    Breaks (throw (.broken defect) : Work α) t := by
  simp [Breaks]

@[simp] theorem not_breaks_refuse (r : Refusal) (t : FileTree) : ¬Breaks (refuse r : Work α) t := by
  simp [Breaks]

@[simp] theorem not_breaks_set (new t : FileTree) : ¬Breaks (set new) t := by
  simp [Breaks]

theorem breaks_get_bind {f : FileTree → Work β} : Breaks (get >>= f) t ↔ Breaks (f t) t := by
  simp [Breaks, onTree_bind]

/-- What was asked for or refused is asked for before a step that breaks off. -/
theorem breaks_ofExcept_bind {r : Except Refusal α} :
    Breaks (ofExcept r >>= f) t ↔ ∃ a, r = .ok a ∧ Breaks (f a) t := by
  cases r with
  | error refusal => simp [ofExcept, breaks_bind]
  | ok a => simp [ofExcept]

theorem breaks_ofParts_bind {r : Except Defect α} :
    Breaks (ofParts r >>= f) t ↔ (∃ defect, r = .error defect) ∨ ∃ a, r = .ok a ∧ Breaks (f a) t := by
  cases r with
  | error defect => simp [ofParts]
  | ok a => simp [ofParts]

theorem demand_bind (holds : Prop) [Decidable holds] (r : Refusal) (f : Unit → Work β) :
    demand holds r >>= f = if holds then f () else refuse r >>= f := by
  unfold demand
  split_ifs <;> rfl

theorem breaks_demand_bind {holds : Prop} [Decidable holds] {r : Refusal} {f : Unit → Work β} :
    Breaks (demand holds r >>= f) t ↔ holds ∧ Breaks (f ()) t := by
  rw [demand_bind]
  split_ifs with h
  · simp [h]
  · simp [h, breaks_bind]

theorem breaks_optionally {value : Option String} {step : Path → Work Unit} :
    Breaks (optionally value step) t ↔ ∃ path, value = some path ∧ Breaks (step ⟨path⟩) t := by
  cases value <;> simp [optionally]

end Work

def workOn (flaw : Option Flaw) (options : Options) (out : Path) (p : Parameters) (offsets : List Float) :
    Work String := do
  if let some input := options.get? "-in" then workOnImage out p offsets ⟨input⟩
  if let some input := options.get? "-def" then workOnPoints flaw out p offsets ⟨input⟩
  if options.has "-jac" || options.has "-jacmat" then
    pure (linesText ["Jacobian of a translation is the identity"])
  else pure ""

def workWith (flaw : Option Flaw) (options : Options) : Work String := do
  let places ← Work.ofExcept options.places
  if flaw = some .crash then refuse .crash
  if !(← get).hasDirectory places.out then refuse (.noOutputDirectory places.out)
  let p ← Work.ofExcept (Parameters.load (← get) places.parameters)
  let offsets ← Work.ofParts (appliedOffsets flaw p.offsets)
  workOn flaw options places.out p offsets

/-- A call reads its options, and does what they ask for. -/
theorem work_eq (flaw : Option Flaw) (args : List String) :
    work flaw args = Work.ofExcept (Options.read args) >>= workWith flaw :=
  rfl

theorem workOn_eq (flaw : Option Flaw) (options : Options) (out : Path) (p : Parameters)
    (offsets : List Float) :
    workOn flaw options out p offsets =
      Work.optionally (options.get? "-in") (workOnImage out p offsets) >>= fun _ =>
        Work.optionally (options.get? "-def") (workOnPoints flaw out p offsets) >>= fun _ =>
          if options.has "-jac" || options.has "-jacmat" then
            pure (linesText ["Jacobian of a translation is the identity"])
          else pure "" := by
  unfold workOn
  cases options.get? "-in" <;> cases options.get? "-def" <;> rfl

theorem workWith_eq (flaw : Option Flaw) (options : Options) :
    workWith flaw options = Work.ofExcept options.places >>= fun places =>
      Work.demand (flaw ≠ some .crash) .crash >>= fun _ => get >>= fun t =>
        Work.demand (t.hasDirectory places.out = true) (.noOutputDirectory places.out) >>= fun _ =>
          get >>= fun t => Work.ofExcept (Parameters.load t places.parameters) >>= fun p =>
            Work.ofParts (appliedOffsets flaw p.offsets) >>= workOn flaw options places.out p := by
  unfold workWith
  congr 1
  funext places
  rw [Work.demand_bind, ite_not]
  split_ifs
  · rfl
  · dsimp only
    congr 1
    funext t
    rw [Work.demand_bind]
    cases t.hasDirectory places.out <;> rfl

def warning (flaw : Option Flaw) : String :=
  if flaw = some .warning then linesText ["warning: mock diagnostics enabled"] else ""

theorem program_eq (flaw : Option Flaw) (args : List String) (t : FileTree) :
    program flaw args t =
      match banner? flaw args with
      | some printed => (ended (warning flaw) (.ok printed), t)
      | none => (ended (warning flaw) (Work.onTree (work flaw args) t).1, (Work.onTree (work flaw args) t).2) :=
  rfl

end Assay.Displacement
