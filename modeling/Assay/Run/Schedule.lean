import Assay.Run.Summary

namespace Assay

/-- Where a scenario of a run stands. -/
inductive Stage where
  | waiting
  | inside
  | ended
  | aborted
  deriving DecidableEq, Repr

structure Pool where
  stages : List Stage
  free : Nat
  started : List Nat
  completions : List Completion

namespace Pool

/-- The number of slots of a run. Without a slot nothing could ever start, so there is always one.
It is assumed that no more are asked for than can be handed out, which are `2 ^ 61 - 1`. -/
def slots (jobs : Nat) : Nat :=
  max jobs 1

def initial (jobs scenarios : Nat) : Pool :=
  ⟨List.replicate scenarios .waiting, slots jobs, [], []⟩

def count (p : Pool) (s : Stage) : Nat :=
  p.stages.count s

/-- Starts the scenario at a place in a free slot. -/
def start (p : Pool) (place : Nat) : Pool :=
  { p with
    stages := p.stages.set place .inside
    free := p.free - 1
    started := p.started ++ [place] }

/-- Ends the scenario at a place and gives its slot back. -/
def finish (p : Pool) (place : Nat) (result : Except Failure Outcome) : Pool :=
  { p with
    stages := p.stages.set place .ended
    free := p.free + 1
    completions := p.completions ++ [⟨place, result⟩] }

/-- After a failure has been met, scenarios that have not ended may be given up. -/
def giveUp (p : Pool) (place : Nat) : Pool :=
  { p with stages := p.stages.set place .aborted }

/-- Breaks off a scenario that was started, and gives its slot back. -/
def breakOff (p : Pool) (place : Nat) : Pool :=
  { p with stages := p.stages.set place .aborted, free := p.free + 1 }

def hasFailed (p : Pool) : Bool :=
  p.completions.any fun c =>
    match c.result with
    | .error _ => true
    | .ok _ => false

/-- One step of a run, where each scenario has a result of its own. -/
inductive Step (result : Nat → Except Failure Outcome) : Pool → Pool → Prop
  | start {p : Pool} {place : Nat} (waits : p.stages[place]? = some .waiting)
      (room : 0 < p.free) : Step result p (p.start place)
  | finish {p : Pool} {place : Nat} (inside : p.stages[place]? = some .inside) :
      Step result p (p.finish place (result place))
  | giveUp {p : Pool} {place : Nat} (waits : p.stages[place]? = some .waiting)
      (failed : p.hasFailed = true) : Step result p (p.giveUp place)
  | breakOff {p : Pool} {place : Nat} (inside : p.stages[place]? = some .inside)
      (failed : p.hasFailed = true) : Step result p (p.breakOff place)

/-- The runs that steps lead to from a first one. -/
inductive Reachable (result : Nat → Except Failure Outcome) (first : Pool) : Pool → Prop
  | refl : Reachable result first first
  | step {p q : Pool} (before : Reachable result first p) (next : Step result p q) :
      Reachable result first q

def isDone (p : Pool) : Bool :=
  p.stages.all (· == .ended)

/-- What a run answers: the first failure that was met, or the summary once every scenario has
ended. -/
def answer? (p : Pool) : Option (Except Failure Summary) :=
  match Completion.summarize p.completions with
  | .error failure => some (.error failure)
  | .ok summary => if p.isDone then some (.ok summary) else none

@[simp] theorem slots_pos (jobs : Nat) : 0 < slots jobs := by
  unfold slots
  omega

end Pool

end Assay
