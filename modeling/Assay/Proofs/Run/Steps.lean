import Assay.Process.Basic

namespace Assay

/-- What a step of a run answers on a file tree, and the tree that it leaves. -/
def Run.onTree {α : Type} (x : Run α) (t : FileTree) : Except Failure α × FileTree :=
  x.run t

namespace Run

variable {α β : Type} {t left : FileTree}

/-- A sequence of steps that may fail goes on from the state that the first step left. -/
theorem run_bind {ε σ : Type} (x : ExceptT ε (StateM σ) α) (f : α → ExceptT ε (StateM σ) β) (s : σ) :
    (x >>= f).run s = match x.run s with
      | (.ok a, there) => (f a).run there
      | (.error e, there) => (.error e, there) := by
  change StateT.bind x.run (ExceptT.bindCont f) s = _
  simp only [StateT.bind]
  rcases x.run s with ⟨r, there⟩
  cases r <;> rfl

theorem onTree_bind (x : Run α) (f : α → Run β) (t : FileTree) :
    onTree (x >>= f) t = match onTree x t with
      | (.ok a, there) => onTree (f a) there
      | (.error failure, there) => (.error failure, there) := by
  unfold onTree
  rw [run_bind]
  rcases x.run t with ⟨r, there⟩
  cases r <;> rfl

theorem bind_ok {x : Run α} {f : α → Run β} {b : β} :
    onTree (x >>= f) t = (.ok b, left) ↔
      ∃ a there, onTree x t = (.ok a, there) ∧ onTree (f a) there = (.ok b, left) := by
  rw [onTree_bind]
  rcases onTree x t with ⟨r, there⟩
  cases r with
  | error failure => simp
  | ok a =>
    constructor
    · intro h
      exact ⟨a, there, rfl, h⟩
    · rintro ⟨a', there', h, h'⟩
      cases h
      exact h'

/-- A step that only reads leaves the tree as the one before it did. -/
theorem left_bind_of_reads {x : Run α} {f : α → Run β}
    (h : ∀ a there, (onTree (f a) there).2 = there) : (onTree (x >>= f) t).2 = (onTree x t).2 := by
  rw [onTree_bind]
  rcases onTree x t with ⟨result, there⟩
  cases result with
  | error failure => rfl
  | ok a => exact h a there

@[simp] theorem onTree_pure (a : α) (t : FileTree) : onTree (pure a) t = (.ok a, t) := rfl

@[simp] theorem onTree_throw (failure : Failure) (t : FileTree) :
    onTree (throw failure : Run α) t = (.error failure, t) := rfl

@[simp] theorem onTree_get (t : FileTree) : onTree get t = (.ok t, t) := rfl

@[simp] theorem onTree_set (new t : FileTree) : onTree (set new) t = (.ok ⟨⟩, new) := rfl

end Run

namespace Launcher
open Run

/-- A process has a result exactly when it starts and, if it has to succeed, does. -/
theorem run_ok {launch : Launcher} {i : Invocation} {mustSucceed : Bool} {result : ProcessResult}
    {t left : FileTree} :
    onTree (launch.run i mustSucceed) t = (.ok result, left) ↔
      launch i.program i.args t = .ok (result, left) ∧
        (mustSucceed = true → result.exit.isSuccess = true) := by
  unfold run
  rw [onTree_bind, onTree_get]
  cases h : launch i.program i.args t with
  | error cause => simp [h]
  | ok ended =>
    obtain ⟨found, there⟩ := ended
    simp only [h, onTree_bind, onTree_set]
    split
    · rename_i hc
      simp only [Bool.and_eq_true, Bool.not_eq_true'] at hc
      simp only [onTree_throw, Prod.mk.injEq, reduceCtorEq, false_and, false_iff, Except.ok.injEq,
        not_and, and_imp]
      rintro rfl rfl
      simp [hc]
    · rename_i hc
      simp only [onTree_pure, Prod.mk.injEq, Except.ok.injEq]
      constructor
      · rintro ⟨rfl, rfl⟩
        refine ⟨⟨rfl, rfl⟩, ?_⟩
        intro hm
        simpa [hm] using hc
      · rintro ⟨⟨rfl, rfl⟩, _⟩
        exact ⟨rfl, rfl⟩

end Launcher

end Assay
