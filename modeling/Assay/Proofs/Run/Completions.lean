import Mathlib.Data.List.Sort
import Assay.Run.Summary
import Assay.Proofs.Run.Steps

namespace Assay

namespace Completion

/-- Collecting succeeds only if every scenario ended with an outcome, and keeps all of them. -/
theorem eq_of_collect_ok {cs : List Completion} {placed : List (Nat × Outcome)}
    (h : collect cs = .ok placed) : cs = placed.map fun entry => ⟨entry.1, .ok entry.2⟩ := by
  induction cs generalizing placed with
  | nil =>
    cases h
    rfl
  | cons c rest ih =>
    obtain ⟨place, result⟩ := c
    cases result with
    | error failure => cases h
    | ok outcome =>
      cases hr : collect rest with
      | error failure => simp [collect, hr, Except.map] at h
      | ok collected =>
        simp only [collect, hr, Except.map, Except.ok.injEq] at h
        subst h
        simp [ih hr]

theorem collect_map (placed : List (Nat × Outcome)) :
    collect (placed.map fun entry => ⟨entry.1, .ok entry.2⟩) = .ok placed := by
  induction placed with
  | nil => rfl
  | cons entry rest ih => simp [collect, ih, Except.map]

/-- Collecting stops at a failure that some scenario ended with. -/
theorem mem_of_collect_error {cs : List Completion} {failure : Failure}
    (h : collect cs = .error failure) : ∃ c ∈ cs, c.result = .error failure := by
  induction cs with
  | nil => cases h
  | cons c rest ih =>
    cases hc : c.result with
    | error other =>
      simp only [collect, hc, Except.error.injEq] at h
      exact ⟨c, by simp, by rw [hc, h]⟩
    | ok outcome =>
      cases hr : collect rest with
      | ok collected => simp [collect, hc, hr, Except.map] at h
      | error other =>
        simp only [collect, hc, hr, Except.map, Except.error.injEq] at h
        obtain ⟨c', hm, hc'⟩ := ih (h ▸ hr)
        exact ⟨c', List.mem_cons_of_mem _ hm, hc'⟩

/-- Places that are those of a catalog, in any order, are put back into order. -/
theorem map_fst_mergeSort {placed : List (Nat × Outcome)} {n : Nat}
    (h : (placed.map (·.1)).Perm (List.range n)) :
    (placed.mergeSort fun a b => a.1 ≤ b.1).map (·.1) = List.range n := by
  have hperm : ((placed.mergeSort fun a b => a.1 ≤ b.1).map (·.1)).Perm (List.range n) :=
    ((List.mergeSort_perm placed _).map _).trans h
  have hsorted : (placed.mergeSort fun a b => a.1 ≤ b.1).Pairwise fun a b => a.1 ≤ b.1 := by
    have hs : (placed.mergeSort fun a b => a.1 ≤ b.1).Pairwise fun a b => decide (a.1 ≤ b.1) = true := by
      apply List.pairwise_mergeSort
      · intro a b c
        simpa using Nat.le_trans
      · intro a b
        simpa using Nat.le_total a.1 b.1
    simpa using hs
  refine hperm.eq_of_pairwise ?_ (List.pairwise_map.mpr hsorted) ?_
  · intro a b _ _ hab hba
    exact Nat.le_antisymm hab hba
  · exact List.pairwise_lt_range.imp Nat.le_of_lt

/-- Outcomes put back into order are the results of the scenarios, place by place. -/
theorem map_range_eq {placed : List (Nat × Outcome)} {n : Nat} {result : Nat → Except Failure Outcome}
    (h : (placed.map (·.1)).Perm (List.range n)) (own : ∀ entry ∈ placed, result entry.1 = .ok entry.2) :
    (List.range n).map result =
      ((placed.mergeSort fun a b => a.1 ≤ b.1).map (·.2)).map .ok := by
  rw [← map_fst_mergeSort h, List.map_map, List.map_map]
  apply List.map_congr_left
  intro entry hm
  exact own entry (List.mem_mergeSort.mp hm)

end Completion

namespace Scenario

variable {launch : Launcher} {c : Configuration}

/-- When no scenario fails, running up to the first failure runs all of them. -/
theorem runUntilFailure_of_runEach {scenarios : List Scenario} {outcomes : List Outcome} {t : FileTree}
    (h : (runEach launch c scenarios t).1 = outcomes.map .ok) (place : Nat) :
    (runUntilFailure launch c place scenarios t).1 =
      (outcomes.zipIdx place).map fun entry => ⟨entry.2, .ok entry.1⟩ := by
  induction scenarios generalizing outcomes place t with
  | nil =>
    cases outcomes with
    | nil => rfl
    | cons o rest => simp [runEach] at h
  | cons s rest ih =>
    rcases hs : (s.run launch c).run t with ⟨result, left⟩
    cases outcomes with
    | nil => simp [runEach, hs] at h
    | cons o others =>
      simp only [runEach, hs, List.map_cons, List.cons.injEq] at h
      obtain ⟨rfl, hrest⟩ := h
      simp [runUntilFailure, hs, ih hrest]

theorem onTree_runAll (scenarios : List Scenario) (t : FileTree) :
    (Run.onTree (runAll launch c scenarios) t).1 =
      Completion.summarize (runUntilFailure launch c 0 scenarios t).1 := by
  rw [runAll, Run.onTree_bind, Run.onTree_get]
  simp only [Run.onTree_bind, Run.onTree_set]
  cases h : Completion.summarize (runUntilFailure launch c 0 scenarios t).1 <;> simp

/-- When no scenario fails, the summary of running them one after another holds their outcomes in order. -/
theorem runAll_of_runEach {scenarios : List Scenario} {outcomes : List Outcome} {t : FileTree}
    (h : (runEach launch c scenarios t).1 = outcomes.map .ok) :
    (Run.onTree (runAll launch c scenarios) t).1 = .ok (Summary.ofOutcomes outcomes) := by
  have hrun : (runUntilFailure launch c 0 scenarios t).1 =
      (outcomes.zipIdx.map Prod.swap).map fun entry => ⟨entry.1, .ok entry.2⟩ := by
    rw [runUntilFailure_of_runEach h, List.map_map]
    rfl
  have hfst : (outcomes.zipIdx.map Prod.swap).map (·.1) = List.range outcomes.length := by
    rw [List.map_map, List.range_eq_range']
    exact List.zipIdx_map_snd 0 outcomes
  have hsnd : (outcomes.zipIdx.map Prod.swap).map (·.2) = outcomes := by
    rw [List.map_map]
    exact List.zipIdx_map_fst 0 outcomes
  have hsorted : (outcomes.zipIdx.map Prod.swap).Pairwise fun a b => decide (a.1 ≤ b.1) = true := by
    have hr : ((outcomes.zipIdx.map Prod.swap).map (·.1)).Pairwise (· ≤ ·) := by
      rw [hfst]
      exact List.pairwise_lt_range.imp Nat.le_of_lt
    simpa using List.pairwise_map.mp hr
  rw [onTree_runAll, hrun, Completion.summarize, Completion.collect_map, Except.map,
    List.mergeSort_of_pairwise hsorted, hsnd]

end Scenario

namespace Summary

/-- The two counts of a summary are those of the outcomes without and with mismatches. -/
theorem ofOutcomes_counts (outcomes : List Outcome) :
    (ofOutcomes outcomes).passed = outcomes.countP (fun o => o.mismatches.isEmpty) ∧
      (ofOutcomes outcomes).passed + (ofOutcomes outcomes).failed = outcomes.length := by
  have hle := List.length_filter_le Outcome.passed outcomes
  refine ⟨by simp only [ofOutcomes, List.countP_eq_length_filter]; rfl, ?_⟩
  simp only [ofOutcomes]
  omega

theorem allPassed_ofOutcomes (outcomes : List Outcome) :
    (ofOutcomes outcomes).allPassed = true ↔ ∀ o ∈ outcomes, o.passed = true := by
  have hle := List.length_filter_le Outcome.passed outcomes
  rw [← List.length_filter_eq_length_iff]
  simp only [ofOutcomes, allPassed, beq_iff_eq]
  omega

end Summary

end Assay
