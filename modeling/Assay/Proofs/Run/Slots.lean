import Assay.Proofs.Run.Schedule

namespace Assay.Pool

structure Entered (p : Pool) : Prop where
  once : p.started.Nodup
  fresh : ∀ place, p.stages[place]? = some .waiting → place ∉ p.started
  inside : ∀ place, p.stages[place]? = some .inside → place ∈ p.started
  ended : ∀ place, p.stages[place]? = some .ended → place ∈ p.started
  known : ∀ place ∈ p.started, place < p.stages.length

variable {result : Nat → Except Failure Outcome} {jobs scenarios place : Nat} {p q : Pool}

theorem initial_entered : Entered (initial jobs scenarios) where
  once := List.nodup_nil
  fresh _ _ := List.not_mem_nil
  inside place h := by simp [initial, List.getElem?_replicate] at h
  ended place h := by simp [initial, List.getElem?_replicate] at h
  known _ h := nomatch h

/-- Once one scenario has taken another stage, a stage is that one or another scenario's from before. -/
theorem stage_of_set {stages : List Stage} {new s : Stage} {i : Nat}
    (h : (stages.set place new)[i]? = some s) :
    i = place ∧ s = new ∨ i ≠ place ∧ stages[i]? = some s := by
  by_cases hi : place = i
  · subst hi
    rw [List.getElem?_set_self'] at h
    obtain ⟨_, -, hs⟩ := Option.map_eq_some_iff.mp h
    exact .inl ⟨rfl, hs.symm⟩
  · rw [List.getElem?_set_ne hi] at h
    exact .inr ⟨Ne.symm hi, h⟩

/-- A scenario that takes another stage and was not started by that step leaves the others as they are. -/
theorem Entered.move (h : Entered p) {old new : Stage} (hold : p.stages[place]? = some old)
    (hwaiting : new ≠ .waiting) (hinside : new ≠ .inside) (hended : new = .ended → old = .inside)
    (hstages : q.stages = p.stages.set place new) (hstarted : q.started = p.started) : Entered q := by
  have hat : ∀ i s, q.stages[i]? = some s → i = place ∧ s = new ∨ i ≠ place ∧ p.stages[i]? = some s :=
    fun i s hs => stage_of_set (hstages ▸ hs)
  refine ⟨hstarted ▸ h.once, ?_, ?_, ?_, ?_⟩
  · intro i hi
    rcases hat i _ hi with ⟨-, hs⟩ | ⟨-, hs⟩
    · exact absurd hs.symm hwaiting
    · exact hstarted ▸ h.fresh i hs
  · intro i hi
    rcases hat i _ hi with ⟨-, hs⟩ | ⟨-, hs⟩
    · exact absurd hs.symm hinside
    · exact hstarted ▸ h.inside i hs
  · intro i hi
    rw [hstarted]
    rcases hat i _ hi with ⟨rfl, hs⟩ | ⟨-, hs⟩
    · exact h.inside i (hended hs.symm ▸ hold)
    · exact h.ended i hs
  · intro i hi
    rw [hstages, List.length_set]
    exact h.known i (hstarted ▸ hi)

/-- A scenario that is started was not started before. -/
theorem Entered.start (h : Entered p) (waits : p.stages[place]? = some .waiting) :
    Entered (p.start place) := by
  have hmem : ∀ i, i ∈ (p.start place).started ↔ i ∈ p.started ∨ i = place := fun i => by
    simp [Pool.start]
  refine ⟨?_, ?_, ?_, ?_, ?_⟩
  · refine List.nodup_append.mpr ⟨h.once, List.nodup_singleton place, ?_⟩
    intro i hi j hj he
    rw [List.mem_singleton.mp hj] at he
    exact h.fresh place waits (he ▸ hi)
  · intro i hi hm
    rcases stage_of_set hi with ⟨-, hs⟩ | ⟨hne, hs⟩
    · cases hs
    · exact h.fresh i hs (((hmem i).mp hm).resolve_right hne)
  · intro i hi
    rcases stage_of_set hi with ⟨rfl, -⟩ | ⟨-, hs⟩
    · exact (hmem i).mpr (.inr rfl)
    · exact (hmem i).mpr (.inl (h.inside i hs))
  · intro i hi
    rcases stage_of_set hi with ⟨-, hs⟩ | ⟨-, hs⟩
    · cases hs
    · exact (hmem i).mpr (.inl (h.ended i hs))
  · intro i hi
    rw [show (p.start place).stages.length = p.stages.length from List.length_set]
    rcases (hmem i).mp hi with hi | rfl
    · exact h.known i hi
    · exact (List.getElem?_eq_some_iff.mp waits).1

theorem step_entered (h : Entered p) (next : Step result p q) : Entered q := by
  cases next with
  | start waits _ => exact h.start waits
  | finish inside => exact h.move inside (by simp) (by simp) (fun _ => rfl) rfl rfl
  | giveUp waits _ => exact h.move waits (by simp) (by simp) (by simp) rfl rfl
  | breakOff inside _ => exact h.move inside (by simp) (by simp) (by simp) rfl rfl

theorem reachable_entered (h : Reachable result (initial jobs scenarios) p) : Entered p := by
  induction h with
  | refl => exact initial_entered
  | step _ next ih => exact step_entered ih next

/-- While nothing runs there is a free slot. -/
theorem Kept.room (h : Kept result jobs scenarios p) (hnone : p.count .inside = 0) : 0 < p.free := by
  have hshared := h.shared
  have hpos := slots_pos jobs
  omega

/-- A run that has a summary has ended every scenario, and so has started each of them. -/
theorem started_of_summary (h : Kept result jobs scenarios p) (he : Entered p) {summary : Summary}
    (ha : p.answer? = some (.ok summary)) : p.started.Perm (List.range scenarios) := by
  have hdone : p.isDone = true := by
    rw [answer?] at ha
    cases hs : Completion.summarize p.completions with
    | error failure => simp [hs] at ha
    | ok found => simp only [hs, Option.ite_none_right_eq_some] at ha; exact ha.1
  refine (List.perm_ext_iff_of_nodup he.once List.nodup_range).mpr fun place => ?_
  rw [List.mem_range, ← h.length]
  refine ⟨he.known place, fun hlt => he.ended place ?_⟩
  rw [List.getElem?_eq_getElem hlt, eq_of_beq (List.all_eq_true.mp hdone _ (List.getElem_mem hlt))]

/-- Concurrency is bounded. In every state that steps lead to, the scenarios inside and the free slots make
up all slots; a scenario that waits was not started, one that is inside or has ended was, and none was
twice; a scenario that waits while none is inside can be started; and a run that answers a summary has
started each scenario once. -/
theorem concurrency_bounded {catalog : List Scenario}
    (h : Reachable result (initial jobs catalog.length) p) :
    p.count .inside + p.free = max jobs 1 ∧ p.count .inside ≤ max jobs 1 ∧
    (p.started.Nodup ∧ (∀ place, p.stages[place]? = some .waiting → place ∉ p.started) ∧
      ∀ place, p.stages[place]? = some .inside ∨ p.stages[place]? = some .ended → place ∈ p.started) ∧
    (∀ place, p.stages[place]? = some .waiting → p.count .inside = 0 →
      0 < p.free ∧ Step result p (p.start place)) ∧
    ∀ summary, p.answer? = some (.ok summary) →
      ∀ place, p.started.count place = if place < catalog.length then 1 else 0 := by
  have hkept := reachable_kept h
  have hentered := reachable_entered h
  have hshared : p.count .inside + p.free = max jobs 1 := hkept.shared
  refine ⟨hshared, by omega, ⟨hentered.once, hentered.fresh, ?_⟩, ?_, ?_⟩
  · rintro place (hi | he)
    · exact hentered.inside place hi
    · exact hentered.ended place he
  · intro place waits hnone
    exact ⟨hkept.room hnone, .start waits (hkept.room hnone)⟩
  · intro summary ha place
    rw [(started_of_summary hkept hentered ha).count_eq, List.nodup_range.count]
    simp only [List.mem_range]

open Scenario

def greetingResult (place : Nat) : Except Failure Outcome :=
  .ok (greetingOutcomes.getD place ⟨"", "", .signal, ⟨""⟩, []⟩)

/-- A run of the two greetings in which the second one was run first. -/
def halfGreeted : Pool :=
  ((initial 0 2).start 1).finish 1 (greetingResult 1)

theorem reachable_halfGreeted : Reachable greetingResult (initial 0 2) halfGreeted :=
  .step (.step .refl (.start rfl (by decide))) (.finish rfl)

/-- Without slots of their own, one greeting runs after the other, and each of them once. -/
theorem concurrency_bounded_greetings :
    (halfGreeted.count .inside + halfGreeted.free = 1 ∧
      Step greetingResult halfGreeted (halfGreeted.start 0)) ∧
    ∀ place, ((halfGreeted.start 0).finish 0 (greetingResult 0)).started.count place =
      if place < 2 then 1 else 0 := by
  obtain ⟨hshared, -, -, hroom, -⟩ := @concurrency_bounded _ 0 halfGreeted [greeting, greetingAgain]
    reachable_halfGreeted
  obtain ⟨-, hstep⟩ := hroom 0 rfl (by decide)
  have hlast : Reachable greetingResult (initial 0 2)
      ((halfGreeted.start 0).finish 0 (greetingResult 0)) :=
    .step (.step reachable_halfGreeted hstep) (.finish rfl)
  exact ⟨⟨hshared, hstep⟩,
    (@concurrency_bounded _ 0 _ [greeting, greetingAgain] hlast).2.2.2.2 _ rfl⟩

end Assay.Pool
