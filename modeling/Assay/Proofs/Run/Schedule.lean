import Assay.Proofs.Run.Completions
import Assay.Proofs.Run.Verdict
import Assay.Run.Schedule

namespace Assay.Pool

/-- What every step of a run keeps. -/
structure Kept (result : Nat → Except Failure Outcome) (jobs scenarios : Nat) (p : Pool) : Prop where
  length : p.stages.length = scenarios
  shared : p.count .inside + p.free = slots jobs
  ended : ∀ place, place ∈ p.completions.map Completion.place ↔ p.stages[place]? = some .ended
  once : (p.completions.map Completion.place).Nodup
  own : ∀ c ∈ p.completions, c.result = result c.place
  failed : Stage.aborted ∈ p.stages → p.hasFailed = true

variable {result : Nat → Except Failure Outcome} {jobs scenarios : Nat} {p q : Pool}

theorem initial_kept : Kept result jobs scenarios (initial jobs scenarios) where
  length := by simp [initial]
  shared := by simp [initial, count, List.count_replicate]
  ended := by simp [initial, List.getElem?_replicate]
  once := by simp [initial]
  own := by simp [initial]
  failed := by simp [initial, List.mem_replicate]

/-- A scenario that goes from one stage to another is counted at the other one. -/
theorem count_set {stages : List Stage} {place : Nat} {old : Stage} (new s : Stage)
    (h : stages[place]? = some old) :
    (stages.set place new).count s + (if old = s then 1 else 0) =
      stages.count s + (if new = s then 1 else 0) := by
  obtain ⟨hlt, hold⟩ := List.getElem?_eq_some_iff.mp h
  rw [List.count_set hlt, hold]
  have hpos : old = s → 0 < stages.count s := by
    rintro rfl
    exact List.count_pos_iff.mpr (List.mem_of_getElem? h)
  by_cases ho : old = s
  · have := hpos ho
    simp only [ho, beq_self_eq_true, ↓reduceIte]
    by_cases hn : new = s <;> simp [hn] <;> omega
  · by_cases hn : new = s <;> simp [ho, hn]

theorem mem_set_aborted {stages : List Stage} {place : Nat} {new : Stage} (hn : new ≠ .aborted)
    (h : Stage.aborted ∈ stages.set place new) : Stage.aborted ∈ stages := by
  rcases List.mem_or_eq_of_mem_set h with hm | he
  · exact hm
  · exact absurd he.symm hn

/-- A scenario that has not ended and does not end leaves the ended ones as they are. -/
theorem ended_set {stages : List Stage} {place : Nat} {old new : Stage}
    (h : stages[place]? = some old) (ho : old ≠ .ended) (hn : new ≠ .ended) (i : Nat) :
    (stages.set place new)[i]? = some .ended ↔ stages[i]? = some .ended := by
  by_cases hi : place = i
  · subst hi
    simp [List.getElem?_set, h, ho, hn]
  · rw [List.getElem?_set_ne hi]

theorem start_kept (h : Kept result jobs scenarios p) {place : Nat}
    (waits : p.stages[place]? = some .waiting) (room : 0 < p.free) :
    Kept result jobs scenarios (p.start place) where
  length := by simp [start, h.length]
  shared := by
    have hc := count_set .inside .inside waits
    have hs := h.shared
    simp only [count, start, reduceCtorEq, ↓reduceIte] at hc hs ⊢
    omega
  ended i := by
    rw [start, ended_set waits (by simp) (by simp)]
    exact h.ended i
  once := h.once
  own := h.own
  failed hm := h.failed (mem_set_aborted (by simp) hm)

theorem finish_kept (h : Kept result jobs scenarios p) {place : Nat}
    (inside : p.stages[place]? = some .inside) :
    Kept result jobs scenarios (p.finish place (result place)) where
  length := by simp [finish, h.length]
  shared := by
    have hc := count_set .ended .inside inside
    have hs := h.shared
    simp only [count, finish, reduceCtorEq, ↓reduceIte] at hc hs ⊢
    omega
  ended i := by
    simp only [finish, List.map_append, List.map_cons, List.map_nil, List.mem_append,
      List.mem_singleton, h.ended i]
    by_cases hi : i = place
    · subst hi
      simp [(List.getElem?_eq_some_iff.mp inside).1]
    · rw [List.getElem?_set_ne (Ne.symm hi)]
      simp [hi]
  once := by
    have hn : place ∉ p.completions.map Completion.place := by
      rw [h.ended place, inside]
      simp
    simpa [finish, List.nodup_append, h.once] using
      fun c hc he => hn (List.mem_map.mpr ⟨c, hc, he⟩)
  own := by
    intro c hc
    rcases List.mem_append.mp hc with hc | hc
    · exact h.own c hc
    · rw [List.mem_singleton.mp hc]
  failed hm := by
    have hf := h.failed (mem_set_aborted (by simp) hm)
    simp only [hasFailed, finish, List.any_append, Bool.or_eq_true] at hf ⊢
    exact .inl hf

theorem giveUp_kept (h : Kept result jobs scenarios p) {place : Nat}
    (waits : p.stages[place]? = some .waiting) (failed : p.hasFailed = true) :
    Kept result jobs scenarios (p.giveUp place) where
  length := by simp [giveUp, h.length]
  shared := by
    have hc := count_set .aborted .inside waits
    have hs := h.shared
    simp only [count, giveUp, reduceCtorEq, ↓reduceIte] at hc hs ⊢
    omega
  ended i := by
    rw [giveUp, ended_set waits (by simp) (by simp)]
    exact h.ended i
  once := h.once
  own := h.own
  failed _ := failed

theorem breakOff_kept (h : Kept result jobs scenarios p) {place : Nat}
    (inside : p.stages[place]? = some .inside) (failed : p.hasFailed = true) :
    Kept result jobs scenarios (p.breakOff place) where
  length := by simp [breakOff, h.length]
  shared := by
    have hc := count_set .aborted .inside inside
    have hs := h.shared
    simp only [count, breakOff, reduceCtorEq, ↓reduceIte] at hc hs ⊢
    omega
  ended i := by
    rw [breakOff, ended_set inside (by simp) (by simp)]
    exact h.ended i
  once := h.once
  own := h.own
  failed _ := failed

theorem step_kept (h : Kept result jobs scenarios p) (next : Step result p q) :
    Kept result jobs scenarios q := by
  cases next with
  | start waits room => exact start_kept h waits room
  | finish inside => exact finish_kept h inside
  | giveUp waits failed => exact giveUp_kept h waits failed
  | breakOff inside failed => exact breakOff_kept h inside failed

theorem reachable_kept (h : Reachable result (initial jobs scenarios) p) :
    Kept result jobs scenarios p := by
  induction h with
  | refl => exact initial_kept
  | step _ next ih => exact step_kept ih next

def work (p : Pool) : Nat :=
  2 * p.count .waiting + p.count .inside

theorem step_work (next : Step result p q) : q.work < p.work := by
  cases next with
  | start waits _ =>
    have hw := count_set .inside .waiting waits
    have hi := count_set .inside .inside waits
    simp only [work, count, start, reduceCtorEq, ↓reduceIte] at hw hi ⊢
    omega
  | finish inside =>
    have hw := count_set .ended .waiting inside
    have hi := count_set .ended .inside inside
    simp only [work, count, finish, reduceCtorEq, ↓reduceIte] at hw hi ⊢
    omega
  | giveUp waits _ =>
    have hw := count_set .aborted .waiting waits
    have hi := count_set .aborted .inside waits
    simp only [work, count, giveUp, reduceCtorEq, ↓reduceIte] at hw hi ⊢
    omega
  | breakOff inside _ =>
    have hw := count_set .aborted .waiting inside
    have hi := count_set .aborted .inside inside
    simp only [work, count, breakOff, reduceCtorEq, ↓reduceIte] at hw hi ⊢
    omega

theorem place_lt (h : Kept result jobs scenarios p) {c : Completion} (hc : c ∈ p.completions) :
    c.place < scenarios := by
  have hm := (h.ended c.place).mp (List.mem_map.mpr ⟨c, hc, rfl⟩)
  exact h.length ▸ (List.getElem?_eq_some_iff.mp hm).1

/-- A failure that a run answers is one that a scenario ended with. -/
theorem failure_of_answer (h : Kept result jobs scenarios p) {failure : Failure}
    (ha : p.answer? = some (.error failure)) :
    .error failure ∈ (List.range scenarios).map result := by
  unfold answer? at ha
  cases hc : Completion.collect p.completions with
  | error other =>
    simp only [Completion.summarize, hc, Except.map, Option.some.injEq, Except.error.injEq] at ha
    obtain ⟨c, hm, hr⟩ := Completion.mem_of_collect_error hc
    refine List.mem_map.mpr ⟨c.place, List.mem_range.mpr (place_lt h hm), ?_⟩
    rw [← h.own c hm, hr, ha]
  | ok placed => simp [Completion.summarize, hc, Except.map] at ha

/-- A summary that a run answers is that of the outcomes of all scenarios, in order. -/
theorem summary_of_answer (h : Kept result jobs scenarios p) {summary : Summary}
    (ha : p.answer? = some (.ok summary)) :
    ∃ outcomes, (List.range scenarios).map result = outcomes.map .ok ∧
      summary = Summary.ofOutcomes outcomes := by
  unfold answer? at ha
  cases hc : Completion.collect p.completions with
  | error other => simp [Completion.summarize, hc, Except.map] at ha
  | ok placed =>
    simp only [Completion.summarize, hc, Except.map, Option.ite_none_right_eq_some, Option.some.injEq,
      Except.ok.injEq] at ha
    obtain ⟨hdone, hs⟩ := ha
    have hcs := Completion.eq_of_collect_ok hc
    have hplaces : p.completions.map Completion.place = placed.map (·.1) := by
      rw [hcs, List.map_map]
      rfl
    have hperm : (placed.map (·.1)).Perm (List.range scenarios) := by
      refine (List.perm_ext_iff_of_nodup (hplaces ▸ h.once) List.nodup_range).mpr ?_
      intro place
      rw [← hplaces, h.ended place, List.mem_range, ← h.length]
      constructor
      · intro he
        exact (List.getElem?_eq_some_iff.mp he).1
      · intro hlt
        have he := List.all_eq_true.mp hdone _ (List.getElem_mem hlt)
        rw [List.getElem?_eq_getElem hlt, eq_of_beq he]
    refine ⟨_, Completion.map_range_eq hperm ?_, hs.symm⟩
    intro entry hm
    have hin : (⟨entry.1, .ok entry.2⟩ : Completion) ∈ p.completions := by
      rw [hcs]
      exact List.mem_map.mpr ⟨entry, hm, rfl⟩
    exact (h.own _ hin).symm

/-- A run without an answer can always go on: a scenario inside can end, and if none is inside there is a
free slot for one that waits. -/
theorem step_of_unanswered (h : Kept result jobs scenarios p) (hn : p.answer? = none) :
    ∃ q, Step result p q := by
  unfold answer? at hn
  cases hc : Completion.collect p.completions with
  | error other => simp [Completion.summarize, hc, Except.map] at hn
  | ok placed =>
    simp only [Completion.summarize, hc, Except.map, ite_eq_right_iff, reduceCtorEq, imp_false,
      Bool.not_eq_true] at hn
    have hf : p.hasFailed = false := by
      rw [hasFailed, Completion.eq_of_collect_ok hc]
      simp
    obtain ⟨s, hs, hne⟩ := List.all_eq_false.mp hn
    obtain ⟨place, hp⟩ := List.mem_iff_getElem?.mp hs
    by_cases hin : Stage.inside ∈ p.stages
    · obtain ⟨i, hi⟩ := List.mem_iff_getElem?.mp hin
      exact ⟨_, .finish hi⟩
    · cases s with
      | waiting =>
        have hzero : p.count .inside = 0 := List.count_eq_zero.mpr hin
        have hroom : 0 < p.free := by
          have hs := h.shared
          have hpos := slots_pos jobs
          omega
        exact ⟨_, .start hp hroom⟩
      | inside => exact absurd hs hin
      | ended => simp at hne
      | aborted => exact absurd (h.failed hs) (by simp [hf])

/-- A schedule: at first nothing is started, and as long as there is no answer the run goes on by a step. -/
structure Schedule (result : Nat → Except Failure Outcome) (jobs scenarios : Nat) where
  pool : Nat → Pool
  first : pool 0 = initial jobs scenarios
  goesOn : ∀ k, (pool k).answer? = none → Step result (pool k) (pool (k + 1))

theorem Schedule.reachable (s : Schedule result jobs scenarios) {k : Nat}
    (h : ∀ i < k, (s.pool i).answer? = none) : Reachable result (initial jobs scenarios) (s.pool k) := by
  induction k with
  | zero => exact s.first ▸ .refl
  | succ k ih =>
    exact .step (ih fun i hi => h i (Nat.lt_succ_of_lt hi)) (s.goesOn k (h k (Nat.lt_succ_self k)))

/-- No schedule goes on for ever: there is a first state with an answer. -/
theorem Schedule.answered (s : Schedule result jobs scenarios) :
    ∃ k a, (∀ i < k, (s.pool i).answer? = none) ∧ (s.pool k).answer? = some a := by
  classical
  have hex : ∃ k, (s.pool k).answer? ≠ none := by
    by_contra hnone
    have hall : ∀ k, (s.pool k).answer? = none := by simpa using hnone
    have hbound : ∀ k, (s.pool k).work + k ≤ (s.pool 0).work := by
      intro k
      induction k with
      | zero => simp
      | succ k ih =>
        have hlt := step_work (s.goesOn k (hall k))
        omega
    have := hbound ((s.pool 0).work + 1)
    omega
  obtain ⟨a, ha⟩ := Option.ne_none_iff_exists'.mp (Nat.find_spec hex)
  refine ⟨Nat.find hex, a, ?_, ha⟩
  intro i hi
  simpa using Nat.find_min hex hi

/-- Every run has a schedule: as long as there is no answer, some step can be taken. -/
theorem Schedule.nonempty (result : Nat → Except Failure Outcome) (jobs scenarios : Nat) :
    Nonempty (Schedule result jobs scenarios) := by
  have hstep : ∀ p : { p // Reachable result (initial jobs scenarios) p },
      ∃ q : { q // Reachable result (initial jobs scenarios) q }, p.1.answer? = none →
        Step result p.1 q.1 := by
    rintro ⟨p, hp⟩
    by_cases hn : p.answer? = none
    · obtain ⟨q, hq⟩ := step_of_unanswered (reachable_kept hp) hn
      exact ⟨⟨q, .step hp hq⟩, fun _ => hq⟩
    · exact ⟨⟨p, hp⟩, fun h => absurd h hn⟩
  choose next hnext using hstep
  refine ⟨fun k => (next^[k] ⟨_, .refl⟩).1, rfl, fun k hn => ?_⟩
  rw [Function.iterate_succ_apply']
  exact hnext _ hn

open Scenario in
/-- The answer of a run does not depend on its schedule. Each scenario has a result of its own, the one of
running them one after another. A run without an answer can always go on, and every schedule comes to an
answer: the summary of all outcomes in the order of the catalog if no scenario fails, and otherwise one of
the failures. -/
theorem answer_of_schedule {launch : Launcher} {c : Configuration} {catalog : List Scenario}
    {t : FileTree} {result : Nat → Except Failure Outcome}
    (own : (runEach launch c catalog t).1 = (List.range catalog.length).map result) (jobs : Nat) :
    (∀ p, Reachable result (initial jobs catalog.length) p → p.answer? = none → ∃ q, Step result p q) ∧
    ∀ s : Schedule result jobs catalog.length,
      ∃ k a, (∀ i < k, (s.pool i).answer? = none) ∧ (s.pool k).answer? = some a ∧
        (∀ outcomes, (runEach launch c catalog t).1 = outcomes.map .ok →
          a = (Run.onTree (runAll launch c catalog) t).1 ∧
          ∃ summary, a = .ok summary ∧ summary.outcomes = outcomes ∧
            summary.passed = outcomes.countP (fun o => o.mismatches.isEmpty) ∧
            summary.passed + summary.failed = catalog.length ∧
            (summary.allPassed = true ↔ ∀ o ∈ outcomes, o.passed = true)) ∧
        ((∃ failure, .error failure ∈ (runEach launch c catalog t).1) →
          ∃ failure, .error failure ∈ (runEach launch c catalog t).1 ∧ a = .error failure) := by
  refine ⟨fun p hp hn => step_of_unanswered (reachable_kept hp) hn, fun s => ?_⟩
  obtain ⟨k, a, hfirst, ha⟩ := s.answered
  have hkept := reachable_kept (s.reachable hfirst)
  refine ⟨k, a, hfirst, ha, ?_, ?_⟩
  · intro outcomes hall
    have hlen : outcomes.length = catalog.length := by
      have := congrArg List.length (hall.symm.trans own)
      simpa using this
    have hok : a = .ok (Summary.ofOutcomes outcomes) := by
      cases a with
      | error failure =>
        have hm := failure_of_answer hkept ha
        rw [← own, hall] at hm
        simp at hm
      | ok summary =>
        obtain ⟨others, ho, rfl⟩ := summary_of_answer hkept ha
        have he : outcomes.map (Except.ok : Outcome → Except Failure Outcome) =
            others.map Except.ok := by
          rw [← hall, own, ho]
        rw [List.map_injective_iff.mpr (fun _ _ => Except.ok.inj) he]
    obtain ⟨hpassed, hcounts⟩ := Summary.ofOutcomes_counts outcomes
    exact ⟨hok.trans (runAll_of_runEach hall).symm, _, hok, rfl, hpassed, hcounts.trans hlen,
      Summary.allPassed_ofOutcomes outcomes⟩
  · rintro ⟨failure, hm⟩
    cases a with
    | error other =>
      refine ⟨other, ?_, rfl⟩
      rw [own]
      exact failure_of_answer hkept ha
    | ok summary =>
      obtain ⟨outcomes, ho, _⟩ := summary_of_answer hkept ha
      rw [own, ho] at hm
      simp at hm

open Scenario

/-- The greeting in a directory of another name, which what it prints gives away. -/
def greetingAgain : Scenario :=
  { greeting with name := "again" }

def greetingOutcomes : List Outcome := [
  ⟨"greeting", "bin/greeter hello outputs/greeting", .code 3, ⟨"outputs/greeting"⟩, []⟩,
  ⟨"again", "bin/greeter hello outputs/again", .code 3, ⟨"outputs/again"⟩,
    [⟨"stdout", "expected 'hello outputs/greeting', got 'hello outputs/again'"⟩]⟩]

theorem eq_map_ok {results : List (Except Failure Outcome)} {outcomes : List Outcome}
    (h : results.map Except.toOption = outcomes.map some) : results = outcomes.map .ok := by
  induction results generalizing outcomes with
  | nil => cases outcomes with
    | nil => rfl
    | cons o rest => cases h
  | cons r rest ih =>
    cases outcomes with
    | nil => cases h
    | cons o others =>
      obtain ⟨ho, hrest⟩ := List.cons.inj h
      cases r with
      | error failure => cases ho
      | ok found => rw [ih hrest, Option.some.inj ho, List.map_cons]

/-- Without any slots of their own, both greetings are judged and one of them passes. -/
theorem answer_of_greetings :
    (runEach greeter plainSettings [greeting, greetingAgain] ⟨[], []⟩).1 =
      (List.range 2).map (fun place => .ok (greetingOutcomes.getD place ⟨"", "", .signal, ⟨""⟩, []⟩)) ∧
    ∀ s : Schedule (fun place => .ok (greetingOutcomes.getD place ⟨"", "", .signal, ⟨""⟩, []⟩)) 0 2,
      ∃ k summary, (s.pool k).answer? = some (.ok summary) ∧ summary.outcomes = greetingOutcomes ∧
        summary.passed = 1 := by
  have hall : (runEach greeter plainSettings [greeting, greetingAgain] ⟨[], []⟩).1 =
      greetingOutcomes.map .ok := eq_map_ok (by decide +kernel)
  have own : (runEach greeter plainSettings [greeting, greetingAgain] ⟨[], []⟩).1 =
      (List.range 2).map
        (fun place => .ok (greetingOutcomes.getD place ⟨"", "", .signal, ⟨""⟩, []⟩)) := by
    rw [hall]
    rfl
  refine ⟨own, fun s => ?_⟩
  obtain ⟨k, a, _, ha, hsummary, _⟩ := (answer_of_schedule own 0).2 s
  obtain ⟨_, summary, rfl, ho, hp, _⟩ := hsummary greetingOutcomes hall
  exact ⟨k, summary, ha, ho, by rw [hp]; decide⟩

end Assay.Pool
