import Assay.Proofs.Run.Completions
import Assay.Proofs.Run.Verdict

namespace Assay

/-- What a run does besides reading files and making directories. A program is told also when its start
fails, and a comparison only once both images have been read. -/
inductive Deed where
  | start (i : Invocation)
  | compare (tolerance : Float)

/-- A step of a run that tells its deeds. -/
def Watched (α : Type) : Type :=
  FileTree → List Deed × Except Failure α × FileTree

namespace Watched

variable {α β : Type}

def silent (x : Run α) : Watched α := fun t => ([], Run.onTree x t)

def note (d : Deed) : Watched Unit := fun t => ([d], .ok (), t)

instance : Monad Watched where
  pure a := fun t => ([], .ok a, t)
  bind x f := fun t =>
    match x t with
    | (deeds, .error failure, left) => (deeds, .error failure, left)
    | (deeds, .ok a, left) => (deeds ++ (f a left).1, (f a left).2)

theorem bind_apply (x : Watched α) (f : α → Watched β) (t : FileTree) :
    (x >>= f) t = match x t with
      | (deeds, .error failure, left) => (deeds, .error failure, left)
      | (deeds, .ok a, left) => (deeds ++ (f a left).1, (f a left).2) :=
  rfl

variable {x : Run α} {f : α → Watched β} {t left : FileTree}

theorem silent_bind_ok {a : α} (h : Run.onTree x t = (.ok a, left)) : (silent x >>= f) t = f a left := by
  rw [bind_apply, silent, h]
  rfl

theorem silent_bind_error {failure : Failure} (h : Run.onTree x t = (.error failure, left)) :
    (silent x >>= f) t = ([], .error failure, left) := by
  rw [bind_apply, silent, h]

/-- Answering something else is no deed. -/
theorem deeds_bind_pure (w : Watched α) (g : α → β) (t : FileTree) :
    ((w >>= fun a => pure (g a)) t).1 = (w t).1 := by
  rw [bind_apply]
  rcases w t with ⟨deeds, failure | a, left⟩
  · rfl
  · exact List.append_nil deeds

theorem note_bind (d : Deed) (w : Watched β) : (note d >>= fun _ => w) t = (d :: (w t).1, (w t).2) :=
  rfl

end Watched

/-- A watched step is another one and tells deeds of a kind. -/
structure Watches {α : Type} (P : Deed → Prop) (w : Watched α) (x : Run α) : Prop where
  same : ∀ t, (w t).2 = Run.onTree x t
  deeds : ∀ t, ∀ d ∈ (w t).1, P d

namespace Watches

open Watched

variable {α β : Type} {P : Deed → Prop} {w : Watched α} {x : Run α} {g : α → Watched β} {f : α → Run β}

theorem silent (x : Run α) : Watches P (Watched.silent x) x where
  same _ := rfl
  deeds _ _ h := nomatch h

theorem pure (a : α) : Watches P (pure a) (pure a : Run α) where
  same _ := rfl
  deeds _ _ h := nomatch h

/-- Behind a step only what it can answer has to be watched. -/
theorem bind_of_ok (hx : Watches P w x)
    (hf : ∀ t a left, Run.onTree x t = (.ok a, left) → Watches P (g a) (f a)) :
    Watches P (w >>= g) (x >>= f) := by
  constructor
  · intro t
    have hsame := hx.same t
    rw [bind_apply, Run.onTree_bind, ← hsame]
    rcases hw : w t with ⟨deeds, result, left⟩
    rw [hw] at hsame
    cases result with
    | error failure => rfl
    | ok a => exact (hf t a left hsame.symm).same left
  · intro t
    have hsame := hx.same t
    have hfirst := hx.deeds t
    rw [bind_apply]
    rcases hw : w t with ⟨deeds, result, left⟩
    rw [hw] at hfirst hsame
    cases result with
    | error failure => exact hfirst
    | ok a => exact List.forall_mem_append.mpr ⟨hfirst, (hf t a left hsame.symm).deeds left⟩

theorem bind (hx : Watches P w x) (hf : ∀ a, Watches P (g a) (f a)) : Watches P (w >>= g) (x >>= f) :=
  hx.bind_of_ok fun _ a _ _ => hf a

/-- A deed may be told before a step. -/
theorem noted {d : Deed} (hd : P d) (hx : Watches P w x) : Watches P (note d >>= fun _ => w) x where
  same t := hx.same t
  deeds t := List.forall_mem_cons.mpr ⟨hd, hx.deeds t⟩

theorem congr {y : Run α} (hx : Watches P w x) (hsame : ∀ t, Run.onTree x t = Run.onTree y t) :
    Watches P w y where
  same t := (hx.same t).trans (hsame t)
  deeds := hx.deeds

end Watches

def reading {α : Type} (f : FileTree → Except Failure α) : Run α := fun t => (f t, t)

@[simp] theorem onTree_reading {α : Type} (f : FileTree → Except Failure α) (t : FileTree) :
    Run.onTree (reading f) t = (f t, t) :=
  rfl

namespace Comparison

def watchedImageFiles (actual expected : Path) (tolerance : Float) : Watched Verdict := fun t =>
  match Image.read t expected with
  | .error failure => ([], .error failure, t)
  | .ok reference =>
    match Image.read t actual with
    | .error failure => ([], .ok (unreadableImage actual.label failure), t)
    | .ok produced =>
      ([.compare tolerance], .ok (sameImages actual.label produced reference tolerance), t)

end Comparison

namespace Scenario

open Comparison Watched

def watchedJudge (w : Workspace) : Artifact → Watched Verdict
  | .image produced expected tolerance => do
    let v ← watchedImageFiles (w.outputPath produced) (w.expectedPath expected)
      (tolerance.getD w.configuration.imageTolerance)
    pure (v.relabel produced)
  | .exactText produced text => fun t => ([], judge w t (.exactText produced text), t)
  | .exactFile produced expected => fun t => ([], judge w t (.exactFile produced expected), t)

def watchedJudgeAll (w : Workspace) : List Artifact → Watched (List Verdict)
  | [] => pure []
  | a :: rest => do
    let v ← watchedJudge w a
    let others ← watchedJudgeAll w rest
    pure (v :: others)

def watchedRun (launch : Launcher) (c : Configuration) (s : Scenario) : Watched Outcome := do
  let w ← silent (Workspace.enter c s.name)
  silent (s.outputSubdirs.forM fun relative => do
    let _ ← w.subdirectory relative)
  let invocation := s.invocation w
  note (.start invocation)
  let result ← silent (launch.run invocation s.mustSucceed)
  let artifacts ← watchedJudgeAll w s.artifacts
  let verdicts := judgeExit s.exit result.exit :: s.stdout.check "stdout" result.stdout ::
    s.stderr.check "stderr" result.stderr :: artifacts
  pure ⟨s.name, invocation.display, result.exit, w.directory, verdicts.filterMap Verdict.mismatch?⟩

def watchedUntilFailure (launch : Launcher) (c : Configuration) :
    Nat → List Scenario → FileTree → List Deed × List Completion × FileTree
  | _, [], t => ([], [], t)
  | place, s :: rest, t =>
    match s.watchedRun launch c t with
    | (deeds, .error failure, t) => (deeds, [⟨place, .error failure⟩], t)
    | (deeds, .ok outcome, t) =>
      let (more, completions, t) := watchedUntilFailure launch c (place + 1) rest t
      (deeds ++ more, ⟨place, .ok outcome⟩ :: completions, t)

def watchedRunAll (launch : Launcher) (c : Configuration) (scenarios : List Scenario) :
    Watched Summary := fun t =>
  let (deeds, completions, left) := watchedUntilFailure launch c 0 scenarios t
  (deeds, Completion.summarize completions, left)

variable {P : Deed → Prop} {launch : Launcher} {c : Configuration} {s : Scenario} {scenarios : List Scenario}
  {w : Workspace} {a : Artifact} {artifacts : List Artifact} {t : FileTree}

/-- A property has the deed of comparing the images of an artifact, if it is an image. -/
def Compared (P : Deed → Prop) (c : Configuration) (a : Artifact) : Prop :=
  ∀ produced expected tolerance, a = .image produced expected tolerance →
    P (.compare (tolerance.getD c.imageTolerance))

theorem watches_imageFiles {tolerance : Float} (hp : P (.compare tolerance)) (actual expected : Path) :
    Watches P (watchedImageFiles actual expected tolerance)
      (reading fun t => sameImageFiles t actual expected tolerance) := by
  constructor
  · intro t
    rw [onTree_reading, watchedImageFiles, sameImageFiles]
    cases Image.read t expected with
    | error failure => rfl
    | ok reference => cases Image.read t actual <;> rfl
  · intro t
    rw [watchedImageFiles]
    cases Image.read t expected with
    | error failure => exact fun _ hd => nomatch hd
    | ok reference =>
      cases Image.read t actual with
      | error failure => exact fun _ hd => nomatch hd
      | ok produced => exact List.forall_mem_singleton.mpr hp

theorem judge_image (produced expected : String) (tolerance : Option Float) :
    judge w t (.image produced expected tolerance) =
      (sameImageFiles t (w.outputPath produced) (w.expectedPath expected)
        (tolerance.getD w.configuration.imageTolerance)).map (Verdict.relabel produced) :=
  rfl

theorem watches_judge (h : Compared P w.configuration a) :
    Watches P (watchedJudge w a) (reading fun t => judge w t a) := by
  cases a with
  | exactText produced text => exact ⟨fun _ => rfl, fun _ _ hd => nomatch hd⟩
  | exactFile produced expected => exact ⟨fun _ => rfl, fun _ _ hd => nomatch hd⟩
  | image produced expected tolerance =>
    have himages := watches_imageFiles (h produced expected tolerance rfl) (w.outputPath produced)
      (w.expectedPath expected)
    refine (himages.bind fun v => .pure (v.relabel produced)).congr ?_
    intro t
    rw [Run.onTree_bind, onTree_reading, onTree_reading, judge_image]
    cases sameImageFiles t (w.outputPath produced) (w.expectedPath expected)
      (tolerance.getD w.configuration.imageTolerance) <;> rfl

theorem watches_judgeAll (h : ∀ a ∈ artifacts, Compared P w.configuration a) :
    Watches P (watchedJudgeAll w artifacts) (reading fun t => judgeAll w t artifacts) := by
  induction artifacts with
  | nil => exact .pure []
  | cons a rest ih =>
    obtain ⟨ha, hrest⟩ := List.forall_mem_cons.mp h
    refine ((watches_judge ha).bind fun v =>
      (ih hrest).bind fun others => .pure (v :: others)).congr ?_
    intro t
    simp only [Run.onTree_bind, onTree_reading, judgeAll]
    cases judge w t a with
    | error failure => rfl
    | ok v =>
      dsimp only
      cases judgeAll w t rest <;> rfl

section Runs

variable (launch) (hstart : ∀ i, P (.start i))
include hstart

theorem watches_run (h : ∀ a ∈ s.artifacts, Compared P c a) :
    Watches P (s.watchedRun launch c) (s.run launch c) := by
  unfold watchedRun run
  refine (Watches.silent _).bind_of_ok fun t w left henter => ?_
  obtain ⟨-, rfl, -⟩ := Workspace.enter_ok.mp henter
  refine (Watches.silent _).bind fun _ => .noted (hstart _) ((Watches.silent _).bind fun result => ?_)
  have hjudged := watches_judgeAll (w := ⟨c, c.outputRoot.join ⟨s.name⟩⟩) h
  refine (hjudged.bind fun artifacts => .pure _).congr fun t => ?_
  rw [Run.onTree_bind, onTree_reading, Run.onTree_bind, Run.onTree_get]
  dsimp only
  cases judgeAll ⟨c, c.outputRoot.join ⟨s.name⟩⟩ t s.artifacts <;> rfl

theorem watches_untilFailure (h : ∀ s ∈ scenarios, ∀ a ∈ s.artifacts, Compared P c a) (place : Nat)
    (t : FileTree) :
    (watchedUntilFailure launch c place scenarios t).2 = runUntilFailure launch c place scenarios t ∧
      ∀ d ∈ (watchedUntilFailure launch c place scenarios t).1, P d := by
  induction scenarios generalizing place t with
  | nil => exact ⟨rfl, fun _ hd => nomatch hd⟩
  | cons s rest ih =>
    obtain ⟨hs, hrest⟩ := List.forall_mem_cons.mp h
    have hwatches := watches_run launch hstart hs
    have hsame := hwatches.same t
    have hdeeds := hwatches.deeds t
    rw [Run.onTree] at hsame
    rw [watchedUntilFailure, runUntilFailure, ← hsame]
    rcases hw : s.watchedRun launch c t with ⟨deeds, result, left⟩
    rw [hw] at hdeeds
    cases result with
    | error failure => exact ⟨rfl, hdeeds⟩
    | ok outcome =>
      obtain ⟨hsame', hdeeds'⟩ := ih hrest (place + 1) left
      dsimp only
      rw [← hsame']
      exact ⟨rfl, List.forall_mem_append.mpr ⟨hdeeds, hdeeds'⟩⟩

/-- A run is watched without being changed, and its deeds have a property that starts and comparisons have. -/
theorem watches_runAll (h : ∀ s ∈ scenarios, ∀ a ∈ s.artifacts, Compared P c a) :
    Watches P (watchedRunAll launch c scenarios) (runAll launch c scenarios) := by
  have hall := watches_untilFailure launch hstart h 0
  constructor
  · intro t
    rw [watchedRunAll, runAll, Run.onTree_bind, Run.onTree_get]
    dsimp only
    rw [← (hall t).1]
    simp only [Run.onTree_bind, Run.onTree_set]
    cases Completion.summarize (watchedUntilFailure launch c 0 scenarios t).2.1 <;> rfl
  · exact fun t => (hall t).2

end Runs

/-- The images of an artifact that are compared in a tree: the reference and the image can both be read. -/
def comparisons (w : Workspace) (t : FileTree) : Artifact → List Deed
  | .image produced expected tolerance =>
    if (Image.read t (w.expectedPath expected)).isOk && (Image.read t (w.outputPath produced)).isOk then
      [.compare (tolerance.getD w.configuration.imageTolerance)]
    else []
  | .exactText _ _ | .exactFile _ _ => []

/-- What a scenario does in a tree. Its program is started as soon as it is prepared. Once the program has ended as
it has to, images are compared, up to the first artifact that cannot be judged. -/
inductive Does (launch : Launcher) (c : Configuration) (s : Scenario) (t : FileTree) : List Deed → Prop
  | unprepared (h : ∀ ready, ¬Prepared c s t ready) : Does launch c s t []
  | unfinished {ready left : FileTree} {failure : Failure} (prepared : Prepared c s t ready)
      (ended : Run.onTree (launch.run (s.invocation (s.workspace c)) s.mustSucceed) ready =
        (.error failure, left)) : Does launch c s t [.start (s.invocation (s.workspace c))]
  | judged {ready left : FileTree} {result : ProcessResult} (prepared : Prepared c s t ready)
      (ended : Run.onTree (launch.run (s.invocation (s.workspace c)) s.mustSucceed) ready =
        (.ok result, left)) :
      Does launch c s t (.start (s.invocation (s.workspace c)) ::
        (s.artifacts.takeWhile fun a => (judge (s.workspace c) left a).isOk).flatMap
          (comparisons (s.workspace c) left))

/-- What a run of scenarios does: what each of them does in the tree that the ones before it left, up to the first
that fails. -/
inductive DoesAll (launch : Launcher) (c : Configuration) : List Scenario → FileTree → List Deed → Prop
  | nil {t : FileTree} : DoesAll launch c [] t []
  | failed {s : Scenario} {rest : List Scenario} {t left : FileTree} {failure : Failure} {deeds : List Deed}
      (first : Does launch c s t deeds) (result : Run.onTree (s.run launch c) t = (.error failure, left)) :
      DoesAll launch c (s :: rest) t deeds
  | cons {s : Scenario} {rest : List Scenario} {t left : FileTree} {o : Outcome} {deeds more : List Deed}
      (first : Does launch c s t deeds) (result : Run.onTree (s.run launch c) t = (.ok o, left))
      (others : DoesAll launch c rest left more) : DoesAll launch c (s :: rest) t (deeds ++ more)

theorem deeds_imageFiles {actual expected : Path} {tolerance : Float} {reference produced : Image}
    (hreference : Image.read t expected = .ok reference) (hproduced : Image.read t actual = .ok produced) :
    (watchedImageFiles actual expected tolerance t).1 = [.compare tolerance] := by
  rw [watchedImageFiles, hreference]
  dsimp only
  rw [hproduced]

theorem deeds_judge : (watchedJudge w a t).1 = comparisons w t a := by
  cases a with
  | exactText produced text => rfl
  | exactFile produced expected => rfl
  | image produced expected tolerance =>
    rw [watchedJudge, bind_apply, watchedImageFiles, comparisons]
    cases Image.read t (w.expectedPath expected) with
    | error failure => rfl
    | ok reference => cases Image.read t (w.outputPath produced) <;> rfl

/-- Where an artifact cannot be judged, no images are compared. -/
theorem comparisons_of_error {failure : Failure} (h : judge w t a = .error failure) :
    comparisons w t a = [] := by
  cases a with
  | exactText produced text => rfl
  | exactFile produced expected => rfl
  | image produced expected tolerance =>
    rw [judge_image, sameImageFiles] at h
    rw [comparisons]
    cases hread : Image.read t (w.expectedPath expected) with
    | error other => rfl
    | ok reference =>
      rw [hread] at h
      cases hproduced : Image.read t (w.outputPath produced) <;> simp [hproduced, Except.map] at h

theorem deeds_judgeAll :
    (watchedJudgeAll w artifacts t).1 =
      (artifacts.takeWhile fun a => (judge w t a).isOk).flatMap (comparisons w t) := by
  induction artifacts with
  | nil => rfl
  | cons a rest ih =>
    have hsame := (watches_judge (P := fun _ => True) (w := w) (a := a) fun _ _ _ _ => trivial).same t
    have hdeeds := @deeds_judge w a t
    rw [onTree_reading] at hsame
    rw [watchedJudgeAll, bind_apply, List.takeWhile_cons]
    rcases hw : watchedJudge w a t with ⟨deeds, result, left⟩
    rw [hw] at hsame hdeeds
    cases hsame
    cases hjudge : judge w t a with
    | error failure =>
      rw [comparisons_of_error hjudge] at hdeeds
      exact hdeeds
    | ok v =>
      exact congrArg₂ (· ++ ·) hdeeds ((deeds_bind_pure _ _ t).trans ih)

/-- Each start of a program and each comparison of images is told when a scenario is run. -/
theorem does_watchedRun (launch : Launcher) (c : Configuration) (s : Scenario) (t : FileTree) :
    Does launch c s t (s.watchedRun launch c t).1 := by
  rw [watchedRun]
  rcases henter : Run.onTree (Workspace.enter c s.name) t with ⟨failure | w, made⟩
  · rw [silent_bind_error henter]
    refine .unprepared fun ready hready => ?_
    obtain ⟨made', hmade, -⟩ := prepared_iff.mp hready
    rw [henter] at hmade
    cases hmade
  rw [silent_bind_ok henter]
  obtain rfl : w = s.workspace c := (Workspace.enter_ok.mp henter).2.1
  rcases hsubs : Run.onTree (s.outputSubdirs.forM fun relative => do
      let _ ← (s.workspace c).subdirectory relative) made with ⟨failure | u, ready⟩
  · rw [silent_bind_error hsubs]
    refine .unprepared fun ready hready => ?_
    obtain ⟨made', hmade, hready⟩ := prepared_iff.mp hready
    rw [henter] at hmade
    cases hmade
    rw [hsubs] at hready
    cases hready
  have hprepared : Prepared c s t ready := prepared_iff.mpr ⟨made, henter, hsubs⟩
  rw [silent_bind_ok hsubs, note_bind]
  rcases hended : Run.onTree (launch.run (s.invocation (s.workspace c)) s.mustSucceed) ready with
    ⟨failure | result, left⟩
  · rw [silent_bind_error hended]
    exact .unfinished hprepared hended
  · rw [silent_bind_ok hended, deeds_bind_pure, deeds_judgeAll]
    exact .judged hprepared hended

theorem doesAll_watchedUntilFailure (launch : Launcher) (c : Configuration) (place : Nat)
    (scenarios : List Scenario) (t : FileTree) :
    DoesAll launch c scenarios t (watchedUntilFailure launch c place scenarios t).1 := by
  induction scenarios generalizing place t with
  | nil => exact .nil
  | cons s rest ih =>
    have hsame := (watches_run (P := fun _ => True) (s := s) (c := c) launch (fun _ => trivial)
      fun _ _ _ _ _ _ => trivial).same t
    have hdoes := does_watchedRun launch c s t
    rw [watchedUntilFailure]
    rcases hw : s.watchedRun launch c t with ⟨deeds, result, left⟩
    rw [hw] at hsame hdoes
    cases result with
    | error failure => exact .failed hdoes hsame.symm
    | ok outcome => exact .cons hdoes hsame.symm (ih (place + 1) left)

/-- Each start of a program and each comparison of images is told when scenarios are run, and nothing else. -/
theorem doesAll_watchedRunAll (launch : Launcher) (c : Configuration) (scenarios : List Scenario)
    (t : FileTree) : DoesAll launch c scenarios t (watchedRunAll launch c scenarios t).1 :=
  doesAll_watchedUntilFailure launch c 0 scenarios t

end Scenario

end Assay
