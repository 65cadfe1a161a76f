import Assay.Proofs.FileTree.Descent
import Assay.Proofs.Workspace.Disjoint

namespace Assay

open Run FileTree

namespace Workspace

/-- A location to which the steps of a directory, or the first of them, lead. -/
def OnTheWay (t : FileTree) (directory : Path) (location : Location) : Prop :=
  ∃ q : Path, q.components <+: directory.components ∧ t.find q = .ok (location, .directory)

def Inside (t : FileTree) (directory : Path) (location : Location) : Prop :=
  ∃ own, t.find directory = .ok (own, .directory) ∧ own <+: location

/-- What may be added for an output directory: the tree grows by directories only, on the way to the output
directory or in it. -/
structure AddsOwn (directory : Path) (t left : FileTree) : Prop where
  grows : Grows t left
  added : ∀ location, left.entryAt? location ≠ t.entryAt? location →
    left.entryAt? location = some .directory ∧
      (OnTheWay left directory location ∨ Inside left directory location)

variable {c : Configuration} {name : String} {w : Workspace} {directory : Path}
  {t made left : FileTree} {location : Location}

theorem OnTheWay.grows (h : OnTheWay t directory location) (hg : Grows t left) :
    OnTheWay left directory location := by
  obtain ⟨q, hprefix, hfind⟩ := h
  exact ⟨q, hprefix, hg.find hfind⟩

theorem Inside.grows (h : Inside t directory location) (hg : Grows t left) :
    Inside left directory location := by
  obtain ⟨own, hfind, hprefix⟩ := h
  exact ⟨own, hg.find hfind, hprefix⟩

theorem AddsOwn.refl (directory : Path) (t : FileTree) : AddsOwn directory t t :=
  ⟨Grows.refl t, fun _ h => absurd rfl h⟩

theorem AddsOwn.trans (h : AddsOwn directory t made) (h' : AddsOwn directory made left) :
    AddsOwn directory t left := by
  refine ⟨h.grows.trans h'.grows, fun location hnew => ?_⟩
  by_cases hlater : left.entryAt? location = made.entryAt? location
  · rw [hlater] at hnew ⊢
    obtain ⟨hdirectory, hplace⟩ := h.added location hnew
    exact ⟨hdirectory, hplace.imp (·.grows h'.grows) (·.grows h'.grows)⟩
  · exact h'.added location hlater

/-- Paths that have the first steps of a directory add only what lies on the way to it. -/
theorem addsOwn_of_adds {paths : List Path} (h : Adds paths t left)
    (hplace : ∀ q ∈ paths, ∀ location, left.find q = .ok (location, .directory) →
      OnTheWay left directory location ∨ Inside left directory location) :
    AddsOwn directory t left := by
  refine ⟨h.grows, fun location hnew => ?_⟩
  obtain ⟨q, hq, hfind⟩ := h.led location hnew
  exact ⟨(find_ok.mp hfind).2.2, hplace q hq location hfind⟩

section Making

/-- Making a directory adds what lies on the way to it. -/
theorem addsOwn_makeDirectories (directory : Path) (t : FileTree) :
    AddsOwn directory t (t.makeDirectories directory).1 :=
  addsOwn_of_adds (adds_makeDirectories t directory) fun q hq _ hfind =>
    .inl ⟨q, Path.components_ancestors hq, hfind⟩

/-- The names behind the steps of a directory, as far as a path above has them. -/
theorem Within.above {p q : Path} (h : Within directory p) (hq : q ∈ p.ancestors) :
    q.components <+: directory.components ∨ Within directory q := by
  obtain ⟨names, hnames⟩ := h
  have hprefix : q.components <+: directory.components ++ names.map Component.name :=
    hnames ▸ Path.components_ancestors hq
  rcases List.prefix_or_prefix_of_prefix hprefix (List.prefix_append _ _) with habove | ⟨rest, hrest⟩
  · exact .inl habove
  · right
    rw [← hrest, List.prefix_append_right_inj] at hprefix
    obtain ⟨more, hmore⟩ := hprefix
    obtain ⟨front, back, -, hfront, -⟩ := List.map_eq_append_iff.mp hmore.symm
    exact ⟨front, by rw [← hrest, hfront]⟩

/-- Making a directory within one that is there adds what lies on the way to that one and in it. -/
theorem addsOwn_within {p : Path} {own : Location} (hne : directory.components ≠ [])
    (hthere : t.find directory = .ok (own, .directory)) (hp : Within directory p) :
    AddsOwn directory t (t.makeDirectories p).1 := by
  have hadds := adds_makeDirectories t p
  refine addsOwn_of_adds hadds fun q hq location hfind => ?_
  rcases hp.above hq with habove | ⟨names, hnames⟩
  · exact .inl ⟨q, habove, hfind⟩
  · have hown := hadds.grows.find hthere
    exact .inr ⟨own, hown, prefix_of_find hnames hne hown hfind⟩

end Making

section Steps

theorem addsOwn_enter (c : Configuration) (name : String) (t : FileTree) :
    AddsOwn (c.outputRoot.join ⟨name⟩) t (onTree (enter c name) t).2 := by
  cases hname : isName name with
  | false =>
    rw [enter_refused hname]
    exact AddsOwn.refl _ t
  | true =>
    rw [enter_of_name c hname, left_bind_pure, onTree_make]
    exact addsOwn_makeDirectories _ t

/-- The output directory of a scenario is there once its workspace is entered. -/
theorem find_of_enter (h : onTree (enter c name) t = (.ok w, left)) :
    ∃ own, left.find w.directory = .ok (own, .directory) := by
  have hentered : Entered c name w := ⟨t, left, h⟩
  have hfilled : w.directory.text.isEmpty = false := by
    by_contra hempty
    rw [Bool.not_eq_false, String.isEmpty_iff] at hempty
    exact hentered.ne_nil (String.toList_eq_nil_iff.mpr hempty)
  obtain ⟨-, rfl, hmade⟩ := enter_ok.mp h
  exact find_of_makeDirectories hfilled hmade

theorem Entered.components_ne_nil (h : Entered c name w) : w.directory.components ≠ [] := by
  rw [h.components]
  simp

theorem Entered.addsOwn_subdirectory (h : Entered c name w) {own : Location}
    (hthere : t.find w.directory = .ok (own, .directory)) (relative : String) :
    AddsOwn w.directory t (onTree (w.subdirectory relative) t).2 := by
  rcases h.confined relative t with hrefused | ⟨hwithin, hmade⟩
  · rw [hrefused]
    exact AddsOwn.refl _ t
  · rw [hmade, left_making]
    exact addsOwn_within h.components_ne_nil hthere hwithin

theorem Entered.addsOwn_subdirectories (h : Entered c name w) (relatives : List String)
    {own : Location} (hthere : t.find w.directory = .ok (own, .directory)) :
    AddsOwn w.directory t
      (onTree (relatives.forM fun relative => do let _ ← w.subdirectory relative) t).2 := by
  induction relatives generalizing t with
  | nil => exact AddsOwn.refl _ t
  | cons relative rest ih =>
    have hfirst := h.addsOwn_subdirectory hthere relative
    rw [← left_bind_pure _ ()] at hfirst
    change AddsOwn w.directory t (onTree ((w.subdirectory relative >>= fun _ => pure ()) >>= fun _ =>
      rest.forM fun relative => do let _ ← w.subdirectory relative) t).2
    rw [onTree_bind]
    rcases honce : onTree (w.subdirectory relative >>= fun _ => pure ()) t with ⟨result, there⟩
    rw [honce] at hfirst
    cases result with
    | error failure => exact hfirst
    | ok _ => exact hfirst.trans (ih (hfirst.grows.find hthere))

end Steps

end Workspace

namespace Scenario

open Workspace

variable {c : Configuration} {s : Scenario} {t : FileTree}

/-- Starting a program leaves the tree as it was, or as the program left it. -/
theorem left_launch (launch : Launcher) (i : Invocation) (mustSucceed : Bool) (t : FileTree) :
    (onTree (launch.run i mustSucceed) t).2 = t ∨
      ∃ result, launch i.program i.args t = .ok (result, (onTree (launch.run i mustSucceed) t).2) := by
  unfold Launcher.run
  rw [onTree_bind, onTree_get]
  dsimp only
  cases launch i.program i.args t with
  | error cause => exact .inl rfl
  | ok ended =>
    obtain ⟨result, left⟩ := ended
    refine .inr ⟨result, ?_⟩
    rw [onTree_bind, onTree_set]
    dsimp only
    split_ifs <;> rfl

/-- What is done with a scenario once its workspace is entered. -/
def runIn (launch : Launcher) (s : Scenario) (w : Workspace) : Run Outcome := do
  s.outputSubdirs.forM fun relative => do
    let _ ← w.subdirectory relative
  let invocation := s.invocation w
  let result ← launch.run invocation s.mustSucceed
  match judgeAll w (← get) s.artifacts with
  | .error failure => throw failure
  | .ok artifacts =>
    let verdicts := judgeExit s.exit result.exit :: s.stdout.check "stdout" result.stdout ::
      s.stderr.check "stderr" result.stderr :: artifacts
    pure ⟨s.name, invocation.display, result.exit, w.directory,
      verdicts.filterMap Verdict.mismatch?⟩

theorem run_eq (launch : Launcher) (c : Configuration) (s : Scenario) :
    s.run launch c = enter c s.name >>= s.runIn launch :=
  rfl

/-- What is added in a workspace that is entered is its own, or what the program did. -/
theorem runIn_frame (launch : Launcher) {w : Workspace} (h : Entered c s.name w) {own : Location}
    (hthere : t.find w.directory = .ok (own, .directory)) :
    ∃ ready, AddsOwn w.directory t ready ∧
      ((onTree (s.runIn launch w) t).2 = ready ∨
        ∃ result, launch w.configuration.executable (s.args.map w.expand) ready =
          .ok (result, (onTree (s.runIn launch w) t).2)) := by
  have hadds := h.addsOwn_subdirectories s.outputSubdirs hthere
  unfold runIn
  rw [onTree_bind]
  rcases hsub : onTree (s.outputSubdirs.forM fun relative => do
    let _ ← w.subdirectory relative) t with ⟨made, ready⟩
  rw [hsub] at hadds
  refine ⟨ready, hadds, ?_⟩
  cases made with
  | error failure => exact .inl rfl
  | ok _ =>
    have hjudge : ∀ (result : ProcessResult) (there : FileTree),
        (onTree (get >>= fun found => match judgeAll w found s.artifacts with
          | .error failure => throw failure
          | .ok artifacts =>
            let verdicts := judgeExit s.exit result.exit :: s.stdout.check "stdout" result.stdout ::
              s.stderr.check "stderr" result.stderr :: artifacts
            pure ⟨s.name, (s.invocation w).display, result.exit, w.directory,
              verdicts.filterMap Verdict.mismatch?⟩ : Run Outcome) there).2 = there := by
      intro result there
      rw [onTree_bind, onTree_get]
      dsimp only
      cases judgeAll w there s.artifacts <;> rfl
    dsimp only
    rw [left_bind_of_reads hjudge]
    exact left_launch launch (s.invocation w) s.mustSucceed ready

/-- However a scenario ends, all that is added before its program is started are directories on the way to
its output directory and in it, no entry that was there is changed, and afterwards the tree is the one that
the program left, or still the same if no program was started. -/
theorem run_frame (launch : Launcher) (c : Configuration) (s : Scenario) (t : FileTree) :
    ∃ ready, AddsOwn (s.workspace c).directory t ready ∧
      ((onTree (s.run launch c) t).2 = ready ∨
        ∃ result, launch c.executable (s.args.map (s.workspace c).expand) ready =
          .ok (result, (onTree (s.run launch c) t).2)) := by
  have henter := addsOwn_enter c s.name t
  rw [run_eq, onTree_bind]
  rcases hentered : onTree (enter c s.name) t with ⟨result, made⟩
  rw [hentered] at henter
  cases result with
  | error failure => exact ⟨made, henter, .inl rfl⟩
  | ok w =>
    have hw : w = s.workspace c := (enter_ok.mp hentered).2.1
    obtain ⟨own, hthere⟩ := find_of_enter hentered
    obtain ⟨ready, hadds, hleft⟩ := runIn_frame launch ⟨t, made, hentered⟩ hthere
    rw [hw] at hadds hleft
    rw [hw]
    exact ⟨ready, henter.trans hadds, hleft⟩

end Scenario

end Assay
