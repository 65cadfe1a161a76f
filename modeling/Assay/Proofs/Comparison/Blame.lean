import Mathlib
import Assay.Run.Outcome
import Assay.Proofs.Comparison.Images
import Assay.Proofs.Image.Flaws
import Assay.Proofs.Run.Verdict

namespace Assay

namespace Comparison

variable {t : FileTree} {actual expected : Path} {tolerance : Float} {failure : Failure}

theorem sameFiles_error : sameFiles t actual expected = .error failure ↔
    ∃ cause, t.read expected = .error cause ∧ failure = .fileRead expected cause := by
  rw [sameFiles]
  cases t.read expected with
  | error cause =>
    constructor
    · intro h
      cases h
      exact ⟨cause, rfl, rfl⟩
    · rintro ⟨_, ⟨⟩, rfl⟩
      rfl
  | ok reference =>
    refine iff_of_false ?_ ?_
    · cases t.read actual <;> exact nofun
    · rintro ⟨cause, h, _⟩
      cases h

theorem sameImageFiles_error : sameImageFiles t actual expected tolerance = .error failure ↔
    Image.read t expected = .error failure := by
  rw [sameImageFiles]
  cases Image.read t expected with
  | error other =>
    constructor
    · intro h
      cases h
      rfl
    · intro h
      cases h
      rfl
  | ok reference =>
    refine iff_of_false ?_ nofun
    cases Image.read t actual <;> exact nofun

theorem sameBytes_eq_pass {check : String} {a b : Bytes} : sameBytes check a b = .pass ↔ a = b := by
  rw [sameBytes]
  split_ifs with h
  · exact iff_of_true rfl (eq_of_beq h)
  · refine iff_of_false nofun ?_
    rintro rfl
    exact h (beq_self_eq_true a)

/-- Once the reference can be read there is a verdict, and the produced file passes when it has the same
content. -/
theorem sameFiles_of_reference {reference : Bytes} (h : t.read expected = .ok reference) :
    ∃ v, sameFiles t actual expected = .ok v ∧ (v = .pass ↔ t.read actual = .ok reference) := by
  rw [sameFiles, h]
  cases t.read actual with
  | error cause => exact ⟨_, rfl, iff_of_false nofun nofun⟩
  | ok produced =>
    refine ⟨_, rfl, sameBytes_eq_pass.trans ?_⟩
    rw [Except.ok.injEq]

theorem unreadableImage_fails (check : String) (failure : Failure) :
    unreadableImage check failure ≠ .pass := by
  cases failure <;> exact nofun

/-- Once the reference can be read there is a verdict, and the produced image passes when it can be read
and agrees with the reference. -/
theorem sameImageFiles_of_reference {reference : Image} (h : Image.read t expected = .ok reference)
    (actual : Path) (tolerance : Float) :
    ∃ v, sameImageFiles t actual expected tolerance = .ok v ∧
      (v = .pass ↔
        ∃ produced, Image.read t actual = .ok produced ∧ Agree tolerance produced reference) := by
  rw [sameImageFiles, h]
  cases Image.read t actual with
  | error failure =>
    refine ⟨_, rfl, iff_of_false (unreadableImage_fails _ failure) ?_⟩
    rintro ⟨produced, hp, _⟩
    cases hp
  | ok produced =>
    refine ⟨_, rfl, sameImages_eq_pass.trans ?_⟩
    simp only [Except.ok.injEq, exists_eq_left']

end Comparison

namespace Scenario

open Comparison

/-- The artifacts whose reference cannot be read, with the failure of reading it. An artifact with a text of
its own has no such reference. -/
inductive LacksReference (w : Workspace) (t : FileTree) : Artifact → Failure → Prop where
  | file {produced expected : String} {cause : SystemCause}
    (reference : t.read (w.expectedPath expected) = .error cause) :
    LacksReference w t (.exactFile produced expected) (.fileRead (w.expectedPath expected) cause)
  | image {produced expected : String} {tolerance : Option Float} {failure : Failure}
    (reference : Image.read t (w.expectedPath expected) = .error failure) :
    LacksReference w t (.image produced expected tolerance) failure

variable {w : Workspace} {t : FileTree} {a : Artifact}

theorem relabel_error {r : Except Failure Verdict} {check : String} {failure : Failure} :
    r.map (Verdict.relabel check) = .error failure ↔ r = .error failure := by
  cases r with
  | error other => exact Iff.rfl
  | ok v => exact iff_of_false nofun nofun

theorem judge_error {failure : Failure} : judge w t a = .error failure ↔ LacksReference w t a failure := by
  cases a with
  | exactText produced text => exact iff_of_false nofun nofun
  | exactFile produced expected =>
    rw [judge, relabel_error, sameFiles_error]
    constructor
    · rintro ⟨cause, h, rfl⟩
      exact .file h
    · intro h
      cases h with
      | file h => exact ⟨_, h, rfl⟩
  | image produced expected tolerance =>
    rw [judge, relabel_error, sameImageFiles_error]
    constructor
    · exact .image
    · intro h
      cases h with
      | image h => exact h

theorem check_of_relabel {r : Except Failure Verdict} {check : String} {m : Mismatch}
    (h : r.map (Verdict.relabel check) = .ok (.fail m)) : m.check = check := by
  cases r with
  | error failure => cases h
  | ok v =>
    cases v with
    | pass => cases h
    | fail m' =>
      cases h
      rfl

theorem check_of_judgeText {check text : String} {produced : Path} {m : Mismatch}
    (h : judgeText t check produced text = .fail m) : m.check = check := by
  rw [judgeText] at h
  split at h
  · cases h
    rfl
  · rw [exactText] at h
    split_ifs at h
    cases h
    rfl

/-- A mismatch of an artifact is named by the template of the produced file. -/
theorem check_of_judge {m : Mismatch} (h : judge w t a = .ok (.fail m)) : m.check = a.produced := by
  cases a with
  | exactText produced text =>
    rw [judge, Except.ok.injEq] at h
    exact check_of_judgeText h
  | exactFile produced expected =>
    rw [judge] at h
    exact check_of_relabel h
  | image produced expected tolerance =>
    rw [judge] at h
    exact check_of_relabel h

/-- Blame falls on the right side, in the comparison of files, in that of images and in the judgement of an
artifact. -/
theorem blame_exact (t : FileTree) (actual expected : Path) (tolerance : Float) (w : Workspace)
    (a : Artifact) :
    (∀ failure, sameFiles t actual expected = .error failure ↔
      ∃ cause, t.read expected = .error cause ∧ failure = .fileRead expected cause) ∧
    (∀ failure, sameImageFiles t actual expected tolerance = .error failure ↔
      Image.read t expected = .error failure) ∧
    (∀ reference, t.read expected = .ok reference →
      ∃ v, sameFiles t actual expected = .ok v ∧ (v = .pass ↔ t.read actual = .ok reference)) ∧
    (∀ reference, Image.read t expected = .ok reference →
      ∃ v, sameImageFiles t actual expected tolerance = .ok v ∧
        (v = .pass ↔
          ∃ produced, Image.read t actual = .ok produced ∧ Agree tolerance produced reference) ∧
        (Image.Flaw t actual → ∃ m, v = .fail m)) ∧
    (∀ failure, judge w t a = .error failure ↔ LacksReference w t a failure) ∧
    ∀ m, judge w t a = .ok (.fail m) → m.check = a.produced := by
  refine ⟨fun _ => sameFiles_error, fun _ => sameImageFiles_error, fun _ => sameFiles_of_reference, ?_,
    fun _ => judge_error, fun _ => check_of_judge⟩
  intro reference h
  obtain ⟨v, hv, hpass⟩ := sameImageFiles_of_reference h actual tolerance
  -- an image with a flaw is not read, so its verdict is no pass
  refine ⟨v, hv, hpass, fun flaw => ?_⟩
  cases v with
  | pass =>
    obtain ⟨produced, hp, _⟩ := hpass.mp rfl
    exact absurd hp (flaw.read_ne_ok produced)
  | fail m => exact ⟨m, rfl⟩

def oddBytes : Bytes :=
  Text.Utf8.ofString "NDims = 1\nDimSize = 2\nElementType = MET_ODD\nElementDataFile = LOCAL\n" ++ [7, 9]

def oddTree : FileTree where
  entries := [(["expected"], .directory), (["expected", "pair.mha"], .file Image.pairBytes 0o644),
    (["outputs"], .directory), (["outputs", "odd.mha"], .file oddBytes 0o644)]
  workingDirectory := []

/-- The header of the odd image can be read, and its type cannot. -/
theorem oddTree_flaw : Image.Flaw oddTree ⟨"outputs/odd.mha"⟩ := by
  have htype : (Image.Header.read oddBytes).toOption.bind (·.get? "ElementType") = some "MET_ODD" := by
    decide +kernel
  cases hh : Image.Header.read oddBytes with
  | error fault =>
    rw [hh] at htype
    cases htype
  | ok h =>
    rw [hh] at htype
    exact .unsupportedType ⟨oddBytes, by decide +kernel, hh⟩ htype (by decide)

theorem blame_exact_oddTree :
    (∃ v, sameFiles oddTree ⟨"outputs/gone.mha"⟩ ⟨"expected/pair.mha"⟩ = .ok v ∧ v ≠ .pass) ∧
    (∃ m, sameImageFiles oddTree ⟨"outputs/odd.mha"⟩ ⟨"expected/pair.mha"⟩ 0.0 = .ok (.fail m)) ∧
    (∃ failure, sameImageFiles oddTree ⟨"expected/pair.mha"⟩ ⟨"outputs/odd.mha"⟩ 0.0 = .error failure) ∧
    ∃ m, judge ⟨plainSettings, ⟨"outputs"⟩⟩ oddTree (.image "odd.mha" "pair.mha" none) = .ok (.fail m) ∧
      m.check = "odd.mha" := by
  have blame := fun actual expected => blame_exact oddTree actual expected 0.0
    ⟨plainSettings, ⟨"outputs"⟩⟩ (.image "odd.mha" "pair.mha" none)
  have hpair : (Image.read oddTree ⟨"expected/pair.mha"⟩).toBool = true := by decide +kernel
  refine ⟨?_, ?_, ?_, ?_⟩
  · have hread : oddTree.read ⟨"expected/pair.mha"⟩ = .ok Image.pairBytes := by decide +kernel
    obtain ⟨v, hv, hpass⟩ := (blame ⟨"outputs/gone.mha"⟩ _).2.2.1 _ hread
    exact ⟨v, hv, fun h => absurd (hpass.mp h) (by decide +kernel)⟩
  · cases hr : Image.read oddTree ⟨"expected/pair.mha"⟩ with
    | error failure =>
      rw [hr] at hpair
      cases hpair
    | ok reference =>
      obtain ⟨v, hv, _, hflaw⟩ := (blame ⟨"outputs/odd.mha"⟩ _).2.2.2.1 _ hr
      obtain ⟨m, rfl⟩ := hflaw oddTree_flaw
      exact ⟨m, hv⟩
  · cases hr : Image.read oddTree ⟨"outputs/odd.mha"⟩ with
    | error failure => exact ⟨failure, ((blame _ _).2.1 failure).mpr hr⟩
    | ok image => exact absurd hr (oddTree_flaw.read_ne_ok image)
  · have hjudge : (judge ⟨plainSettings, ⟨"outputs"⟩⟩ oddTree
        (.image "odd.mha" "pair.mha" none)).toOption.map Verdict.isPass = some false := by
      decide +kernel
    cases hj : judge ⟨plainSettings, ⟨"outputs"⟩⟩ oddTree (.image "odd.mha" "pair.mha" none) with
    | error failure =>
      rw [hj] at hjudge
      cases hjudge
    | ok v =>
      cases v with
      | pass =>
        rw [hj] at hjudge
        cases hjudge
      | fail m => exact ⟨m, rfl, (blame ⟨""⟩ ⟨""⟩).2.2.2.2.2 m hj⟩

end Scenario

end Assay
