import Assay.Proofs.Comparison.Blame
import Assay.Proofs.Run.Repeated

namespace Assay

open Run FileTree

/-- A program of which it is known what it writes: whatever it does not write is left as it was. -/
def Accounted (wrote : List String → FileTree → Location → Prop) (behaviour : Behaviour) : Prop :=
  ∀ args t result left, behaviour args t = .ok (result, left) →
    ∀ location, ¬wrote args t location → left.entryAt? location = t.entryAt? location

namespace Script

/-- The locations that a script writes for arguments. -/
def Wrote (script : Script) (args : List String) (t : FileTree) (location : Location) : Prop :=
  ∃ w ∈ (script.case args).writes, t.destination? w.1 = some location

theorem accounted (script : Script) :
    Accounted script.Wrote fun args t => .ok (script.program args t) := by
  intro args t result left h location hnot
  cases h
  apply entryAt?_writeAll
  intro w hw hd
  exact hnot ⟨w, hw, hd⟩

end Script

namespace Workspace

variable {t left : FileTree} {directories : List Path} {location : Location} {content : Bytes} {mode : Nat}

/-- Making directories adds no file. -/
theorem MakesAll.file (h : MakesAll t directories left)
    (hf : left.entryAt? location = some (.file content mode)) :
    t.entryAt? location = some (.file content mode) := by
  induction h with
  | nil t => exact hf
  | @cons t made left p rest first others ih =>
    have hmade := ih hf
    have hadds := adds_makeDirectories t p
    rw [first] at hadds
    by_contra hnew
    rw [← hmade] at hnew
    obtain ⟨q, -, hq⟩ := hadds.led location (Ne.symm hnew)
    rw [(find_ok.mp hq).2.2] at hmade
    cases hmade

end Workspace

namespace Scenario

open Workspace Comparison

variable {w : Workspace} {launch : Launcher} {c : Configuration} {s : Scenario} {t left : FileTree}
  {a : Artifact} {o : Outcome} {wrote : List String → FileTree → Location → Prop}

theorem relabel_pass {r : Except Failure Verdict} {check : String}
    (h : r.map (Verdict.relabel check) = .ok .pass) : r = .ok .pass := by
  cases r with
  | error failure => cases h
  | ok v =>
    cases v with
    | pass => rfl
    | fail m => cases h

theorem read_of_judgeText {check text : String} {produced : Path}
    (h : judgeText t check produced text = .pass) : ∃ content, t.read produced = .ok content := by
  rw [judgeText] at h
  cases hr : t.read produced with
  | error cause =>
    rw [hr] at h
    cases h
  | ok content => exact ⟨content, rfl⟩

theorem read_of_sameFiles {actual expected : Path} (h : sameFiles t actual expected = .ok .pass) :
    ∃ content, t.read actual = .ok content := by
  cases hr : t.read expected with
  | error cause => simp [sameFiles, hr] at h
  | ok reference =>
    obtain ⟨v, hv, hpass⟩ : ∃ v, sameFiles t actual expected = .ok v ∧
        (v = .pass ↔ t.read actual = .ok reference) := sameFiles_of_reference hr
    rw [hv, Except.ok.injEq] at h
    exact ⟨reference, hpass.mp h⟩

theorem read_of_sameImageFiles {actual expected : Path} {tolerance : Float}
    (h : sameImageFiles t actual expected tolerance = .ok .pass) : ∃ content, t.read actual = .ok content := by
  cases hr : Image.read t expected with
  | error failure => simp [sameImageFiles, hr] at h
  | ok reference =>
    obtain ⟨v, hv, hpass⟩ := sameImageFiles_of_reference hr actual tolerance
    rw [hv, Except.ok.injEq] at h
    obtain ⟨image, himage, -⟩ := hpass.mp h
    obtain ⟨bytes, hbytes, -⟩ := Image.bind_eq_ok.mp himage
    exact ⟨bytes, Image.mapError_ok hbytes⟩

/-- What passes is a file that can be read. -/
theorem read_of_judge (h : judge w t a = .ok .pass) :
    ∃ content, t.read (w.outputPath a.produced) = .ok content := by
  cases a with
  | exactText produced text =>
    rw [judge, Except.ok.injEq] at h
    exact read_of_judgeText h
  | exactFile produced expected =>
    rw [judge] at h
    exact read_of_sameFiles (relabel_pass h)
  | image produced expected tolerance =>
    rw [judge] at h
    exact read_of_sameImageFiles (relabel_pass h)

/-- When a scenario passes, each of its artifacts is a file that the program wrote which this run started, or
that stood there before the run with the same content. -/
theorem written_or_left_over (h : Accounted wrote (launch c.executable))
    (hrun : onTree (s.run launch c) t = (.ok o, left)) (hpassed : o.passed = true) :
    ∃ ready result, Prepared c s t ready ∧
      launch c.executable (s.args.map (s.workspace c).expand) ready = .ok (result, left) ∧
      ∀ a ∈ s.artifacts, ∃ location content mode,
        left.find ((s.workspace c).outputPath a.produced) = .ok (location, .file content mode) ∧
          (wrote (s.args.map (s.workspace c).expand) ready location ∨
            t.entryAt? location = some (.file content mode)) := by
  obtain ⟨result, hcompletes, rfl⟩ := onTree_run_ok.mp hrun
  obtain ⟨ready, hprepared, hlaunch⟩ := hcompletes.started
  refine ⟨ready, result, hprepared, hlaunch, fun a ha => ?_⟩
  have hpass := ((passed_outcome hcompletes).mp hpassed).2.2.2 a ha
  obtain ⟨content, hread⟩ := read_of_judge hpass
  obtain ⟨location, mode, hfind⟩ := read_ok.mp hread
  refine ⟨location, content, mode, hfind, or_iff_not_imp_left.mpr fun hnot => ?_⟩
  have hstood := h _ _ _ _ hlaunch location hnot
  rw [(find_ok.mp hfind).2.2] at hstood
  exact hprepared.made.file hstood.symm

/-- The noting greeting that also looks for a note of an earlier run. -/
def recalling : Scenario :=
  { noting with artifacts := [.exactText "logs/last" "new", .exactText "logs/first" " old\n"] }

def recalledTree (last : String) : FileTree :=
  { notedTree last with
    entries := (notedTree last).entries ++
      [(["outputs", "greeting", "logs", "first"], .file (Text.Utf8.ofString "old") 0o644)] }

theorem written_or_left_over_recalling :
    ∃ o, onTree (recalling.run noterLaunch plainSettings) (recalledTree "old") =
        (.ok o, recalledTree "new") ∧ o.passed = true ∧
      ∃ ready result, Prepared plainSettings recalling (recalledTree "old") ready ∧
        noterLaunch ⟨"bin/greeter"⟩ ["hello", "outputs/greeting"] ready = .ok (result, recalledTree "new") ∧
        ∀ a ∈ recalling.artifacts, ∃ location content mode,
          (recalledTree "new").find ((recalling.workspace plainSettings).outputPath a.produced) =
              .ok (location, .file content mode) ∧
            (noter.Wrote ["hello", "outputs/greeting"] ready location ∨
              (recalledTree "old").entryAt? location = some (.file content mode)) := by
  have hargs : recalling.args.map (recalling.workspace plainSettings).expand = ["hello", "outputs/greeting"] := by
    decide +kernel
  have hprepared : Prepared plainSettings recalling (recalledTree "old") (recalledTree "old") := by
    refine ⟨by decide +kernel, by decide +kernel, makesAll_there ?_⟩
    decide +kernel
  have hcompletes : Completes noterLaunch plainSettings recalling (recalledTree "old") notedResult
      (recalledTree "new") := by
    refine ⟨⟨_, hprepared, by decide +kernel⟩, ?_, ?_⟩
    · intro hexit
      cases hexit
    · intro a ha
      simp only [recalling, List.mem_cons, List.not_mem_nil, or_false] at ha
      rcases ha with rfl | rfl
      · exact ⟨_, rfl⟩
      · exact ⟨_, rfl⟩
  have hrun := onTree_run_ok.mpr ⟨notedResult, hcompletes, rfl⟩
  have hpassed : (recalling.outcome plainSettings notedResult (recalledTree "new")).passed = true := by
    decide +kernel
  have hboth := written_or_left_over noter.accounted hrun hpassed
  rw [hargs] at hboth
  exact ⟨_, hrun, hpassed, hboth⟩

def idler : Script := ⟨[]⟩

/-- The greeting of a program that does nothing, with a word that is expected in the logs. -/
def resting : Scenario :=
  { greeting with
    exit := .success
    stdout := .any
    artifacts := [.exactText "logs/last" "old"] }

/-- A word in the logs that an earlier run left passes although the program that is started writes nothing. -/
theorem resting_passes :
    (∃ o, onTree (resting.run (fun _ args t => .ok (idler.program args t)) plainSettings) (notedTree "old") =
        (.ok o, notedTree "old") ∧ o.passed = true) ∧
      (∀ args t location, ¬idler.Wrote args t location) ∧
      ∀ a ∈ resting.artifacts, ∃ content mode,
        (notedTree "old").find ((resting.workspace plainSettings).outputPath a.produced) =
          .ok (["outputs", "greeting", "logs", "last"], .file content mode) := by
  have hprepared : Prepared plainSettings resting (notedTree "old") (notedTree "old") := by
    refine ⟨by decide +kernel, by decide +kernel, makesAll_there ?_⟩
    decide +kernel
  refine ⟨⟨_, onTree_run_ok.mpr ⟨⟨.code 0, [], []⟩, ⟨⟨_, hprepared, rfl⟩, fun _ => rfl, ?_⟩, rfl⟩, ?_⟩, ?_, ?_⟩
  · intro a ha
    rw [List.mem_singleton.mp ha]
    exact ⟨_, rfl⟩
  · decide +kernel
  · rintro args t location ⟨w, hw, -⟩
    cases hw
  · intro a ha
    rw [List.mem_singleton.mp ha]
    exact ⟨Text.Utf8.ofString "old", 0o600, by decide +kernel⟩

end Scenario

end Assay
