import Assay.Configuration.Resolution
import Assay.Proofs.Image.Header

namespace Assay.Configuration

variable {t : FileTree} {e : Environment} {o : Overrides} {c : Configuration} {file : SettingsFile}

/-- The settings that come from a file or are the defaults. The file's tolerance has been checked. -/
structure ReadFrom (c : Configuration) (file : SettingsFile) : Prop where
  programName : c.programName = file.programName.getD defaultProgramName
  version : c.version = file.version.getD defaultVersion
  imageTolerance : c.imageTolerance = file.imageTolerance
  checked : Comparison.isTolerance file.imageTolerance = true

theorem readFrom_of_resolveWith (h : resolveWith t e o file = .ok c) : c.ReadFrom file := by
  unfold resolveWith at h
  obtain ⟨executable, -, h⟩ := Image.bind_eq_ok.mp h
  obtain ⟨outputRoot, -, h⟩ := Image.bind_eq_ok.mp h
  cases ht : Comparison.isTolerance file.imageTolerance with
  | false =>
    simp only [ht] at h
    cases h
  | true =>
    simp only [ht] at h
    obtain ⟨program, -, h⟩ := Image.bind_eq_ok.mp h
    cases h
    exact ⟨rfl, rfl, rfl, ht⟩

theorem readFrom_of_resolve (h : resolve t e o = .ok c) :
    ∃ file, SettingsFile.load t e.userSettings o.file = .ok file ∧ c.ReadFrom file := by
  unfold resolve at h
  cases hl : SettingsFile.load t e.userSettings o.file with
  | error failure => simp [hl] at h
  | ok file =>
    simp only [hl] at h
    exact ⟨file, rfl, readFrom_of_resolveWith h⟩

end Assay.Configuration
