import Mathlib
import Assay.Process.Host
import Assay.Proofs.FileTree

namespace Assay

structure Executable (t : FileTree) (p : Path) (location : Location) (content : Bytes) (mode : Nat) :
    Prop where
  found : t.find p = .ok (location, .file content mode)
  allowed : mode &&& executeBits ≠ 0

variable {t : FileTree} {p q : Path} {location : Location} {content : Bytes} {mode : Nat}

theorem isExecutable_file : (Entry.file content mode).isExecutable = true ↔ mode &&& executeBits ≠ 0 :=
  bne_iff_ne

theorem isProgram_iff :
    SearchPath.isProgram t p = true ↔ ∃ location content mode, Executable t p location content mode := by
  rw [SearchPath.isProgram]
  constructor
  · intro h
    split at h
    · rename_i location e hf
      cases e with
      | directory => cases h
      | file content mode => exact ⟨location, content, mode, hf, isExecutable_file.mp h⟩
    · cases h
  · rintro ⟨location, content, mode, hf, ha⟩
    rw [hf]
    exact isExecutable_file.mpr ha

theorem Executable.has (h : Executable t p location content mode) : t.has p = true := by
  rw [FileTree.has, h.found]

theorem Executable.file (h : Executable t p location content mode) :
    Host.file t p = .ok (location, content) := by
  rw [Host.file, h.found]
  exact if_pos (isExecutable_file.mpr h.allowed)

section Paths

theorem FileTree.pathFault_of_find {found : Location × Entry} (h : t.find p = .ok found) :
    FileTree.pathFault? p = none := by
  rw [FileTree.find] at h
  split at h
  · cases h
  · assumption

/-- A path that leads somewhere is not empty and holds no character that a program cannot be started
with. -/
theorem Executable.text (h : Executable t p location content mode) :
    p.text.isEmpty = false ∧ Host.hasNul p.text = false := by
  have hfault := FileTree.pathFault_of_find h.found
  rw [FileTree.pathFault?] at hfault
  split_ifs at hfault with hnul hempty
  refine ⟨?_, Bool.eq_false_iff.mpr hnul⟩
  simpa using hempty

/-- A name joined to a directory has a slash in front of it, unless the directory is the empty path. -/
theorem Path.join_eq_or_slash (directory name : Path) :
    directory.join name = name ∨ '/' ∈ (directory.join name).text.toList := by
  rw [join]
  split_ifs with habsolute
  · exact .inl rfl
  · cases hbase : directory.text.toList with
    | nil => exact .inl (by simp)
    | cons c rest =>
      refine .inr ?_
      rw [String.toList_ofList]
      split_ifs with hslash
      · simp only [List.isEmpty_cons, Bool.false_or, decide_eq_true_eq] at hslash
        exact List.mem_append_left _ (List.mem_append_left _ (List.mem_of_getLast? hslash))
      · exact List.mem_append_left _ (List.mem_append_right _ List.mem_cons_self)

/-- A part of a path that can be followed is no longer than a name can be. -/
theorem FileTree.size_le_of_step {here there : Location} {part : List Char}
    (h : t.step here part = .ok there) : Text.Utf8.size part ≤ FileTree.longestName := by
  rw [FileTree.step] at h
  split at h
  · cases h
  · cases h
  · split_ifs at h with hidle hup hlong
    · rw [Path.isIdle, Bool.or_eq_true, beq_iff_eq, beq_iff_eq] at hidle
      rcases hidle with rfl | rfl <;> decide
    · rw [hup]
      decide
    · exact Nat.le_of_not_lt hlong

/-- A path without a slash that leads somewhere is no longer than a name can be. -/
theorem FileTree.size_le_of_find {found : Location × Entry} (hs : '/' ∉ p.text.toList)
    (h : t.find p = .ok found) : Text.Utf8.size p.text.toList ≤ FileTree.longestName := by
  have hrelative : ¬p.isAbsolute = true := by
    rw [Path.isAbsolute, decide_eq_true_eq]
    exact fun hhead => hs (List.mem_of_head? hhead)
  have hparts : FileTree.parts p = [p.text.toList] := by
    rw [FileTree.parts, if_neg hrelative]
    simpa [Path.joined] using @Path.segments_joined [p.text.toList] (by simpa using hs) (by simp)
  rw [FileTree.find, FileTree.pathFault_of_find h, hparts] at h
  cases hstep : t.step (t.start p) p.text.toList with
  | error cause => simp [FileTree.walk, hstep] at h
  | ok there => exact FileTree.size_le_of_step hstep

end Paths

/-- What is found for a path is a program: the path itself, or its name in a directory of the search path
if it leads to nothing by itself. -/
theorem resolveExecutable_ok {s : SearchPath} (h : resolveExecutable t s p = .ok q) :
    (∃ location content mode, Executable t q location content mode) ∧
      (q = p ∨ t.has p = false ∧ ∃ directory ∈ s.directories, q = directory.join p) := by
  rw [resolveExecutable] at h
  split_ifs at h with hbare
  · rw [isBareName, Bool.and_eq_true, Bool.not_eq_true'] at hbare
    split at h
    · cases h
    · rename_i found hf
      cases h
      rw [SearchPath.find?] at hf
      obtain ⟨directory, hd, rfl⟩ := List.mem_map.mp (List.mem_of_find?_eq_some hf)
      exact ⟨isProgram_iff.mp (List.find?_some hf), .inr ⟨hbare.2, directory, hd, rfl⟩⟩
  · split at h
    · cases h
    · cases h
    · rename_i location content mode hf
      split_ifs at h with hexec
      cases h
      exact ⟨⟨location, content, mode, hf, isExecutable_file.mp hexec⟩, .inl rfl⟩

/-- Every refusal of a path as a program tells the path. -/
theorem resolveExecutable_error {t : FileTree} {search : SearchPath} {p : Path} {failure : Failure}
    (h : resolveExecutable t search p = .error failure) : ∃ fault, failure = .executable p fault := by
  rw [resolveExecutable] at h
  split_ifs at h
  · cases hfound : search.find? t p <;> rw [hfound] at h <;> cases h
    exact ⟨_, rfl⟩
  · split at h
    · cases h
      exact ⟨_, rfl⟩
    · cases h
      exact ⟨_, rfl⟩
    · split_ifs at h
      cases h
      exact ⟨_, rfl⟩

namespace Host

variable {h : Host}

theorem launch_of_locate (hl : h.locate t q = .ok (location, content)) {program : Program}
    (hp : h.program? location content = some program) (hnul : hasNul q.text = false) {args : List String}
    (hargs : args.any hasNul = false) : h.launch q args t = .ok (program args t) := by
  rw [launch, hnul, hargs]
  simp [hl, hp]

/-- What is found for a path is a file that may be executed. If it is found as a path with a slash, starting
it runs that file. Otherwise the path is a name that leads to the file from the working directory, and what
is started is what the search path gives for the name. -/
theorem launch_of_resolved (h : Host) (t : FileTree) {p q : Path}
    (hr : resolveExecutable t h.searchPath p = .ok q) :
    ∃ location content mode, Executable t q location content mode ∧
      ('/' ∈ q.text.toList → h.locate t q = .ok (location, content) ∧
        ∀ program args, h.program? location content = some program → args.any hasNul = false →
          h.launch q args t = .ok (program args t)) ∧
      ('/' ∉ q.text.toList → q = p ∧ t.has p = true ∧
        h.locate t q = search t p .notFound h.searchPath.directories) := by
  obtain ⟨⟨location, content, mode, hq⟩, horigin⟩ := resolveExecutable_ok hr
  have hfilled : ¬q.text.isEmpty = true := Bool.eq_false_iff.mp hq.text.1
  refine ⟨location, content, mode, hq, ?_, ?_⟩
  · intro hslash
    have hl : h.locate t q = .ok (location, content) := by
      rw [locate, if_neg hfilled, if_pos (List.contains_iff_mem.mpr hslash), hq.file]
    exact ⟨hl, fun program args hp hargs => launch_of_locate hl hp hq.text.2 hargs⟩
  · intro hslash
    -- a directory of the search path would have left a slash in front of the name
    have hqp : q = p := by
      rcases horigin with hqp | ⟨_, directory, _, hjoin⟩
      · exact hqp
      · rcases Path.join_eq_or_slash directory p with hsame | hmem
        · exact hjoin.trans hsame
        · rw [← hjoin] at hmem
          exact absurd hmem hslash
    subst hqp
    refine ⟨rfl, hq.has, ?_⟩
    have hplain : ¬q.text.toList.contains '/' = true := by
      rwa [List.contains_iff_mem]
    have hshort := FileTree.size_le_of_find hslash hq.found
    rw [locate, if_neg hfilled, if_neg hplain, if_neg (Nat.not_lt.mpr hshort)]

def shadowedTree : FileTree where
  entries := [(["tool"], .file [1] 0o755), (["bin"], .directory), (["bin", "tool"], .file [2] 0o755),
    (["bin", "other"], .file [3] 0o755)]
  workingDirectory := []

def binHost : Host where
  searchPath := ⟨[⟨"bin"⟩]⟩
  program? := fun _ content => some fun _ t => (⟨.code 0, content, []⟩, t)

theorem launch_of_resolved_other :
    resolveExecutable shadowedTree binHost.searchPath ⟨"other"⟩ = .ok ⟨"bin/other"⟩ ∧
    binHost.launch ⟨"bin/other"⟩ ["--help"] shadowedTree = .ok (⟨.code 0, [3], []⟩, shadowedTree) := by
  have hr : resolveExecutable shadowedTree binHost.searchPath ⟨"other"⟩ = .ok ⟨"bin/other"⟩ := by
    rfl
  obtain ⟨location, content, mode, hq, hslash, _⟩ := launch_of_resolved binHost shadowedTree hr
  have hfound : shadowedTree.find ⟨"bin/other"⟩ = .ok (["bin", "other"], .file [3] 0o755) := by
    decide +kernel
  obtain ⟨rfl, rfl, rfl⟩ : location = ["bin", "other"] ∧ content = [3] ∧ mode = 0o755 := by
    simpa only [hfound, Except.ok.injEq, Prod.mk.injEq, Entry.file.injEq, eq_comm] using hq.found
  exact ⟨hr, (hslash (by decide +kernel)).2 _ ["--help"] rfl (by decide +kernel)⟩

/-- A name in the working directory is not what is started. -/
theorem shadowed_not_started :
    ¬∀ (h : Host) (t : FileTree) (p q : Path), resolveExecutable t h.searchPath p = .ok q →
      ∃ location content mode, Executable t q location content mode ∧
        h.locate t q = .ok (location, content) := by
  intro hall
  have hr : resolveExecutable shadowedTree binHost.searchPath ⟨"tool"⟩ = .ok ⟨"tool"⟩ := by
    rfl
  obtain ⟨location, content, mode, hq, hl⟩ := hall binHost shadowedTree ⟨"tool"⟩ ⟨"tool"⟩ hr
  have hfound : shadowedTree.find ⟨"tool"⟩ = .ok (["tool"], .file [1] 0o755) := by decide +kernel
  have hlocated : binHost.locate shadowedTree ⟨"tool"⟩ = .ok (["bin", "tool"], [2]) := by
    decide +kernel
  have hchecked : content = [1] := by
    have hsame := hq.found.symm.trans hfound
    simp only [Except.ok.injEq, Prod.mk.injEq, Entry.file.injEq] at hsame
    exact hsame.2.1
  have hstarted : content = [2] := by
    have hsame := hl.symm.trans hlocated
    simp only [Except.ok.injEq, Prod.mk.injEq] at hsame
    exact hsame.2
  exact absurd (hchecked.symm.trans hstarted) (by decide)

end Host

end Assay
