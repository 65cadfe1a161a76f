import Assay.Proofs.FileTree.Rewriting
import Assay.Proofs.Run.Frame

namespace Assay

open Run FileTree

namespace Script

/-- A script takes one of its cases, or does nothing. -/
theorem case_cases (script : Script) (args : List String) :
    (∃ entry ∈ script.cases, script.case args = entry.2) ∨ script.case args = silent := by
  have hmem : ∀ {key : String} {found : ScriptCase}, script.cases.lookup key = some found →
      ∃ entry ∈ script.cases, found = entry.2 := by
    intro key found h
    obtain ⟨front, back, he, -⟩ := List.lookup_eq_some_iff.mp h
    exact ⟨(key, found), by simp [he], rfl⟩
  rw [case]
  cases hfirst : script.cases.lookup (args.head?.getD "") with
  | some found => exact .inl (hmem hfirst)
  | none =>
    cases hother : script.cases.lookup otherwise with
    | some found => exact .inl (hmem hother)
    | none => exact .inr rfl

end Script

namespace Workspace

structure AgreeOutside (directory : Path) (t t' : FileTree) : Prop where
  start : t'.workingDirectory = t.workingDirectory
  same : ∀ location, ¬Inside t directory location → t'.entryAt? location = t.entryAt? location

/-- What a program does that keeps to a directory: it ends in some way and writes some files one after another,
of which those are skipped that cannot be written. Both depend on its arguments and on what lies outside of
the directory, and nothing outside of it is changed. -/
structure Enclosed (directory : Path) (behaviour : Behaviour) where
  does : List String → FileTree → Except SystemCause (ProcessResult × List (Path × Bytes))
  acts : ∀ args t, behaviour args t =
    (does args t).map fun done => (done.1, Script.writeAll t done.2)
  heeds : ∀ args t t', AgreeOutside directory t t' → does args t' = does args t
  spares : ∀ args t result writes, does args t = .ok (result, writes) →
    AgreeOutside directory t (Script.writeAll t writes)

section Making

variable {t made left : FileTree} {directories : List Path}

theorem MakesAll.grows (h : MakesAll t directories left) : Grows t left := by
  induction h with
  | nil t => exact .refl t
  | @cons t made left p rest first others ih =>
    have hmade := (adds_makeDirectories t p).grows
    rw [first] at hmade
    exact hmade.trans ih

/-- Directories that were made are there. -/
theorem MakesAll.there (h : MakesAll t directories left) {p : Path} (hp : p ∈ directories)
    (hfilled : p.text.isEmpty = false) : left.hasDirectory p = true := by
  induction h with
  | nil t => cases hp
  | @cons t made left q rest first others ih =>
    rcases List.mem_cons.mp hp with rfl | hp
    · obtain ⟨own, hown⟩ := find_of_makeDirectories hfilled first
      exact hasDirectory_iff.mpr ⟨own, others.grows.find hown⟩
    · exact ih hp

/-- Directories that are there are made without any change. -/
theorem makesAll_there (h : ∀ p ∈ directories, t.hasDirectory p = true) : MakesAll t directories t := by
  induction directories with
  | nil => exact .nil t
  | cons p rest ih =>
    obtain ⟨hp, hrest⟩ := List.forall_mem_cons.mp h
    exact .cons (makeDirectories_of_hasDirectory hp) (ih hrest)

theorem isEmpty_join {p : Path} (h : p.text.toList ≠ []) (q : Path) : (p.join q).text.isEmpty = false := by
  rw [← Bool.not_eq_true, String.isEmpty_iff, ← String.toList_eq_nil_iff, Path.join]
  split_ifs with habsolute
  · intro hnil
    rw [Path.isAbsolute, hnil] at habsolute
    simp at habsolute
  · simp [h]

end Making

section Scripts

open Assay.Path (leading segments)

variable {t : FileTree} {directory p : Path} {location : Location} {writes : List (Path × Bytes)}

/-- A path with names behind the steps of a directory. -/
def Below (directory p : Path) : Prop :=
  ∃ names : List String, names ≠ [] ∧ p.components = directory.components ++ names.map Component.name

/-- A path below a directory is written in it. -/
theorem inside_of_destination (hsound : pathFault? directory = none) (hne : directory.components ≠ [])
    (hp : Below directory p) (hd : t.destination? p = some location) : Inside t directory location := by
  obtain ⟨names, hnames, hcomponents⟩ := hp
  obtain ⟨front, last, place, htarget, rfl⟩ := destination_ok hd
  obtain ⟨more, hmore, hlength, hleading⟩ := Path.leading_of_components hcomponents
  obtain ⟨between, name, rfl⟩ : ∃ between name, more = between ++ [name] := by
    refine (List.eq_nil_or_concat' more).resolve_left ?_
    rintro rfl
    exact hnames (List.eq_nil_of_length_eq_zero hlength.symm)
  -- the parts in front of the last are those of the directory and the names between
  have hfront : leading front = leading (segments directory.text.toList) ++ between := by
    have hlast : leading [last] = [last] := List.filter_cons_of_pos (by simp [htarget.ends.name.leads])
    rw [htarget.ends.parts, Path.leading_append, hlast, ← List.append_assoc] at hleading
    exact List.append_inj_left' hleading rfl
  have hwalk := htarget.leads
  rw [start_of_components t hcomponents hne, hfront, walk_append] at hwalk
  cases hown : t.walk (t.start directory) (leading (segments directory.text.toList)) with
  | error c => simp [hown] at hwalk
  | ok own =>
    simp only [hown] at hwalk
    have hdirectory := directory_of_walk hwalk htarget.isDirectory
    rw [← leading_parts_eq] at hown
    refine ⟨own, find_ok.mpr ⟨hsound, walk_of_leading hown hdirectory, hdirectory⟩, ?_⟩
    exact (prefix_of_walk (fun part hm => hmore part (List.mem_append_left _ hm)) hwalk).trans
      (List.prefix_append place _)

theorem agreeOutside_writeAll (hsound : pathFault? directory = none) (hne : directory.components ≠ [])
    (hw : ∀ w ∈ writes, Below directory w.1) (t : FileTree) :
    AgreeOutside directory t (Script.writeAll t writes) := by
  refine ⟨(Script.sameDirectories_writeAll t writes).start, fun location hout => ?_⟩
  apply Script.entryAt?_writeAll
  intro w hm hd
  exact hout (inside_of_destination hsound hne (hw w hm) hd)

/-- A scripted program that writes only paths below a directory keeps to it. -/
def enclosedScript (script : Script) (hsound : pathFault? directory = none)
    (hne : directory.components ≠ [])
    (hw : ∀ entry ∈ script.cases, ∀ w ∈ entry.2.writes, Below directory w.1) :
    Enclosed directory fun args t => .ok (script.program args t) where
  does args t := .ok ((script.program args t).1, (script.case args).writes)
  acts _ _ := rfl
  heeds _ _ _ _ := rfl
  spares args t result writes h := by
    cases h
    apply agreeOutside_writeAll hsound hne
    intro w hm
    obtain ⟨entry, hentry, hcase⟩ | hsilent := script.case_cases args
    · exact hw entry hentry w (hcase ▸ hm)
    · rw [hsilent] at hm
      cases hm

end Scripts

end Workspace

namespace Scenario

open Workspace

variable {launch : Launcher} {c : Configuration} {s : Scenario} {t ready left : FileTree} {o : Outcome}

/-- A scenario that was prepared is prepared in every tree that has the same directories. -/
theorem Prepared.again (h : Prepared c s t ready) (hsame : SameDirectories ready left) :
    Prepared c s left left := by
  obtain ⟨made, hentered, -⟩ := prepared_iff.mp h
  have hne : (s.workspace c).directory.text.toList ≠ [] := Entered.ne_nil ⟨t, made, hentered⟩
  refine ⟨h.named, h.inside, makesAll_there fun p hp => hsame.hasDirectory (h.made.there hp ?_)⟩
  rcases List.mem_cons.mp hp with rfl | hp
  · rwa [← Bool.not_eq_true, String.isEmpty_iff, ← String.toList_eq_nil_iff]
  · obtain ⟨relative, -, rfl⟩ := List.mem_map.mp hp
    exact isEmpty_join hne ⟨relative⟩

/-- A program that keeps to the output directory of a scenario leads to the same outcome when the scenario is
run again, and the tree that the first run left is left unchanged. -/
theorem run_again (h : Enclosed (s.workspace c).directory (launch c.executable))
    (hrun : onTree (s.run launch c) t = (.ok o, left)) :
    onTree (s.run launch c) left = (.ok o, left) := by
  obtain ⟨result, hcompletes, rfl⟩ := onTree_run_ok.mp hrun
  obtain ⟨ready, hprepared, hlaunch⟩ := hcompletes.started
  rw [h.acts] at hlaunch
  cases hdoes : h.does (s.args.map (s.workspace c).expand) ready with
  | error cause => simp [hdoes, Except.map] at hlaunch
  | ok done =>
    obtain ⟨found, writes⟩ := done
    simp only [hdoes, Except.map, Except.ok.injEq, Prod.mk.injEq] at hlaunch
    obtain ⟨rfl, rfl⟩ := hlaunch
    have hagain : launch c.executable (s.args.map (s.workspace c).expand) (Script.writeAll ready writes) =
        .ok (found, Script.writeAll ready writes) := by
      rw [h.acts, h.heeds _ _ _ (h.spares _ _ _ _ hdoes), hdoes]
      simp [Except.map, Script.writeAll_writeAll]
    have hprepared' := hprepared.again (Script.sameDirectories_writeAll ready writes)
    exact onTree_run_ok.mpr
      ⟨found, ⟨⟨_, hprepared', hagain⟩, hcompletes.required, hcompletes.judged⟩, rfl⟩

/-- A program that notes a word in the logs of the greeting. It also tries to note it in a directory that is
not there, and over the directory of the logs. -/
def noter : Script where
  cases := [("hello", ⟨true, [], [], [(⟨"outputs/greeting/logs/last"⟩, Text.Utf8.ofString "new"),
    (⟨"outputs/greeting/missing/last"⟩, []), (⟨"outputs/greeting/logs"⟩, [])], .code 3⟩)]

def noterLaunch : Launcher := fun _ args t => .ok (noter.program args t)

def noting : Scenario :=
  { greeting with
    stdout := .contains "hello"
    artifacts := [.exactText "logs/last" "new", .exactText "logs/first" "new"] }

def notedTree (word : String) : FileTree :=
  { greetingTree with
    entries := greetingTree.entries ++
      [(["outputs", "greeting", "logs", "last"], .file (Text.Utf8.ofString word) 0o600)] }

def notedResult : ProcessResult :=
  ⟨.code 3, Text.Utf8.ofString "hello\noutputs/greeting\n", []⟩

/-- The noting program keeps to the output directory of the greeting. -/
def enclosedNoter :
    Enclosed (noting.workspace plainSettings).directory (noterLaunch plainSettings.executable) := by
  have hdirectory : (noting.workspace plainSettings).directory = ⟨"outputs/greeting"⟩ := by decide +kernel
  rw [hdirectory]
  refine enclosedScript noter (by decide +kernel) (by decide +kernel) ?_
  intro entry hentry w hw
  rw [List.mem_singleton.mp hentry] at hw
  simp only [List.mem_cons, List.not_mem_nil, or_false] at hw
  rcases hw with rfl | rfl | rfl
  · exact ⟨["logs", "last"], by simp, by decide +kernel⟩
  · exact ⟨["missing", "last"], by simp, by decide +kernel⟩
  · exact ⟨["logs"], by simp, by decide +kernel⟩

theorem run_again_noting :
    onTree (noting.run noterLaunch plainSettings) (notedTree "old") =
      (.ok (noting.outcome plainSettings notedResult (notedTree "new")), notedTree "new") ∧
    onTree (noting.run noterLaunch plainSettings) (notedTree "new") =
      (.ok (noting.outcome plainSettings notedResult (notedTree "new")), notedTree "new") := by
  have hprepared : Prepared plainSettings noting (notedTree "old") (notedTree "old") := by
    refine ⟨by decide +kernel, by decide +kernel, makesAll_there ?_⟩
    decide +kernel
  have hfirst : onTree (noting.run noterLaunch plainSettings) (notedTree "old") =
      (.ok (noting.outcome plainSettings notedResult (notedTree "new")), notedTree "new") := by
    refine onTree_run_ok.mpr ⟨notedResult, ⟨⟨_, hprepared, by decide +kernel⟩, ?_, ?_⟩, rfl⟩
    · intro hexit
      cases hexit
    · intro a ha
      simp only [noting, List.mem_cons, List.not_mem_nil, or_false] at ha
      rcases ha with rfl | rfl
      · exact ⟨_, rfl⟩
      · exact ⟨_, rfl⟩
  exact ⟨hfirst, run_again enclosedNoter hfirst⟩

end Scenario

end Assay
