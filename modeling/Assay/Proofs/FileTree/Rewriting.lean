import Assay.Process.Script
import Assay.Proofs.FileTree.Descent

namespace Assay

namespace FileTree

section Entries

variable {first second : Location} {e e' : Entry} {entries : List (Location × Entry)}

theorem putEntry_putEntry (first : Location) (e e' : Entry) (entries : List (Location × Entry)) :
    putEntry first e' (putEntry first e entries) = putEntry first e' entries := by
  induction entries with
  | nil => simp [putEntry]
  | cons x rest ih =>
    obtain ⟨other, old⟩ := x
    by_cases h : other = first <;> simp [putEntry, h, ih]

/-- Entries at two locations can be put in either order if there was one at the second. At a new location
the entry would come behind all others, so that the order would show. -/
theorem putEntry_comm (hne : first ≠ second) (hthere : (entries.lookup second).isSome = true) :
    putEntry second e' (putEntry first e entries) = putEntry first e (putEntry second e' entries) := by
  induction entries with
  | nil => simp at hthere
  | cons x rest ih =>
    obtain ⟨other, old⟩ := x
    by_cases hf : other = first
    · have hs : first ≠ second := hne
      simp [putEntry, hf, hs]
    · by_cases hs : other = second
      · have hback : second ≠ first := Ne.symm hne
        simp [putEntry, hs, hback]
      · have hpassed : (second == other) = false := by simpa using Ne.symm hs
        rw [List.lookup_cons, hpassed] at hthere
        simp [putEntry, hf, hs, ih hthere]

end Entries

structure SameDirectories (t t' : FileTree) : Prop where
  start : t'.workingDirectory = t.workingDirectory
  same : ∀ location, t'.entryAt? location = some .directory ↔ t.entryAt? location = some .directory

namespace SameDirectories

variable {t t' : FileTree} {here there : Location} {part : List Char} {way : List (List Char)}

theorem refl (t : FileTree) : SameDirectories t t :=
  ⟨rfl, fun _ => Iff.rfl⟩

theorem symm (h : SameDirectories t t') : SameDirectories t' t :=
  ⟨h.start.symm, fun location => (h.same location).symm⟩

theorem trans {t'' : FileTree} (h : SameDirectories t t') (h' : SameDirectories t' t'') :
    SameDirectories t t'' :=
  ⟨h'.start.trans h.start, fun location => (h'.same location).trans (h.same location)⟩

/-- A step to a directory is one in every tree with the same directories. -/
theorem step (h : SameDirectories t t') (hs : t.step here part = .ok there)
    (hd : t.entryAt? there = some .directory) : t'.step here part = .ok there := by
  have hhere := directory_of_step hs
  rw [FileTree.step, hhere] at hs
  rw [FileTree.step, (h.same here).mpr hhere]
  dsimp only at hs ⊢
  split_ifs at hs ⊢ with hidle hback hlong hnew hold hold
  · exact hs
  · exact hs
  · exact hs
  · rw [Except.ok.inj hs] at hnew
    simp [(h.same there).mpr hd] at hnew

/-- Only directories are passed on a way to a directory. -/
theorem walk (h : SameDirectories t t') (hw : t.walk here way = .ok there)
    (hd : t.entryAt? there = some .directory) : t'.walk here way = .ok there := by
  induction way generalizing here with
  | nil => exact hw
  | cons part rest ih =>
    rw [walk_cons] at hw ⊢
    cases hs : t.step here part with
    | error c => simp [hs] at hw
    | ok next =>
      simp only [hs] at hw
      rw [h.step hs (directory_of_walk hw hd)]
      exact ih hw

theorem start_eq (h : SameDirectories t t') (p : Path) : t'.start p = t.start p := by
  rw [FileTree.start, FileTree.start, h.start]

theorem find {p : Path} (h : SameDirectories t t') (hf : t.find p = .ok (there, .directory)) :
    t'.find p = .ok (there, .directory) := by
  obtain ⟨hsound, hwalk, hd⟩ := find_ok.mp hf
  exact find_ok.mpr ⟨hsound, h.start_eq p ▸ h.walk hwalk hd, (h.same there).mpr hd⟩

theorem hasDirectory {p : Path} (h : SameDirectories t t') (hp : t.hasDirectory p = true) :
    t'.hasDirectory p = true := by
  obtain ⟨there, hf⟩ := hasDirectory_iff.mp hp
  exact hasDirectory_iff.mpr ⟨there, h.find hf⟩

theorem place {q : Place} (h : SameDirectories t t') (hp : t.place here way = .ok q) :
    t'.place here way = .ok q := by
  obtain ⟨hwalk, hd, hlast⟩ := place_ok hp
  rw [FileTree.place, h.walk hwalk hd]
  dsimp only
  rw [(h.same q.directory).mpr hd, ← hlast]

end SameDirectories

section Storing

variable {t t' : FileTree} {p : Path} {location other : Location} {content content' : Bytes}

theorem destination_free (h : t.destination? p = some location) :
    t.entryAt? location ≠ some .directory := by
  obtain ⟨front, last, directory, htarget, rfl⟩ := destination_ok h
  exact htarget.free

/-- Where a path is written depends on the directories only. -/
theorem SameDirectories.destination (h : SameDirectories t t') (p : Path) :
    t'.destination? p = t.destination? p := by
  have hplace : ∀ {u u' : FileTree}, SameDirectories u u' → ∀ location,
      u.destination? p = some location → u'.destination? p = some location := by
    intro u u' hsame location hd
    rw [destination?] at hd ⊢
    cases hsound : pathFault? p with
    | some c => simp [hsound] at hd
    | none =>
      rw [hsound] at hd
      cases hq : u.place (u.start p) (dropSlashes (parts p)) with
      | error c => simp [hq] at hd
      | ok q =>
        rw [hq] at hd
        rw [hsame.start_eq, hsame.place hq]
        simpa only [hsame.same] using hd
  cases hd : t.destination? p with
  | some location => exact hplace h location hd
  | none =>
    cases hd' : t'.destination? p with
    | none => rfl
    | some location =>
      rw [hplace h.symm location hd'] at hd
      cases hd

theorem entryAt?_store_self (h : t.entryAt? location ≠ some .directory) (content : Bytes) :
    (t.store location content).entryAt? location = some (.file content (t.modeAt location)) :=
  entryAt?_put_self (ne_nil_of_ne_directory h) _

theorem entryAt?_store_ne (h : other ≠ location) (content : Bytes) :
    (t.store location content).entryAt? other = t.entryAt? other :=
  entryAt?_put_ne h _

/-- Storing a file makes no directory and removes none. -/
theorem sameDirectories_store (h : t.entryAt? location ≠ some .directory) (content : Bytes) :
    SameDirectories t (t.store location content) := by
  refine ⟨rfl, fun other => ?_⟩
  by_cases he : other = location
  · rw [he, entryAt?_store_self h]
    simp [h]
  · rw [entryAt?_store_ne he]

theorem modeAt_store (h : t.entryAt? location ≠ some .directory) (content : Bytes) (other : Location) :
    (t.store location content).modeAt other = t.modeAt other := by
  by_cases he : other = location
  · rw [he, modeAt, entryAt?_store_self h]
  · rw [modeAt, entryAt?_store_ne he, modeAt]

theorem store_store (h : t.entryAt? location ≠ some .directory) (content content' : Bytes) :
    (t.store location content).store location content' = t.store location content' := by
  rw [store, modeAt_store h]
  simp [store, put, putEntry_putEntry]

/-- Files at two locations can be stored in either order if there was one at the second. -/
theorem store_comm (hne : location ≠ other) (hl : t.entryAt? location ≠ some .directory)
    (ho : t.entryAt? other ≠ some .directory) (hthere : (t.entryAt? other).isSome = true)
    (content content' : Bytes) :
    (t.store location content).store other content' = (t.store other content').store location content := by
  have hlookup : (t.entries.lookup other).isSome = true := by
    simpa [entryAt?, ne_nil_of_ne_directory ho] using hthere
  rw [store, modeAt_store hl, store, store, modeAt_store ho, store]
  simp [put, putEntry_comm hne hlookup]

end Storing

section Making

variable {t made left : FileTree} {p : Path}

theorem parts_ne_nil (p : Path) : parts p ≠ [] := by
  rw [parts]
  split_ifs with habsolute
  · rw [Path.isAbsolute, decide_eq_true_eq] at habsolute
    obtain ⟨rest, htext⟩ := List.head?_eq_some_iff.mp habsolute
    rw [htext, Path.segments_slash]
    exact List.splitOn_ne_nil '/' rest
  · exact List.splitOn_ne_nil '/' _

/-- A path to an entry has a place, since all but its last part lead to a directory. -/
theorem exists_place {location : Location} {e : Entry} (h : t.find p = .ok (location, e)) :
    ∃ q, t.place (t.start p) (dropSlashes (parts p)) = .ok q := by
  obtain ⟨-, hwalk, -⟩ := find_ok.mp h
  -- the first part behind those that the place passes is followed from a directory
  obtain ⟨part, rest, hsplit⟩ : ∃ part rest,
      parts p = (dropSlashes (parts p)).dropLast ++ part :: rest := by
    obtain ⟨empty, hempty, -⟩ := dropSlashes_split (parts p)
    rcases List.eq_nil_or_concat' (dropSlashes (parts p)) with hnil | ⟨front, last, hlast⟩
    · obtain ⟨part, rest, hparts⟩ := List.exists_cons_of_ne_nil (parts_ne_nil p)
      exact ⟨part, rest, by rw [hnil, hparts]; rfl⟩
    · refine ⟨last, empty, ?_⟩
      rw [hlast, List.dropLast_concat]
      rw [hlast] at hempty
      simpa using hempty
  rw [hsplit, walk_append] at hwalk
  cases hfront : t.walk (t.start p) (dropSlashes (parts p)).dropLast with
  | error c => simp [hfront] at hwalk
  | ok there =>
    rw [hfront] at hwalk
    dsimp only at hwalk
    rw [walk_cons] at hwalk
    cases hs : t.step there part with
    | error c => simp [hs] at hwalk
    | ok next =>
      rw [place, hfront]
      dsimp only
      rw [directory_of_step hs]
      exact ⟨_, rfl⟩

/-- A directory that is there is neither made nor missing. -/
theorem makeDirectory_of_find {location : Location} (h : t.find p = .ok (location, .directory)) :
    ∃ cause, t.makeDirectory p = .error cause ∧ cause ≠ .notFound := by
  cases hm : t.makeDirectory p with
  | ok made =>
    obtain ⟨new, hfree, hput, hfind⟩ := makeDirectory_ok hm
    have hsame := (hput ▸ grows_put hfree : Grows t made).find h
    rw [hfind, Except.ok.injEq, Prod.mk.injEq] at hsame
    rw [hsame.1, (find_ok.mp h).2.2] at hfree
    cases hfree
  | error cause =>
    refine ⟨cause, rfl, ?_⟩
    obtain ⟨q, hq⟩ := exists_place h
    rw [makeDirectory, (find_ok.mp h).1, hq] at hm
    dsimp only at hm
    split_ifs at hm
    · cases hm
      simp
    · cases hm
      simp
    · split at hm
      · cases hm
        simp
      · cases hm

/-- Making a directory that is there changes nothing. -/
theorem makeDirectories_of_hasDirectory (h : t.hasDirectory p = true) :
    t.makeDirectories p = (t, .ok ()) := by
  obtain ⟨location, hf⟩ := hasDirectory_iff.mp h
  obtain ⟨cause, hm, hcause⟩ := makeDirectory_of_find hf
  obtain ⟨above, hchain⟩ : ∃ above, p.ancestors = p :: above := by
    rw [Path.ancestors, Path.ancestorsWithin]
    cases p.parent? with
    | none => exact ⟨[], rfl⟩
    | some q => exact ⟨_, rfl⟩
  rw [makeDirectories, hchain, makeChain, hm]
  by_cases hempty : p.text.isEmpty = true
  · rw [if_pos hempty]
  · rw [if_neg hempty]
    cases cause with
    | notFound => exact absurd rfl hcause
    | _ => exact if_pos h

end Making

end FileTree

namespace Script

open FileTree

variable {t : FileTree} {w : Path × Bytes} {writes : List (Path × Bytes)} {location : Location}

def attempt (t : FileTree) (w : Path × Bytes) : FileTree :=
  ((t.destination? w.1).map fun location => t.store location w.2).getD t

theorem attempt_none (h : t.destination? w.1 = none) : attempt t w = t := by
  simp [attempt, h]

theorem attempt_some (h : t.destination? w.1 = some location) : attempt t w = t.store location w.2 := by
  simp [attempt, h]

theorem writeAll_eq (t : FileTree) (writes : List (Path × Bytes)) :
    writeAll t writes = writes.foldl attempt t := by
  rw [writeAll]
  congr 1
  funext t w
  have hwrite := toOption_write t w.1 w.2
  rw [attempt, ← hwrite]
  cases t.write w.1 w.2 <;> rfl

theorem sameDirectories_attempt (t : FileTree) (w : Path × Bytes) : SameDirectories t (attempt t w) := by
  cases h : t.destination? w.1 with
  | none =>
    rw [attempt_none h]
    exact .refl t
  | some location =>
    rw [attempt_some h]
    exact sameDirectories_store (destination_free h) w.2

/-- Writing files makes no directory and removes none. -/
theorem sameDirectories_writeAll (t : FileTree) (writes : List (Path × Bytes)) :
    SameDirectories t (writeAll t writes) := by
  rw [writeAll_eq]
  induction writes generalizing t with
  | nil => exact .refl t
  | cons w rest ih => exact (sameDirectories_attempt t w).trans (ih (attempt t w))

/-- Writing files changes nothing but what stands where one of them can be written. -/
theorem entryAt?_writeAll (h : ∀ w ∈ writes, t.destination? w.1 ≠ some location) :
    (writeAll t writes).entryAt? location = t.entryAt? location := by
  rw [writeAll_eq]
  induction writes generalizing t with
  | nil => rfl
  | cons w rest ih =>
    obtain ⟨hw, hrest⟩ := List.forall_mem_cons.mp h
    have hfirst : (attempt t w).entryAt? location = t.entryAt? location := by
      cases hd : t.destination? w.1 with
      | none => rw [attempt_none hd]
      | some other =>
        rw [attempt_some hd]
        apply entryAt?_store_ne
        rintro rfl
        exact hw hd
    rw [List.foldl_cons, ← hfirst]
    apply ih
    intro v hv
    rw [(sameDirectories_attempt t w).destination]
    exact hrest v hv

theorem isSome_attempt (w : Path × Bytes) (h : (t.entryAt? location).isSome = true) :
    ((attempt t w).entryAt? location).isSome = true := by
  cases hd : t.destination? w.1 with
  | none => rwa [attempt_none hd]
  | some other =>
    rw [attempt_some hd]
    exact isSome_put (destination_free hd) h

theorem isSome_foldl (writes : List (Path × Bytes)) (h : (t.entryAt? location).isSome = true) :
    ((writes.foldl attempt t).entryAt? location).isSome = true := by
  induction writes generalizing t with
  | nil => exact h
  | cons w rest ih => exact ih (isSome_attempt w h)

/-- A tree that already holds a file wherever one of some files can be written. -/
def Holds (t : FileTree) (writes : List (Path × Bytes)) : Prop :=
  ∀ w ∈ writes, ∀ location, t.destination? w.1 = some location → (t.entryAt? location).isSome = true

theorem Holds.store (h : Holds t writes) (hl : t.entryAt? location ≠ some .directory) (content : Bytes) :
    Holds (t.store location content) writes := by
  intro w hw other hd
  rw [(sameDirectories_store hl content).destination] at hd
  exact isSome_put hl (h w hw other hd)

theorem holds_writeAll (t : FileTree) (writes : List (Path × Bytes)) :
    Holds (writes.foldl attempt t) writes := by
  induction writes generalizing t with
  | nil =>
    intro w hw
    cases hw
  | cons w rest ih =>
    intro v hv location hd
    rcases List.mem_cons.mp hv with rfl | hv
    · have hlater := sameDirectories_writeAll t (v :: rest)
      rw [writeAll_eq] at hlater
      rw [hlater.destination] at hd
      apply isSome_foldl rest
      rw [attempt_some hd, entryAt?_store_self (destination_free hd)]
      rfl
    · exact ih (attempt t w) v hv location hd

/-- A file that is stored in the end may have been stored before the others, too. -/
theorem foldl_store (h : Holds t writes) (hl : t.entryAt? location ≠ some .directory)
    (content : Bytes) :
    (writes.foldl attempt (t.store location content)).store location content =
      (writes.foldl attempt t).store location content := by
  induction writes generalizing t with
  | nil => exact store_store hl content content
  | cons w rest ih =>
    have hrest : Holds t rest := fun v hv => h v (List.mem_cons_of_mem w hv)
    have hdest := (sameDirectories_store hl content).destination w.1
    rw [List.foldl_cons, List.foldl_cons]
    cases hd : t.destination? w.1 with
    | none =>
      rw [attempt_none hd, attempt_none (hdest.trans hd)]
      exact ih hrest hl
    | some other =>
      have hfree := destination_free hd
      rw [attempt_some hd, attempt_some (hdest.trans hd)]
      by_cases he : location = other
      · -- the file of the location is replaced at once
        rw [← he, store_store hl]
      · rw [store_comm he hl hfree (h w List.mem_cons_self other hd)]
        apply ih (hrest.store hfree w.2)
        rwa [entryAt?_store_ne he]

/-- Files that were written can be written again without any change. -/
theorem writeAll_writeAll (t : FileTree) (writes : List (Path × Bytes)) :
    writeAll (writeAll t writes) writes = writeAll t writes := by
  simp only [writeAll_eq]
  induction writes using List.reverseRecOn with
  | nil => rfl
  | append_singleton front w ih =>
    rw [List.foldl_concat, List.foldl_concat]
    cases hd : (front.foldl attempt t).destination? w.1 with
    | none =>
      rw [attempt_none hd, ih, attempt_none hd]
    | some location =>
      have hfree := destination_free hd
      -- the last file is stored at the same location in both rounds
      have hlater : (front.foldl attempt ((front.foldl attempt t).store location w.2)).destination? w.1 =
          some location := by
        have hsame := sameDirectories_writeAll ((front.foldl attempt t).store location w.2) front
        rw [writeAll_eq] at hsame
        rw [hsame.destination, (sameDirectories_store hfree w.2).destination, hd]
      rw [attempt_some hd, attempt_some hlater, foldl_store (holds_writeAll t front) hfree, ih]

end Script

end Assay
