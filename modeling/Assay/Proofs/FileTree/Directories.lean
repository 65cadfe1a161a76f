import Assay.Proofs.FileTree

namespace Assay.FileTree

open Assay.Path (isIdle)

/-- A tree that keeps all entries of another. -/
structure Grows (t t' : FileTree) : Prop where
  start : t'.workingDirectory = t.workingDirectory
  kept : ∀ location e, t.entryAt? location = some e → t'.entryAt? location = some e

variable {t made left : FileTree} {here there location : Location} {p q : Path}

theorem Grows.refl (t : FileTree) : Grows t t :=
  ⟨rfl, fun _ _ h => h⟩

theorem Grows.trans (h : Grows t made) (h' : Grows made left) : Grows t left :=
  ⟨h'.start.trans h.start, fun location e he => h'.kept location e (h.kept location e he)⟩

section Finding

variable {way : List (List Char)} {part : List Char}

theorem Grows.step (h : Grows t made) (hs : t.step here part = .ok there) :
    made.step here part = .ok there := by
  have hd := directory_of_step hs
  rw [FileTree.step, hd] at hs
  rw [FileTree.step, h.kept here _ hd]
  dsimp only at hs ⊢
  split_ifs at hs ⊢ with hidle hback hlong hnew hold hold
  · exact hs
  · exact hs
  · exact hs
  · obtain ⟨e, he⟩ := Option.isSome_iff_exists.mp hold
    exact absurd (Option.isSome_iff_exists.mpr ⟨e, h.kept _ e he⟩) hnew

/-- A way that leads somewhere leads there in a tree that has grown. -/
theorem Grows.walk (h : Grows t made) (hw : t.walk here way = .ok there) :
    made.walk here way = .ok there := by
  induction way generalizing here with
  | nil => exact hw
  | cons part rest ih =>
    rw [walk_cons] at hw ⊢
    cases hs : t.step here part with
    | error c => simp [hs] at hw
    | ok next =>
      simp only [hs] at hw
      rw [h.step hs]
      exact ih hw

theorem Grows.find {e : Entry} (h : Grows t made) (hf : t.find p = .ok (location, e)) :
    made.find p = .ok (location, e) := by
  obtain ⟨hsound, hwalk, he⟩ := find_ok.mp hf
  have hstart : made.start p = t.start p := by rw [FileTree.start, FileTree.start, h.start]
  exact find_ok.mpr ⟨hsound, hstart ▸ h.walk hwalk, h.kept location e he⟩

end Finding

section Making

variable {part : List Char}

/-- A tree with another directory at a free location has grown. -/
theorem grows_put (h : t.entryAt? location = none) : Grows t (t.put location .directory) := by
  refine ⟨rfl, fun other e he => ?_⟩
  have hne : other ≠ location := by
    rintro rfl
    rw [h] at he
    cases he
  rw [entryAt?_put_ne hne, he]

theorem dropSlashes_split (parts : List (List Char)) :
    ∃ empty, parts = dropSlashes parts ++ empty ∧ ∀ part ∈ empty, part = [] := by
  refine ⟨(parts.reverse.takeWhile List.isEmpty).reverse, ?_, ?_⟩
  · rw [dropSlashes, ← List.reverse_append, List.takeWhile_append_dropWhile, List.reverse_reverse]
  · intro part hm
    exact List.isEmpty_iff.mp (List.mem_takeWhile_imp (List.mem_reverse.mp hm))

theorem walk_empty {empty : List (List Char)} (h : ∀ part ∈ empty, part = [])
    (hd : t.entryAt? here = some .directory) : t.walk here empty = .ok here := by
  induction empty with
  | nil => rfl
  | cons part rest ih =>
    rw [walk_cons, h part List.mem_cons_self, step_idle rfl hd]
    exact ih fun other hm => h other (List.mem_cons_of_mem part hm)

theorem step_name (hd : t.entryAt? here = some .directory) (hstep : isStep part = false)
    (hshort : Text.Utf8.size part ≤ longestName)
    (hthere : (t.entryAt? (below here part)).isSome = true) :
    t.step here part = .ok (below here part) := by
  rw [isStep, Bool.or_eq_false_iff, beq_eq_false_iff_ne] at hstep
  obtain ⟨hidle, hback⟩ := hstep
  rw [step, hd]
  dsimp only
  rw [if_neg (by rw [hidle]; exact Bool.false_ne_true), if_neg hback, if_neg (Nat.not_lt.mpr hshort)]
  exact if_pos hthere

/-- A directory that is made stands where nothing stood, and its path leads to it. -/
theorem makeDirectory_ok (h : t.makeDirectory p = .ok made) :
    ∃ location, t.entryAt? location = none ∧ made = t.put location .directory ∧
      made.find p = .ok (location, .directory) := by
  rw [makeDirectory] at h
  cases hsound : pathFault? p with
  | some c => simp [hsound] at h
  | none =>
    simp only [hsound] at h
    cases hplace : t.place (t.start p) (dropSlashes (parts p)) with
    | error c => simp [hplace] at h
    | ok place =>
      simp only [hplace] at h
      split_ifs at h with hstep hlong
      cases he : t.entryAt? (place.directory ++ [String.ofList place.last]) with
      | some e => simp [he] at h
      | none =>
        simp only [he, Except.ok.injEq] at h
        obtain ⟨hwalk, hdirectory, hlast⟩ := place_ok hplace
        have hgrows : Grows t made := h ▸ grows_put he
        have hnew : made.entryAt? (below place.directory place.last) = some .directory := by
          rw [← h, below, entryAt?_put_self (by simp)]
        have hlast' : (dropSlashes (parts p)).getLast? = some place.last := by
          cases hl : (dropSlashes (parts p)).getLast? with
          | some last => rw [hlast, hl, Option.getD_some]
          | none =>
            rw [hl] at hlast
            exact absurd (hlast ▸ rfl : isStep place.last = true) hstep
        obtain ⟨empty, hsplit, hempty⟩ := dropSlashes_split (parts p)
        have hlaststep : made.step place.directory place.last = .ok (below place.directory place.last) :=
          step_name (hgrows.kept _ _ hdirectory) (by simpa using hstep) (Nat.not_lt.mp hlong)
            (by rw [hnew]; rfl)
        refine ⟨_, he, h.symm, find_ok.mpr ⟨hsound, ?_, hnew⟩⟩
        have hstart : made.start p = t.start p := by rw [start, start, hgrows.start]
        rw [hsplit, ← List.dropLast_append_getLast? _ hlast', walk_append, walk_append, hstart,
          hgrows.walk hwalk]
        dsimp only
        rw [walk_cons, hlaststep]
        exact walk_empty hempty hnew

/-- What making directories along some paths comes to: the tree grows, and what is new in it are directories
to which these paths lead. -/
structure Adds (paths : List Path) (t left : FileTree) : Prop where
  grows : Grows t left
  led : ∀ location, left.entryAt? location ≠ t.entryAt? location →
    ∃ q ∈ paths, left.find q = .ok (location, .directory)

theorem Adds.refl (paths : List Path) (t : FileTree) : Adds paths t t :=
  ⟨Grows.refl t, fun _ h => absurd rfl h⟩

variable {paths others : List Path}

theorem Adds.mono (h : Adds paths t left) (hsub : paths ⊆ others) : Adds others t left := by
  refine ⟨h.grows, fun location hnew => ?_⟩
  obtain ⟨q, hq, hfind⟩ := h.led location hnew
  exact ⟨q, hsub hq, hfind⟩

/-- One more directory is made. -/
theorem Adds.make (h : Adds paths t made) (hp : p ∈ paths) (hm : made.makeDirectory p = .ok left) :
    Adds paths t left := by
  obtain ⟨location, hfree, rfl, hfind⟩ := makeDirectory_ok hm
  have hgrows := grows_put hfree
  refine ⟨h.grows.trans hgrows, fun other hnew => ?_⟩
  by_cases he : other = location
  · rw [he]
    exact ⟨p, hp, hfind⟩
  · rw [entryAt?_put_ne he] at hnew
    obtain ⟨q, hq, hled⟩ := h.led other hnew
    exact ⟨q, hq, hgrows.find hled⟩

/-- Making the first of some directories, and before it those that are missing, adds nothing else. -/
theorem adds_makeChain (t : FileTree) (chain : List Path) : Adds chain t (t.makeChain chain).1 := by
  induction chain with
  | nil => exact Adds.refl _ t
  | cons p above ih =>
    have hhere : p ∈ p :: above := List.mem_cons_self
    have habove : Adds (p :: above) t (t.makeChain above).1 := ih.mono (List.subset_cons_self p above)
    rw [makeChain]
    by_cases hempty : p.text.isEmpty = true
    · rw [if_pos hempty]
      exact Adds.refl _ t
    · rw [if_neg hempty]
      cases hm : t.makeDirectory p with
      | ok made => exact (Adds.refl _ t).make hhere hm
      | error cause =>
        by_cases hmissing : cause = .notFound
        · -- the directories above are made first, and then this one in the tree that they leave
          rw [hmissing]
          rcases hc : t.makeChain above with ⟨made, result⟩
          rw [hc] at habove
          cases result with
          | error c => exact habove
          | ok _ =>
            cases hm' : made.makeDirectory p with
            | ok made' => simpa only [hm'] using habove.make hhere hm'
            | error c =>
              simp only [hm']
              split_ifs <;> exact habove
        · have hstays : Adds (p :: above) t (if t.hasDirectory p then (t, Except.ok ())
              else (t, Except.error cause)).1 := by
            split_ifs <;> exact Adds.refl _ t
          cases cause
          case notFound => exact absurd rfl hmissing
          all_goals exact hstays

theorem adds_makeDirectories (t : FileTree) (p : Path) :
    Adds p.ancestors t (t.makeDirectories p).1 :=
  adds_makeChain t p.ancestors

end Making

end Assay.FileTree
