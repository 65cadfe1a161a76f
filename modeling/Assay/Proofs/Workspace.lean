import Assay.Proofs.Run.Steps
import Assay.Workspace

namespace Assay

namespace Workspace
open Run

/-- Making a directory succeeds exactly when the tree can make it. -/
theorem make_ok {directory : Path} {t left : FileTree} :
    onTree (make directory) t = (.ok (), left) ↔ t.makeDirectories directory = (left, .ok ()) := by
  unfold make
  rw [onTree_bind, onTree_get]
  cases h : t.makeDirectories directory with
  | mk made result => cases result <;> simp [h, onTree_bind]

theorem enter_ok {c : Configuration} {name : String} {w : Workspace} {t left : FileTree} :
    onTree (enter c name) t = (.ok w, left) ↔
      isName name = true ∧ w = ⟨c, c.outputRoot.join ⟨name⟩⟩ ∧
        t.makeDirectories (c.outputRoot.join ⟨name⟩) = (left, .ok ()) := by
  unfold enter
  cases isName name with
  | false => simp
  | true =>
    constructor
    · intro h
      obtain ⟨_, there, hm, hp⟩ := bind_ok.mp h
      cases hp
      exact ⟨rfl, rfl, make_ok.mp hm⟩
    · rintro ⟨_, rfl, hm⟩
      exact bind_ok.mpr ⟨(), left, make_ok.mpr hm, rfl⟩

theorem subdirectory_ok {w : Workspace} {relative : String} {p : Path} {t left : FileTree} :
    onTree (w.subdirectory relative) t = (.ok p, left) ↔
      staysInside ⟨relative⟩ = true ∧ p = w.directory.join ⟨relative⟩ ∧
        t.makeDirectories (w.directory.join ⟨relative⟩) = (left, .ok ()) := by
  unfold subdirectory
  cases staysInside ⟨relative⟩ with
  | false => simp
  | true =>
    constructor
    · intro h
      obtain ⟨_, there, hm, hp⟩ := bind_ok.mp h
      cases hp
      exact ⟨rfl, rfl, make_ok.mp hm⟩
    · rintro ⟨_, rfl, hm⟩
      exact bind_ok.mpr ⟨(), left, make_ok.mpr hm, rfl⟩

/-- The making of directories one after another, each in the tree that the one before left. -/
inductive MakesAll : FileTree → List Path → FileTree → Prop where
  | nil (t : FileTree) : MakesAll t [] t
  | cons {t made left : FileTree} {p : Path} {rest : List Path}
      (first : t.makeDirectories p = (made, .ok ())) (others : MakesAll made rest left) :
      MakesAll t (p :: rest) left

theorem makesAll_cons {t left : FileTree} {p : Path} {rest : List Path} :
    MakesAll t (p :: rest) left ↔
      ∃ made, t.makeDirectories p = (made, .ok ()) ∧ MakesAll made rest left := by
  constructor
  · intro h
    cases h with
    | cons first others => exact ⟨_, first, others⟩
  · rintro ⟨made, first, others⟩
    exact .cons first others

theorem subdirectories_ok {w : Workspace} {relatives : List String} {t left : FileTree} :
    onTree (relatives.forM fun relative => do let _ ← w.subdirectory relative) t = (.ok (), left) ↔
      (∀ relative ∈ relatives, staysInside ⟨relative⟩ = true) ∧
        MakesAll t (relatives.map fun relative => w.directory.join ⟨relative⟩) left := by
  induction relatives generalizing t with
  | nil =>
    constructor
    · intro h
      cases h
      exact ⟨by simp, .nil _⟩
    · rintro ⟨_, h⟩
      cases h
      rfl
  | cons relative rest ih =>
    simp only [List.forall_mem_cons, List.map_cons, makesAll_cons]
    constructor
    · intro h
      obtain ⟨_, there, hs, hr⟩ := bind_ok.mp h
      obtain ⟨p, there', hs, hu⟩ := bind_ok.mp hs
      cases hu
      obtain ⟨hin, _, hm⟩ := subdirectory_ok.mp hs
      obtain ⟨hall, hmade⟩ := ih.mp hr
      exact ⟨⟨hin, hall⟩, there, hm, hmade⟩
    · rintro ⟨⟨hin, hall⟩, made, hm, hmade⟩
      refine bind_ok.mpr ⟨(), made, ?_, ih.mpr ⟨hall, hmade⟩⟩
      exact bind_ok.mpr ⟨_, made, subdirectory_ok.mpr ⟨hin, rfl, hm⟩, rfl⟩

end Workspace

end Assay
