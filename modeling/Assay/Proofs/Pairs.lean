import Mathlib.Data.List.Nodup
import Mathlib.Data.List.Perm.Basic

namespace Assay

variable {α β : Type} [BEq α] [LawfulBEq α] {xs ys : List (α × β)} {key : α} {value : β}
  {x : α × β}

theorem isSome_lookup : (xs.lookup key).isSome = true ↔ key ∈ xs.map Prod.fst := by
  rw [List.lookup_isSome_iff, List.mem_map]
  constructor
  · rintro ⟨x, hm, hkey⟩
    exact ⟨x, hm, (eq_of_beq hkey).symm⟩
  · rintro ⟨x, hm, rfl⟩
    exact ⟨x, hm, beq_self_eq_true x.1⟩

theorem lookup_of_mem (hnodup : (xs.map Prod.fst).Nodup) (hm : (key, value) ∈ xs) :
    xs.lookup key = some value := by
  induction xs with
  | nil => cases hm
  | cons x rest ih =>
    rw [List.map_cons, List.nodup_cons] at hnodup
    rcases List.mem_cons.mp hm with rfl | hm
    · exact List.lookup_cons_self
    · have hne : (key == x.1) = false := by
        rw [beq_eq_false_iff_ne]
        rintro rfl
        exact hnodup.1 (List.mem_map.mpr ⟨_, hm, rfl⟩)
      rw [List.lookup_cons, hne]
      exact ih hnodup.2 hm

theorem lookup_perm (h : xs.Perm ys) (hnodup : (xs.map Prod.fst).Nodup) (key : α) :
    xs.lookup key = ys.lookup key := by
  induction h with
  | nil => rfl
  | cons x _ ih =>
    rw [List.map_cons, List.nodup_cons] at hnodup
    rw [List.lookup_cons, List.lookup_cons, ih hnodup.2]
  | swap x other rest =>
    rw [List.map_cons, List.map_cons, List.nodup_cons, List.mem_cons, not_or] at hnodup
    rw [List.lookup_cons, List.lookup_cons, List.lookup_cons, List.lookup_cons]
    cases hother : key == other.1 with
    | false => rfl
    | true =>
      have hkey : (key == x.1) = false := by
        rw [eq_of_beq hother, beq_eq_false_iff_ne]
        exact hnodup.1.1
      rw [hkey]
  | trans first _ ih ih' =>
    exact (ih hnodup).trans (ih' ((first.map Prod.fst).nodup_iff.mp hnodup))

/-- A look-up sees only the entries of some keys that hold its own. -/
theorem lookup_filter (keep : α → Bool) (h : keep key = true) (xs : List (α × β)) :
    (xs.filter fun x => keep x.1).lookup key = xs.lookup key := by
  induction xs with
  | nil => rfl
  | cons x rest ih =>
    rw [List.filter_cons]
    cases hx : keep x.1 with
    | true => rw [if_pos rfl, List.lookup_cons, List.lookup_cons, ih]
    | false =>
      have hne : (key == x.1) = false := by
        rw [beq_eq_false_iff_ne]
        rintro rfl
        simp [hx] at h
      rw [if_neg Bool.false_ne_true, List.lookup_cons, hne, ih]

theorem lookup_append_cons {front back : List (α × β)} (h : key ≠ x.1) :
    (front ++ x :: back).lookup key = (front ++ back).lookup key := by
  have hne : (key == x.1) = false := beq_eq_false_iff_ne.mpr h
  rw [List.lookup_append, List.lookup_cons, hne, List.lookup_append]

end Assay
