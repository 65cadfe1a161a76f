import Mathlib.Data.List.Infix
import Mathlib.Order.Bounds.Basic
import Assay.Comparison.Files

namespace Assay.Comparison

section CommonLength

variable {a b : Bytes} {n : Nat}

@[simp] theorem commonLength_nil (b : Bytes) : commonLength [] b = 0 := rfl

@[simp] theorem commonLength_cons_nil (x : UInt8) (a : Bytes) : commonLength (x :: a) [] = 0 := rfl

theorem commonLength_cons_self (x : UInt8) (a b : Bytes) :
    commonLength (x :: a) (x :: b) = commonLength a b + 1 := by
  rw [commonLength, List.zip_cons_cons, List.takeWhile_cons_of_pos (by simp), List.length_cons, commonLength]

theorem commonLength_cons_ne {x y : UInt8} (h : x ≠ y) (a b : Bytes) :
    commonLength (x :: a) (y :: b) = 0 := by
  rw [commonLength, List.zip_cons_cons, List.takeWhile_cons_of_neg (by simpa using h), List.length_nil]

/-- Two sequences agree up to the common length. -/
theorem take_commonLength (a b : Bytes) : a.take (commonLength a b) = b.take (commonLength a b) := by
  induction a generalizing b with
  | nil => simp
  | cons x a ih =>
    cases b with
    | nil => simp
    | cons y b =>
      by_cases h : x = y
      · rw [h, commonLength_cons_self, List.take_succ_cons, List.take_succ_cons, ih]
      · rw [commonLength_cons_ne h, List.take_zero, List.take_zero]

/-- Different sequences do not agree any further. -/
theorem le_commonLength (hne : a ≠ b) (h : a.take n = b.take n) : n ≤ commonLength a b := by
  induction a generalizing b n with
  | nil =>
    rw [List.take_nil, eq_comm, List.take_eq_nil_iff] at h
    rcases h with h | h
    · exact h.le
    · exact absurd h.symm hne
  | cons x a ih =>
    cases n with
    | zero => exact Nat.zero_le _
    | succ n =>
      cases b with
      | nil => simp at h
      | cons y b =>
        rw [List.take_succ_cons, List.take_succ_cons, List.cons.injEq] at h
        obtain ⟨rfl, hrest⟩ := h
        have hrest := ih (fun he => hne (he ▸ rfl)) hrest
        rw [commonLength_cons_self]
        omega

theorem isGreatest_commonLength (hne : a ≠ b) :
    IsGreatest {n | a.take n = b.take n} (commonLength a b) :=
  ⟨take_commonLength a b, fun _ h => le_commonLength hne h⟩

theorem commonLength_comm (hne : a ≠ b) : commonLength a b = commonLength b a := by
  have hswap := isGreatest_commonLength hne.symm
  simp only [eq_comm (a := b.take _)] at hswap
  exact (isGreatest_commonLength hne).unique hswap

/-- Sequences that agree up to a place beyond the end of one of them are equal. -/
theorem le_length_of_take_eq (hne : a ≠ b) (h : a.take n = b.take n) : n ≤ min a.length b.length := by
  by_contra hlt
  apply hne
  have hlength := congrArg List.length h
  rw [List.length_take, List.length_take] at hlength
  rwa [List.take_of_length_le (by omega), List.take_of_length_le (by omega)] at h

/-- The shorter sequence is all in common exactly when it starts the other one. -/
theorem commonLength_eq_min (hne : a ≠ b) :
    commonLength a b = min a.length b.length ↔ a <+: b ∨ b <+: a := by
  have htake := take_commonLength a b
  have hle := le_length_of_take_eq hne htake
  constructor
  · intro h
    rw [h] at htake
    rcases Nat.le_total a.length b.length with hlength | hlength
    · rw [Nat.min_eq_left hlength, List.take_length] at htake
      exact .inl (htake ▸ List.take_prefix _ _)
    · rw [Nat.min_eq_right hlength, List.take_length] at htake
      exact .inr (htake ▸ List.take_prefix _ _)
  · rintro (h | h)
    · have hmax := le_commonLength (n := a.length) hne (by rw [List.take_length, ← List.prefix_iff_eq_take.mp h])
      omega
    · have hmax := le_commonLength (n := b.length) hne (by rw [List.take_length, ← List.prefix_iff_eq_take.mp h])
      omega

end CommonLength

def differText (place actual expected : Nat) : String :=
  s!"files differ at byte {place} " ++ s!"(actual {actual} bytes, expected {expected} bytes)"

theorem sameBytes_self (check : String) (a : Bytes) : sameBytes check a a = .pass :=
  if_pos (beq_self_eq_true a)

theorem sameBytes_of_ne (check : String) {a b : Bytes} (hne : a ≠ b) :
    sameBytes check a b = .fail ⟨check, differText (commonLength a b) a.length b.length⟩ :=
  if_neg (by simpa using hne)

/-- Two byte sequences are accepted exactly when they are equal. Of different ones the length of the longest common
start is told, the same in both directions and with both lengths in the order of the sequences. It ends with the
shorter sequence exactly when the longer one continues it. -/
theorem sameBytes_exact (check : String) (a b : Bytes) :
    ((sameBytes check a b).isPass = true ↔ a = b) ∧
    (a ≠ b → ∃ place, IsGreatest {n | a.take n = b.take n} place ∧
      sameBytes check a b = .fail ⟨check, differText place a.length b.length⟩ ∧
      sameBytes check b a = .fail ⟨check, differText place b.length a.length⟩ ∧
      place ≤ min a.length b.length ∧ (place = min a.length b.length ↔ a <+: b ∨ b <+: a)) := by
  constructor
  · constructor
    · intro hpass
      by_contra hne
      rw [sameBytes_of_ne check hne] at hpass
      cases hpass
    · rintro rfl
      rw [sameBytes_self]
      rfl
  · intro hne
    have hback := sameBytes_of_ne check hne.symm
    rw [← commonLength_comm hne] at hback
    exact ⟨commonLength a b, isGreatest_commonLength hne, sameBytes_of_ne check hne, hback,
      le_length_of_take_eq hne (take_commonLength a b), commonLength_eq_min hne⟩

/-- A carriage return in front of the line feed is a difference, and is told at its own place. -/
theorem sameBytes_exact_return :
    ∃ place, IsGreatest {n | [49, 32, 50, 13, 10].take n = ([49, 32, 50, 10] : Bytes).take n} place ∧
      differText place 5 4 = "files differ at byte 3 (actual 5 bytes, expected 4 bytes)" := by
  obtain ⟨place, hplace, htext, -⟩ :=
    (sameBytes_exact "points" [49, 32, 50, 13, 10] [49, 32, 50, 10]).2 (by decide)
  have hrun : sameBytes "points" [49, 32, 50, 13, 10] [49, 32, 50, 10] =
      .fail ⟨"points", "files differ at byte 3 (actual 5 bytes, expected 4 bytes)"⟩ := by
    decide +kernel
  refine ⟨place, hplace, ?_⟩
  rw [hrun, Verdict.fail.injEq, Mismatch.mk.injEq] at htext
  exact htext.2.symm

end Assay.Comparison
