import Mathlib.Data.Rat.Floor
import Assay.Proofs.Decimal.Distance

namespace Assay.Decimal

/-- The whole number nearest to a value; a half goes away from zero. -/
def awayFromZero (q : ℚ) : Int :=
  if 0 ≤ q then ⌊q + 1 / 2⌋ else ⌈q - 1 / 2⌉

variable {x : Float} {q : ℚ} {low high : Int}

theorem awayFromZero_neg (h : 0 ≤ q) : awayFromZero (-q) = -awayFromZero q := by
  rcases h.eq_or_lt with rfl | hpos
  · norm_num [awayFromZero]
  · have hneg : ¬(0 : ℚ) ≤ -q := not_le.mpr (neg_lt_zero.mpr hpos)
    rw [awayFromZero, awayFromZero, if_neg hneg, if_pos h, ← Int.ceil_neg, neg_add, sub_eq_add_neg]

theorem nearestMagnitude_eq (m : Nat) (e : Int) :
    (nearestMagnitude m e : Int) = ⌊(m : ℚ) * 2 ^ e + 1 / 2⌋ := by
  rw [nearestMagnitude]
  split_ifs with he
  · obtain ⟨k, rfl⟩ := Int.eq_ofNat_of_zero_le he
    have hhalf : ⌊((m * 2 ^ k : Nat) : ℚ) + 1 / 2⌋ = ((m * 2 ^ k : Nat) : Int) := by
      rw [Int.floor_natCast_add]
      norm_num
    simpa using hhalf.symm
  · obtain ⟨k, hk⟩ := Int.eq_ofNat_of_zero_le (show 0 ≤ -e by omega)
    have hquotient : (m : ℚ) * 2 ^ e + 1 / 2 = ((2 * m + 2 ^ k : Nat) : ℚ) / ((2 * 2 ^ k : Nat) : ℚ) := by
      rw [show e = -(k : Int) by omega, zpow_neg, zpow_natCast]
      push_cast
      field_simp
    rw [hquotient, Rat.floor_natCast_div_natCast, hk]
    rfl

theorem awayFromZero_signed (negative : Bool) (m : Nat) (e : Int) :
    awayFromZero (signed negative m * 2 ^ e) = signed negative (nearestMagnitude m e) := by
  have hmagnitude : (0 : ℚ) ≤ m * 2 ^ e := by positivity
  have hnearest : awayFromZero (m * 2 ^ e) = nearestMagnitude m e := by
    rw [awayFromZero, if_pos hmagnitude, nearestMagnitude_eq]
  cases negative with
  | false => simpa [signed] using hnearest
  | true => simpa [signed, awayFromZero_neg hmagnitude] using hnearest

/-- A finite number is rounded as its value is. -/
theorem nearestTo_eq (h : value? x = some q) : nearestTo low high x = clamp low high (awayFromZero q) := by
  obtain ⟨negative, m, e, hx, rfl⟩ := value?_eq_some h
  rw [nearestTo, hx, awayFromZero_signed]

/-- What has no value becomes zero or the end of the range that it is beyond. -/
theorem nearestTo_of_value?_eq_none (hnumber : x.isNaN = false) (h : value? x = none) :
    nearestTo low high x = low ∨ nearestTo low high x = high := by
  rw [nearestTo]
  rw [value?] at h
  cases hx : Binary.ofFloat x with
  | nan => exact absurd (isNaN_iff.mpr hx) (Bool.eq_false_iff.mp hnumber)
  | infinite negative => cases negative <;> simp
  | finite negative m e => simp [hx] at h

end Assay.Decimal
