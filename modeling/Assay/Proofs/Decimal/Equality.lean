import Mathlib
import Assay.Proofs.Decimal.Bits

namespace Assay.Decimal

open Float.Model

def IsZero (x : Float) : Prop :=
  x = 0.0 ∨ x = -0.0

/-- Whether two numbers are equal: both are numbers, and they are the same up to the sign of a zero. -/
def Equal (x y : Float) : Prop :=
  x.isNaN = false ∧ (x = y ∨ IsZero x ∧ IsZero y)

theorem unpack_injective {x y : Float} (h : x.toModel.unpack = y.toModel.unpack) : x = y := by
  have hx : UnpackedFloat.pack wide x.toModel.unpack = x.toModel.toBits.toBitVec :=
    pack_unpack x.toModel.valid
  have hy : UnpackedFloat.pack wide y.toModel.unpack = y.toModel.toBits.toBitVec :=
    pack_unpack y.toModel.valid
  apply toModel_injective
  apply UInt64.toBitVec_inj.mp
  rw [← hx, ← hy, h]

theorem unpack_eq_nan_iff {x : Float} : x.toModel.unpack = .notANumber ↔ x.isNaN = true := by
  have h : x.isNaN = x.toModel.unpack.isNaN := rfl
  rw [h]
  cases x.toModel.unpack <;> simp [UnpackedFloat.isNaN]

theorem unpack_zero : (0.0 : Float).toModel.unpack = .zero .positive := by
  rw [unpack_toModel, show Binary.ofFloat 0.0 = .finite false 0 (-1074) by decide +kernel]
  rfl

theorem isZero_iff {x : Float} : IsZero x ↔ ∃ sign, x.toModel.unpack = .zero sign := by
  have hminus : (-0.0 : Float).toModel.unpack = .zero .negative := by
    rw [unpack_toModel, show Binary.ofFloat (-0.0) = .finite true 0 (-1074) by decide +kernel]
    rfl
  constructor
  · rintro (rfl | rfl)
    · exact ⟨_, unpack_zero⟩
    · exact ⟨_, hminus⟩
  · rintro ⟨sign, h⟩
    cases sign with
    | positive => exact .inl (unpack_injective (h.trans unpack_zero.symm))
    | negative => exact .inr (unpack_injective (h.trans hminus.symm))

/-- Two unpacked numbers compare as equal when they are numbers and the same, or both are zeros. -/
theorem compare_eq_iff {u v : UnpackedFloat} :
    UnpackedFloat.compare u v = some .eq ↔
      u ≠ .notANumber ∧ (u = v ∨ (∃ sign, u = .zero sign) ∧ ∃ sign, v = .zero sign) := by
  -- the comparison looks at the forms first and at signs only within equal forms
  cases u with
  | notANumber => simp [UnpackedFloat.compare]
  | infinity s =>
    cases v with
    | infinity s' => cases s <;> cases s' <;> simp [UnpackedFloat.compare] <;> decide
    | notANumber | zero | finite => cases s <;> simp [UnpackedFloat.compare]
  | zero s =>
    cases v with
    | notANumber | zero => simp [UnpackedFloat.compare]
    | infinity s' => cases s' <;> simp [UnpackedFloat.compare]
    | finite s' => cases s' <;> simp [UnpackedFloat.compare]
  | finite s m e =>
    cases v with
    | notANumber => simp [UnpackedFloat.compare]
    | zero => cases s <;> simp [UnpackedFloat.compare]
    | infinity s' => cases s' <;> simp [UnpackedFloat.compare]
    | finite s' =>
      cases s <;> cases s' <;> simp [UnpackedFloat.compare, Ordering.then_eq_eq, and_comm]

theorem beq_iff {x y : Float} : (x == y) = true ↔ Equal x y := by
  have h : (x == y) = (UnpackedFloat.compare x.toModel.unpack y.toModel.unpack == some .eq) := rfl
  rw [h, beq_iff_eq, compare_eq_iff, Equal, isZero_iff, isZero_iff, ne_eq, unpack_eq_nan_iff,
    Bool.not_eq_true]
  refine and_congr_right fun _ => or_congr_left ⟨unpack_injective, ?_⟩
  rintro rfl
  rfl

/-- A value is equal to itself exactly when it is a number. -/
theorem equal_self {x : Float} : Equal x x ↔ x.isNaN = false :=
  and_iff_left (.inl rfl)

/-- No distance from what is no number is within a bound. -/
theorem not_distance_le {x : Float} (h : x.isNaN = true) (y bound : Float) :
    ¬(x - y).abs ≤ bound := by
  have hpacked : (Float.Model.pack .notANumber).unpack = .notANumber := rfl
  have hsub : (x - y).toModel.unpack = .notANumber := by
    have heq : (x - y).toModel =
        Float.Model.pack (UnpackedFloat.sub wide x.toModel.unpack y.toModel.unpack) := rfl
    rw [heq, unpack_eq_nan_iff.mpr h]
    exact hpacked
  have hnan : (x - y).abs.toModel.unpack = .notANumber := by
    have heq : (x - y).abs.toModel = Float.Model.pack (x - y).toModel.unpack.abs := rfl
    rw [heq, hsub]
    exact hpacked
  intro hle
  have hcompare : (x - y).abs.toModel.unpack.le bound.toModel.unpack = true := of_decide_eq_true hle
  rw [hnan] at hcompare
  cases hcompare

end Assay.Decimal
