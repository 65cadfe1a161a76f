import Assay.Proofs.Decimal.Distance

namespace Assay.Decimal

open Float.Model UnpackedFloat

section Levels

theorem compare_toLex {α β : Type} [LinearOrder α] [LinearOrder β] (a c : α) (b d : β) :
    compare (toLex (a, b)) (toLex (c, d)) = (compare a c).then (compare b d) := by
  rw [Prod.Lex.compare_def]
  rfl

theorem compare_neg_neg (a b : Int) : compare (-a) (-b) = (compare a b).swap := by
  have hanti : StrictAnti (Neg.neg : Int → Int) := fun _ _ => neg_lt_neg
  rw [← cmp_eq_compare, ← cmp_eq_compare, cmp_swap, hanti.cmp_map_eq]

theorem compare_natCast (m n : Nat) : compare (m : Int) (n : Int) = compare m n := by
  rw [← cmp_eq_compare, ← cmp_eq_compare, Nat.strictMono_cast.cmp_map_eq]

/-- Where an unpacked number stands among the others. -/
def rank : UnpackedFloat → Int ×ₗ Int ×ₗ Int
  | .notANumber | .zero _ => toLex (0, toLex (0, 0))
  | .infinity sign => toLex (sign.apply 2, toLex (0, 0))
  | .finite sign m e _ => toLex (sign.apply 1, toLex (sign.apply e, sign.apply m))

/-- Unpacked numbers compare by their ranks. -/
theorem compare_eq_rank {u v : UnpackedFloat} (hu : u ≠ .notANumber) (hv : v ≠ .notANumber) :
    UnpackedFloat.compare u v = some (compare (rank u) (rank v)) := by
  cases u with
  | notANumber => exact absurd rfl hu
  | infinity s =>
    cases v with
    | notANumber => exact absurd rfl hv
    | infinity s' => cases s <;> cases s' <;> rfl
    | zero s' => cases s <;> rfl
    | finite s' n u h => cases s <;> cases s' <;> rfl
  | zero s =>
    cases v with
    | notANumber => exact absurd rfl hv
    | infinity s' => cases s' <;> rfl
    | zero s' => rfl
    | finite s' n u h => cases s' <;> rfl
  | finite s m e h =>
    cases v with
    | notANumber => exact absurd rfl hv
    | infinity s' => cases s <;> cases s' <;> rfl
    | zero s' => cases s <;> rfl
    | finite s' n u h' =>
      -- of two negative numbers the larger one has the smaller exponent or mantissa
      rw [rank, rank, compare_toLex, compare_toLex]
      cases s <;> cases s'
      · simp only [Sign.apply, compare_neg_neg, compare_natCast, ← Ordering.swap_then]
        rfl
      · rfl
      · rfl
      · simp only [Sign.apply, compare_natCast]
        rfl

def level (x : Float) : Int ×ₗ Int ×ₗ Int :=
  rank x.toModel.unpack

variable {x y z : Float}

/-- Numbers compare by their levels, and nothing compares with what is no number. -/
theorem compare_unpack (x y : Float) : UnpackedFloat.compare x.toModel.unpack y.toModel.unpack =
    if x.isNaN || y.isNaN then none else some (compare (level x) (level y)) := by
  cases hx : x.isNaN with
  | true =>
    rw [unpack_eq_nan_iff.mpr hx]
    rfl
  | false =>
    cases hy : y.isNaN with
    | true =>
      rw [unpack_eq_nan_iff.mpr hy]
      cases x.toModel.unpack <;> rfl
    | false =>
      apply compare_eq_rank
      · rw [ne_eq, unpack_eq_nan_iff, hx]
        exact Bool.false_ne_true
      · rw [ne_eq, unpack_eq_nan_iff, hy]
        exact Bool.false_ne_true

theorem real_le_iff : x ≤ y ↔ x.isNaN = false ∧ y.isNaN = false ∧ level x ≤ level y := by
  have hle : x ≤ y ↔ (UnpackedFloat.compare x.toModel.unpack y.toModel.unpack).any (·.isLE) = true :=
    decide_eq_true_iff
  rw [hle, compare_unpack]
  cases x.isNaN <;> cases y.isNaN <;> simp [Ordering.isLE_iff_ne_gt, compare_le_iff_le]

theorem real_lt_iff : x < y ↔ x.isNaN = false ∧ y.isNaN = false ∧ level x < level y := by
  have hlt : x < y ↔ (UnpackedFloat.compare x.toModel.unpack y.toModel.unpack == some .lt) = true :=
    decide_eq_true_iff
  rw [hlt, compare_unpack]
  cases x.isNaN <;> cases y.isNaN <;> simp [compare_lt_iff_lt]

theorem real_beq_iff : (x == y) = true ↔ x.isNaN = false ∧ y.isNaN = false ∧ level x = level y := by
  have hbeq : (x == y) = (UnpackedFloat.compare x.toModel.unpack y.toModel.unpack == some .eq) := rfl
  rw [hbeq, compare_unpack]
  cases x.isNaN <;> cases y.isNaN <;> simp [compare_eq_iff_eq]

theorem real_beq_comm (x y : Float) : (x == y) = (y == x) := by
  rw [Bool.eq_iff_iff, real_beq_iff, real_beq_iff, eq_comm (a := level x), and_left_comm]

theorem real_le_refl (hx : x.isNaN = false) : x ≤ x :=
  real_le_iff.mpr ⟨hx, hx, le_refl _⟩

theorem real_le_of_lt (h : x < y) : x ≤ y := by
  obtain ⟨hx, hy, hlt⟩ := real_lt_iff.mp h
  exact real_le_iff.mpr ⟨hx, hy, hlt.le⟩

theorem real_le_trans (hxy : x ≤ y) (hyz : y ≤ z) : x ≤ z := by
  obtain ⟨hx, -, hle⟩ := real_le_iff.mp hxy
  obtain ⟨-, hz, hle'⟩ := real_le_iff.mp hyz
  exact real_le_iff.mpr ⟨hx, hz, hle.trans hle'⟩

/-- Of two numbers one is at most the other. -/
theorem real_le_of_not_lt (hx : x.isNaN = false) (hy : y.isNaN = false) (h : ¬x < y) : y ≤ x :=
  real_le_iff.mpr ⟨hy, hx, le_of_not_gt fun hlt => h (real_lt_iff.mpr ⟨hx, hy, hlt⟩)⟩

end Levels

section Magnitudes

/-- The forms in which numbers are unpacked. -/
inductive UnpackedForm : UnpackedFloat → Prop where
  | notANumber : UnpackedForm .notANumber
  | infinity (sign : Sign) : UnpackedForm (.infinity sign)
  | zero (sign : Sign) : UnpackedForm (.zero sign)
  | finite (sign : Sign) {m : Nat} {e : Int} (h : Canonical m e) : UnpackedForm (.finite sign m e h.pos)

theorem unpackedForm (x : Float) : UnpackedForm x.toModel.unpack := by
  rw [unpack_toModel]
  cases hb : Binary.ofFloat x with
  | nan => exact .notANumber
  | infinite negative => exact .infinity _
  | finite negative m e =>
    rw [unpacked]
    by_cases hm : m = 0
    · rw [dif_pos hm]
      exact .zero _
    · rw [dif_neg hm]
      exact .finite _ (canonical_of_ofFloat (Nat.pos_of_ne_zero hm) hb)

theorem unpack_pack_zero (sign : Sign) : (Float.Model.pack (.zero sign)).unpack = .zero sign := by
  change UnpackedFloat.unpack wide (UnpackedFloat.packedZero wide sign) = .zero sign
  rw [unpack_eq]
  cases sign <;> rfl

/-- A magnitude has the form of the number without its sign. -/
theorem unpack_abs (x : Float) : x.abs.toModel.unpack = x.toModel.unpack.abs := by
  have habs : x.abs.toModel.unpack = (Float.Model.pack x.toModel.unpack.abs).unpack := rfl
  have hform := unpackedForm x
  rw [habs]
  generalize x.toModel.unpack = u at hform
  cases hform with
  | notANumber => rfl
  | infinity sign => exact unpack_pack_infinity .positive
  | zero sign => exact unpack_pack_zero .positive
  | finite sign h => exact unpack_pack h .positive

/-- A magnitude that does not exceed zero is zero. -/
theorem magnitude_eq_zero {x : Float} (h : x.abs ≤ 0.0) : x.abs = 0.0 := by
  obtain ⟨hnumber, -, hle⟩ := real_le_iff.mp h
  apply unpack_injective
  rw [← Bool.not_eq_true, ← unpack_eq_nan_iff, unpack_abs] at hnumber
  rw [level, level, unpack_zero, unpack_abs] at hle
  rw [unpack_zero, unpack_abs]
  have hform := unpackedForm x
  generalize x.toModel.unpack = u at hform hnumber hle
  cases hform with
  | notANumber => exact absurd rfl hnumber
  | infinity sign => exact absurd (Prod.Lex.toLex_le_toLex.mp hle) (by simp [Sign.apply])
  | zero sign => rfl
  | finite sign h => exact absurd (Prod.Lex.toLex_le_toLex.mp hle) (by simp [Sign.apply])

/-- Two unpacked results that differ in their signs only. -/
inductive SameSize : UnpackedFloat → UnpackedFloat → Prop where
  | notANumber : SameSize .notANumber .notANumber
  | infinity (s s' : Sign) : SameSize (.infinity s) (.infinity s')
  | zero (s s' : Sign) : SameSize (.zero s) (.zero s')
  | finite (s s' : Sign) {m : Nat} {e : Int} (h : Rounded m e) :
    SameSize (.finite s m e h.pos) (.finite s' m e h.pos)

/-- Results that differ in their signs only are packed as numbers of the same magnitude. -/
theorem SameSize.abs_pack {u v : UnpackedFloat} (h : SameSize u v) :
    (Float.Model.pack u).unpack.abs = (Float.Model.pack v).unpack.abs := by
  cases h with
  | notANumber => rfl
  | infinity s s' =>
    rw [unpack_pack_infinity, unpack_pack_infinity]
    rfl
  | zero s s' =>
    rw [unpack_pack_zero, unpack_pack_zero]
    rfl
  | @finite s s' m e h =>
    rcases le_or_gt e 971 with htop | htop
    · rw [unpack_pack (h.canonical htop), unpack_pack (h.canonical htop)]
      rfl
    · rw [unpack_pack_large h.pos htop, unpack_pack_large h.pos htop]
      rfl

variable {m n : Nat} {e u : Int}

/-- Rounding does not look at the sign. -/
theorem round_sign {sign : Sign} {hpos : 0 < n}
    (h : UnpackedFloat.round wide sign m e = .finite sign n u hpos) (other : Sign) :
    UnpackedFloat.round wide other m e = .finite other n u hpos := by
  simp only [UnpackedFloat.round, roundWithAccuracy] at h ⊢
  split_ifs at h ⊢ with hzero
  cases h
  rfl

theorem sameSize_round (hm : 0 < m) (he : -1074 ≤ e) (s s' : Sign) :
    SameSize (UnpackedFloat.round wide s m e) (UnpackedFloat.round wide s' m e) := by
  obtain ⟨n, u, hpos, hround, hrounded⟩ := exists_round s hm he
  rw [hround, round_sign hround s']
  exact .finite s s' hrounded

theorem sameSize_normalize (k : Int) (he : -1074 ≤ e) (zeroSign : Sign) :
    SameSize (UnpackedFloat.normalize wide k e zeroSign) (UnpackedFloat.normalize wide (-k) e zeroSign) := by
  rcases lt_trichotomy k 0 with hk | rfl | hk
  · have hcompare : compare k 0 = .lt := Int.compare_eq_lt.mpr hk
    have hopposite : compare (-k) 0 = .gt := Int.compare_eq_gt.mpr (by omega)
    rw [UnpackedFloat.normalize, UnpackedFloat.normalize, hcompare, hopposite]
    exact sameSize_round (by omega) he _ _
  · exact .zero _ _
  · have hcompare : compare k 0 = .gt := Int.compare_eq_gt.mpr hk
    have hopposite : compare (-k) 0 = .lt := Int.compare_eq_lt.mpr (by omega)
    rw [UnpackedFloat.normalize, UnpackedFloat.normalize, hcompare, hopposite, neg_neg]
    exact sameSize_round (by omega) he _ _

/-- The difference of two numbers and the opposite one differ in their signs only. -/
theorem UnpackedForm.sameSize_sub {a b : UnpackedFloat} (ha : UnpackedForm a) (hb : UnpackedForm b) :
    SameSize (UnpackedFloat.sub wide a b) (UnpackedFloat.sub wide b a) := by
  cases ha with
  | notANumber => cases hb <;> exact .notANumber
  | infinity s =>
    cases hb with
    | notANumber => exact .notANumber
    | infinity s' => cases s <;> cases s' <;> constructor
    | zero | finite => exact .infinity _ _
  | zero s =>
    cases hb with
    | notANumber => exact .notANumber
    | infinity s' => exact .infinity _ _
    | zero s' => cases s <;> cases s' <;> constructor
    | finite s' h => exact .finite _ _ h.rounded
  | @finite s m e h =>
    cases hb with
    | notANumber => exact .notANumber
    | infinity s' => exact .infinity _ _
    | zero s' => exact .finite _ _ h.rounded
    | @finite s' n u h' =>
      simp only [UnpackedFloat.sub]
      rw [min_comm u e, ← neg_sub (s.apply _) (s'.apply _)]
      exact sameSize_normalize _ (le_min h.least h'.least) .positive

/-- Two numbers are as far from each other in either direction. -/
theorem distance_comm (x y : Float) : (x - y).abs = (y - x).abs := by
  apply unpack_injective
  rw [unpack_abs, unpack_abs]
  exact ((unpackedForm x).sameSize_sub (unpackedForm y)).abs_pack

end Magnitudes

end Assay.Decimal
