import Assay.Proofs.Decimal.Equality
import Assay.Proofs.Decimal.Text

namespace Assay.Decimal

open Float.Model

section Values

def value? (x : Float) : Option ℚ :=
  match Binary.ofFloat x with
  | .finite negative mantissa exponent => some (signed negative mantissa * 2 ^ exponent)
  | _ => none

variable {x y : Float} {p q : ℚ} {m n : Nat} {e u : Int}

theorem value?_eq_some (h : value? x = some p) :
    ∃ negative m e, Binary.ofFloat x = .finite negative m e ∧ p = signed negative m * 2 ^ e := by
  rw [value?] at h
  cases hx : Binary.ofFloat x with
  | nan => simp [hx] at h
  | infinite negative => simp [hx] at h
  | finite negative m e =>
    rw [hx, Option.some.injEq] at h
    exact ⟨negative, m, e, rfl, h.symm⟩

theorem canonical_of_ofFloat {negative : Bool} (hm : 0 < m) (h : Binary.ofFloat x = .finite negative m e) :
    Canonical m e :=
  (canonical_of_decode x.toBits.toNat_lt hm h).1

/-- A mantissa with more than its least exponent is too large to be half of another. -/
theorem Canonical.exponent_le (hm : Canonical m e) (hn : Canonical n u)
    (h : (m : ℚ) * 2 ^ e = n * 2 ^ u) : u ≤ e := by
  by_contra hlt
  obtain ⟨k, hk⟩ := Int.eq_ofNat_of_zero_le (show 0 ≤ u - e - 1 by omega)
  have hfull : 2 ^ 52 ≤ n := hn.full.resolve_right (by have := hm.least; omega)
  have hsplit : (2 : ℚ) ^ u = (2 * 2 ^ k) * 2 ^ e := by
    rw [show u = ((k + 1 : Nat) : Int) + e by omega, two_zpow_add, pow_succ']
  have hm' : (m : ℚ) = n * (2 * 2 ^ k) := by
    rw [hsplit, ← mul_assoc] at h
    exact mul_right_cancel₀ (by positivity) h
  have hnat : m = n * (2 * 2 ^ k) := by exact_mod_cast hm'
  have hlarge : n * 2 ≤ m := hnat ▸ Nat.mul_le_mul_left n (Nat.le_mul_of_pos_right 2 (Nat.two_pow_pos k))
  have hroom := hm.lt
  omega

/-- The value of a positive number has one mantissa and one exponent. -/
theorem Canonical.unique (hm : Canonical m e) (hn : Canonical n u) (h : (m : ℚ) * 2 ^ e = n * 2 ^ u) :
    m = n ∧ e = u := by
  obtain rfl : e = u := le_antisymm (hn.exponent_le hm h.symm) (hm.exponent_le hn h)
  exact ⟨by exact_mod_cast mul_right_cancel₀ (by positivity) h, rfl⟩

theorem signed_pos_iff {negative : Bool} (hm : 0 < m) :
    0 < (signed negative m : ℚ) * 2 ^ e ↔ negative = false := by
  have hunit : (0 : ℚ) < 2 ^ e := by positivity
  cases negative <;> simp [signed, mul_pos_iff_of_pos_right hunit, hm, hunit.le]

theorem signed_eq_zero_iff {negative : Bool} : (signed negative m : ℚ) * 2 ^ e = 0 ↔ m = 0 := by
  have hunit : (2 : ℚ) ^ e ≠ 0 := by positivity
  cases negative <;> simp [signed, hunit]

/-- Only zeros have the value zero. -/
theorem isZero_iff_value (hx : value? x = some p) : IsZero x ↔ p = 0 := by
  obtain ⟨negative, m, e, hb, rfl⟩ := value?_eq_some hx
  rw [isZero_iff, unpack_toModel, hb, unpacked, signed_eq_zero_iff]
  by_cases hm : m = 0 <;> simp [hm]

/-- A number is told by its value, unless it is a zero. -/
theorem eq_of_value (hx : value? x = some p) (hy : value? y = some p) (hp : p ≠ 0) : x = y := by
  obtain ⟨negative, m, e, hbx, rfl⟩ := value?_eq_some hx
  obtain ⟨other, n, u, hby, hsame⟩ := value?_eq_some hy
  have hm : 0 < m := Nat.pos_of_ne_zero fun h => hp (signed_eq_zero_iff.mpr h)
  have hn : 0 < n := Nat.pos_of_ne_zero fun h => hp (hsame.trans (signed_eq_zero_iff.mpr h))
  obtain rfl : negative = other := by
    have hsign := @signed_pos_iff m e negative hm
    rw [hsame, signed_pos_iff hn] at hsign
    cases negative <;> cases other <;> simp_all
  have hmagnitude : (m : ℚ) * 2 ^ e = n * 2 ^ u := by
    cases negative with
    | false => simpa [signed] using hsame
    | true => simpa [signed] using hsame
  obtain ⟨rfl, rfl⟩ := (canonical_of_ofFloat hm hbx).unique (canonical_of_ofFloat hn hby) hmagnitude
  apply unpack_injective
  rw [unpack_toModel, unpack_toModel, hbx, hby]

/-- Finite numbers are equal when their values are the same. -/
theorem beq_iff_value (hx : value? x = some p) (hy : value? y = some q) : (x == y) = true ↔ p = q := by
  have hnumber : x.isNaN = false := by
    obtain ⟨negative, m, e, hb, -⟩ := value?_eq_some hx
    rw [Bool.eq_false_iff, ne_eq, isNaN_iff, hb]
    exact nofun
  rw [beq_iff, Equal, and_iff_right hnumber, isZero_iff_value hx, isZero_iff_value hy]
  constructor
  · rintro (rfl | ⟨rfl, rfl⟩)
    · exact Option.some.inj (hx.symm.trans hy)
    · rfl
  · rintro rfl
    by_cases hp : p = 0
    · exact .inr ⟨hp, hp⟩
    · exact .inl (eq_of_value hx hy hp)

end Values

section Rounding

open UnpackedFloat

variable {m : Nat} {e : Int}

theorem mantissa_shifted (em : ExtendedMantissa) (k : Nat) :
    (em >>> k).mantissa = em.mantissa / 2 ^ k := by
  change (Nat.repeat ExtendedMantissa.shiftRightOne k em).mantissa = _
  induction k with
  | zero => simp [Nat.repeat]
  | succ k ih => rw [Nat.repeat, ExtendedMantissa.shiftRightOne, ih, Nat.div_div_eq_div_mul, ← pow_succ]

theorem roundedMantissa_cases (em : ExtendedMantissa) :
    em.roundedMantissa = em.mantissa ∨ em.roundedMantissa = em.mantissa + 1 := by
  obtain ⟨m, roundBit, stickyBit⟩ := em
  rcases Nat.mod_two_eq_zero_or_one m with h | h <;> cases roundBit <;> cases stickyBit <;>
    simp [ExtendedMantissa.roundedMantissa, ExtendedMantissa.accuracy, Accuracy.roundToNearestEven, h]

/-- The exponent that a number is rounded to. -/
theorem targetExponent_eq (m : Nat) (e : Int) :
    wide.targetExponent (totalExponent m e) = max ((m.log2 : Int) + 1 + e - 53) (-1074) :=
  rfl

/-- A mantissa with an exponent that is none too large is shifted to the exponent it is rounded to. -/
theorem shiftToTargetExponent_eq {k : Nat} (h : wide.targetExponent (totalExponent m e) = e + k) :
    shiftToTargetExponent wide m e .exact =
      ((⟨m, false, false⟩ : ExtendedMantissa) >>> k, e + (k : Int)) := by
  have hk : (wide.targetExponent (totalExponent m e) - e).toNat = k := by omega
  rw [← hk]
  rfl

theorem roundWithAccuracy_eq (sign : Sign) {k j : Nat} (hk : wide.targetExponent (totalExponent m e) = e + k)
    {rounded : Nat} (hrounded : ((⟨m, false, false⟩ : ExtendedMantissa) >>> k).roundedMantissa = rounded)
    (hj : wide.targetExponent (totalExponent rounded (e + k)) = e + k + j) (hpos : 0 < rounded / 2 ^ j) :
    roundWithAccuracy wide sign m e .exact = .finite sign (rounded / 2 ^ j) (e + k + j) hpos := by
  have hmantissa : ((⟨rounded, false, false⟩ : ExtendedMantissa) >>> j).mantissa = rounded / 2 ^ j :=
    mantissa_shifted _ j
  simp only [roundWithAccuracy, shiftToTargetExponent_eq hk, hrounded, shiftToTargetExponent_eq hj,
    hmantissa]
  exact dif_neg hpos.ne'

/-- What a positive number is rounded to: one of the positive numbers, or one that is too large. -/
structure Rounded (mantissa : Nat) (exponent : Int) : Prop where
  pos : 0 < mantissa
  lt : mantissa < 2 ^ 53
  least : -1074 ≤ exponent
  full : 2 ^ 52 ≤ mantissa ∨ exponent = -1074

theorem Rounded.canonical (h : Rounded m e) (htop : e ≤ 971) : Canonical m e :=
  ⟨h.pos, h.lt, h.least, htop, h.full⟩

theorem Canonical.rounded (h : Canonical m e) : Rounded m e :=
  ⟨h.pos, h.lt, h.least, h.full⟩

/-- A number with room for its mantissa is rounded to itself. -/
theorem roundWithAccuracy_of_lt (sign : Sign) (hm : 0 < m) (hlt : m < 2 ^ 53) (he : -1074 ≤ e)
    (hle : e ≤ wide.targetExponent (totalExponent m e)) :
    roundWithAccuracy wide sign m e .exact = .finite sign m e hm ∧ Rounded m e := by
  have hlog : m.log2 < 53 := (Nat.log2_lt hm.ne').mpr hlt
  rw [targetExponent_eq] at hle
  have htarget : wide.targetExponent (totalExponent m e) = e + (0 : Nat) := by
    rw [targetExponent_eq]
    omega
  constructor
  · have hrounded : ((⟨m, false, false⟩ : ExtendedMantissa) >>> 0).roundedMantissa = m := rfl
    have hround : roundWithAccuracy wide sign m e .exact =
        .finite sign (m / 2 ^ 0) (e + (0 : Nat) + (0 : Nat)) (by simpa using hm) :=
      roundWithAccuracy_eq sign htarget hrounded (by simpa using htarget) _
    simpa using hround
  · refine ⟨hm, hlt, he, ?_⟩
    by_contra hnone
    have hshort : m.log2 < 52 := (Nat.log2_lt hm.ne').mpr (by omega)
    omega

/-- A longer mantissa is cut to one with room, and so rounded to that one or the next. -/
theorem roundWithAccuracy_of_le (sign : Sign) (hm : 2 ^ 53 ≤ m) (he : -1074 ≤ e) :
    ∃ n u hpos, roundWithAccuracy wide sign m e .exact = .finite sign n u hpos ∧ Rounded n u := by
  have hne : m ≠ 0 := by omega
  have hlog : 53 ≤ m.log2 := (Nat.le_log2 hne).mpr hm
  obtain ⟨k, hk⟩ := Nat.exists_eq_add_of_le (show 52 ≤ m.log2 by omega)
  have hcut : 2 ^ 52 ≤ m / 2 ^ k ∧ m / 2 ^ k < 2 ^ 53 := by
    rw [Nat.le_div_iff_mul_le (Nat.two_pow_pos k), Nat.div_lt_iff_lt_mul (Nat.two_pow_pos k), ← pow_add,
      ← pow_add]
    have hbounds := (Nat.log2_eq_iff hne).mp hk
    exact ⟨hbounds.1, by rw [Nat.add_right_comm] at hbounds; exact hbounds.2⟩
  have htarget : wide.targetExponent (totalExponent m e) = e + k := by
    rw [targetExponent_eq]
    omega
  generalize hrounded : ((⟨m, false, false⟩ : ExtendedMantissa) >>> k).roundedMantissa = rounded
  have hnext : rounded = m / 2 ^ k ∨ rounded = m / 2 ^ k + 1 := by
    rw [← hrounded, ← mantissa_shifted ⟨m, false, false⟩ k]
    exact roundedMantissa_cases _
  rcases Nat.lt_or_ge rounded (2 ^ 53) with hlt | hge
  · have hlast : wide.targetExponent (totalExponent rounded (e + k)) = e + k + (0 : Nat) := by
      rw [targetExponent_eq, log2_eq (k := 52) (by omega) hlt]
      omega
    exact ⟨_, _, _, roundWithAccuracy_eq sign htarget hrounded hlast (by omega),
      ⟨by omega, by omega, by omega, .inl (by omega)⟩⟩
  · -- the mantissa was carried into the next power of two, which is cut once more
    have hlast : wide.targetExponent (totalExponent rounded (e + k)) = e + k + (1 : Nat) := by
      rw [targetExponent_eq, log2_eq (k := 53) hge (by omega)]
      omega
    exact ⟨_, _, _, roundWithAccuracy_eq sign htarget hrounded hlast (by omega),
      ⟨by omega, by omega, by omega, .inl (by omega)⟩⟩

/-- A number that is not zero is not rounded to zero. -/
theorem exists_round (sign : Sign) (hm : 0 < m) (he : -1074 ≤ e) :
    ∃ n u hpos, round wide sign m e = .finite sign n u hpos ∧ Rounded n u := by
  generalize ha : (e - wide.targetExponent (totalExponent m e)).toNat = a
  have hround : round wide sign m e = roundWithAccuracy wide sign (m <<< a) (e - a) .exact := by
    rw [← ha]
    rfl
  rw [hround, Nat.shiftLeft_eq]
  have hpos : 0 < m * 2 ^ a := Nat.mul_pos hm (Nat.two_pow_pos a)
  have hlog : (m * 2 ^ a).log2 = m.log2 + a := by
    obtain ⟨hlow, hhigh⟩ := (Nat.log2_eq_iff hm.ne').mp rfl
    refine log2_eq ?_ ?_
    · rw [pow_add]
      exact Nat.mul_le_mul_right _ hlow
    · rw [Nat.add_right_comm, pow_add]
      exact Nat.mul_lt_mul_of_pos_right hhigh (Nat.two_pow_pos a)
  rw [targetExponent_eq] at ha
  have hleast : -1074 ≤ e - a := by omega
  rcases Nat.lt_or_ge (m * 2 ^ a) (2 ^ 53) with hlt | hge
  · have hle : e - a ≤ wide.targetExponent (totalExponent (m * 2 ^ a) (e - a)) := by
      rw [targetExponent_eq, hlog]
      omega
    obtain ⟨heq, hrounded⟩ := roundWithAccuracy_of_lt sign hpos hlt hleast hle
    exact ⟨_, _, hpos, heq, hrounded⟩
  · exact roundWithAccuracy_of_le sign hge hleast

end Rounding

section Packing

open UnpackedFloat

variable {m : Nat} {e : Int}

/-- The bits of a positive number with a sign are decoded to it. -/
theorem decode_fieldsOf (hc : Canonical m e) (negative : Bool) :
    Format.double.decode ((if negative then 2 ^ 63 else 0) + fieldsOf m e) = .finite negative m e := by
  have hlt := hc.lt
  have hleast := hc.least
  have htop := hc.top
  generalize hn : (if negative then 2 ^ 63 else 0) + fieldsOf m e = n
  have hsign : decide (2 ^ 63 ≤ n) = negative := by
    rw [fieldsOf] at hn
    cases negative <;> simp at hn ⊢ <;> omega
  have hlow : n % 2 ^ 63 = fieldsOf m e := by
    rw [fieldsOf] at hn ⊢
    cases negative <;> simp at hn ⊢ <;> omega
  rw [fieldsOf] at hlow
  rw [decode_double, hsign, if_neg (by omega)]
  rcases Nat.lt_or_ge m (2 ^ 52) with hshort | hfull
  · have hunit : e = -1074 := hc.full.resolve_left (by omega)
    rw [if_pos (by omega), hunit]
    congr 1
    omega
  · rw [if_neg (by omega)]
    congr 1 <;> omega

/-- Bits that are decoded to something else than no number are what it is packed as. -/
theorem unpack_pack_of_decode {n : Nat} {b : Binary} (hn : n < 2 ^ 64) (hb : Format.double.decode n = b)
    (hnan : b ≠ .nan) : (Float.Model.pack (unpacked b)).unpack = unpacked b := by
  have hbits : n.toUInt64.toNat = n := Nat.mod_eq_of_lt hn
  have hdecode : Format.double.decode n.toUInt64.toNat = b := by rw [hbits, hb]
  have hvalid : wide.Valid n.toUInt64.toBitVec := valid_of_decode (hdecode ▸ hnan)
  have hunpack : UnpackedFloat.unpack wide n.toUInt64.toBitVec = unpacked b :=
    (unpack_eq n.toUInt64.toBitVec).trans (congrArg unpacked hdecode)
  have hpack := pack_unpack hvalid
  rw [hunpack] at hpack
  change UnpackedFloat.unpack wide (UnpackedFloat.pack wide (unpacked b)) = unpacked b
  rw [hpack, hunpack]

theorem exists_signOf (sign : Sign) : ∃ negative, sign = signOf negative := by
  cases sign with
  | positive => exact ⟨false, rfl⟩
  | negative => exact ⟨true, rfl⟩

/-- A number of 64 bits is packed without a loss. -/
theorem unpack_pack (hc : Canonical m e) (sign : Sign) :
    (Float.Model.pack (.finite sign m e hc.pos)).unpack = .finite sign m e hc.pos := by
  obtain ⟨negative, rfl⟩ := exists_signOf sign
  have hlt : (if negative then 2 ^ 63 else 0) + fieldsOf m e < 2 ^ 64 := by
    have hm := hc.lt
    have htop := hc.top
    rw [fieldsOf]
    split_ifs <;> omega
  have hpack := unpack_pack_of_decode hlt (decode_fieldsOf hc negative) (by simp)
  rwa [unpacked, dif_neg hc.pos.ne'] at hpack

theorem unpack_pack_infinity (sign : Sign) :
    (Float.Model.pack (.infinity sign)).unpack = .infinity sign := by
  change UnpackedFloat.unpack wide (UnpackedFloat.packedInfinity wide sign) = .infinity sign
  rw [unpack_eq]
  cases sign <;> rfl

/-- A number that is too large is packed as infinite. -/
theorem unpack_pack_large (hm : 0 < m) (he : 971 < e) (sign : Sign) :
    (Float.Model.pack (.finite sign m e hm)).unpack = .infinity sign := by
  have hlarge : 2 ^ 11 ≤ (e + (1023 : Nat) + (52 : Nat)).toNat + 1 := by omega
  have hpack : UnpackedFloat.pack wide (.finite sign m e hm) = UnpackedFloat.packedInfinity wide sign := by
    rw [UnpackedFloat.pack]
    exact if_pos hlarge
  change UnpackedFloat.unpack wide (UnpackedFloat.pack wide (.finite sign m e hm)) = .infinity sign
  rw [hpack]
  exact unpack_pack_infinity sign

/-- What is rounded is packed as a number that is no zero. -/
theorem Rounded.unpack_pack (h : Rounded m e) (sign : Sign) :
    (Float.Model.pack (.finite sign m e h.pos)).unpack = .finite sign m e h.pos ∧ Canonical m e ∨
      (Float.Model.pack (.finite sign m e h.pos)).unpack = .infinity sign := by
  rcases le_or_gt e 971 with htop | htop
  · exact .inl ⟨Decimal.unpack_pack (h.canonical htop) sign, h.canonical htop⟩
  · exact .inr (unpack_pack_large h.pos htop sign)

end Packing

section Distances

open UnpackedFloat

variable {x y : Float} {p q : ℚ}

theorem signOf_apply (negative : Bool) (m : Nat) : (signOf negative).apply (m : Int) = signed negative m := by
  cases negative <;> rfl

/-- A mantissa at a smaller exponent has the same value. -/
theorem decreaseExponent_value (negative : Bool) (m : Nat) {e least : Int} (h : least ≤ e) :
    ((signOf negative).apply ((decreaseExponent m e least).1 : Int) : ℚ) * 2 ^ least =
      signed negative m * 2 ^ e := by
  obtain ⟨k, hk⟩ := Int.eq_ofNat_of_zero_le (Int.sub_nonneg_of_le h)
  have hshift : (decreaseExponent m e least).1 = m * 2 ^ k := by
    rw [decreaseExponent, hk, Int.toNat_natCast, Nat.shiftLeft_eq]
  have hsplit : (2 : ℚ) ^ e = 2 ^ k * 2 ^ least := by
    rw [show e = (k : Int) + least by omega, two_zpow_add]
  rw [hshift, signOf_apply, hsplit]
  cases negative <;> simp [signed] <;> ring

theorem exists_normalize {k e : Int} (hk : k ≠ 0) (he : -1074 ≤ e) (zeroSign : Sign) :
    ∃ sign m u hpos, UnpackedFloat.normalize wide k e zeroSign = .finite sign m u hpos ∧ Rounded m u := by
  rcases Int.lt_or_gt_of_ne hk with hneg | hpos
  · have hcompare : compare k 0 = .lt := Int.compare_eq_lt.mpr hneg
    obtain ⟨m, u, hm, hround, hrounded⟩ := exists_round .negative (show 0 < (-k).toNat by omega) he
    refine ⟨.negative, m, u, hm, ?_, hrounded⟩
    rw [UnpackedFloat.normalize, hcompare]
    exact hround
  · have hcompare : compare k 0 = .gt := Int.compare_eq_gt.mpr hpos
    obtain ⟨m, u, hm, hround, hrounded⟩ := exists_round .positive (show 0 < k.toNat by omega) he
    refine ⟨.positive, m, u, hm, ?_, hrounded⟩
    rw [UnpackedFloat.normalize, hcompare]
    exact hround

/-- The difference of two finite numbers that are not equal is not rounded to zero. -/
theorem exists_sub (hx : value? x = some p) (hy : value? y = some q) (hne : p ≠ q) :
    ∃ sign m e hpos, UnpackedFloat.sub wide x.toModel.unpack y.toModel.unpack = .finite sign m e hpos ∧
      Rounded m e := by
  obtain ⟨negative, m, e, hbx, rfl⟩ := value?_eq_some hx
  obtain ⟨other, n, u, hby, rfl⟩ := value?_eq_some hy
  rw [unpack_toModel, unpack_toModel, hbx, hby, unpacked, unpacked]
  by_cases hm : m = 0
  · have hn : n ≠ 0 := by
      rintro rfl
      exact hne ((signed_eq_zero_iff.mpr hm).trans (signed_eq_zero_iff.mpr rfl).symm)
    rw [dif_pos hm, dif_neg hn]
    exact ⟨_, _, _, _, rfl, (canonical_of_ofFloat (Nat.pos_of_ne_zero hn) hby).rounded⟩
  · have hc := canonical_of_ofFloat (Nat.pos_of_ne_zero hm) hbx
    rw [dif_neg hm]
    by_cases hn : n = 0
    · rw [dif_pos hn]
      exact ⟨_, _, _, _, rfl, hc.rounded⟩
    · have hleast : -1074 ≤ min e u :=
        le_min hc.least (canonical_of_ofFloat (Nat.pos_of_ne_zero hn) hby).least
      rw [dif_neg hn]
      refine exists_normalize (fun hzero => hne ?_) hleast .positive
      have haligned : (signOf negative).apply ((decreaseExponent m e (min e u)).1 : Int) =
          (signOf other).apply ((decreaseExponent n u (min e u)).1 : Int) := Int.sub_eq_zero.mp hzero
      rw [← decreaseExponent_value negative m (min_le_left e u),
        ← decreaseExponent_value other n (min_le_right e u), haligned]

/-- Nothing but the number itself is at the distance zero of a finite number. -/
theorem not_distance_le_zero (hx : value? x = some p) (hy : value? y = some q) (hne : p ≠ q) :
    ¬(x - y).abs ≤ 0.0 := by
  obtain ⟨sign, m, e, hpos, hsub, hrounded⟩ := exists_sub hx hy hne
  have hdifference : (x - y).toModel.unpack = (Float.Model.pack (.finite sign m e hpos)).unpack := by
    rw [← hsub]
    rfl
  have habs : (x - y).abs.toModel.unpack = (Float.Model.pack (x - y).toModel.unpack.abs).unpack := rfl
  intro hle
  have hcompare : (x - y).abs.toModel.unpack.le (0.0 : Float).toModel.unpack = true := of_decide_eq_true hle
  rw [habs, hdifference, unpack_zero] at hcompare
  rcases hrounded.unpack_pack sign with ⟨hfinite, hc⟩ | hinfinite
  · have hback : (Float.Model.pack (.finite .positive m e hpos)).unpack = .finite .positive m e hpos :=
      unpack_pack hc .positive
    rw [hfinite, UnpackedFloat.abs, hback] at hcompare
    cases hcompare
  · rw [hinfinite, UnpackedFloat.abs, unpack_pack_infinity] at hcompare
    cases hcompare

end Distances

end Assay.Decimal
