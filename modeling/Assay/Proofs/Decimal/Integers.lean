import Assay.Proofs.Decimal.Distance
import Assay.Proofs.Image.Samples

namespace Assay.Decimal

/-- The number of the last bits of a whole number that a mantissa has no room for. -/
def excess (n : Nat) : Nat :=
  bitCount n - 53

/-- A magnitude whose bits beyond the mantissa are rounded, a half to the even one. -/
def widenedMagnitude (k : Nat) : Nat :=
  divideToEven k (2 ^ excess k) * 2 ^ excess k

/-- The whole number that one becomes. -/
def widened (n : Int) : Int :=
  signed (n < 0) (widenedMagnitude n.natAbs)

section Magnitudes

variable {k d : Nat}

theorem divideToEven_bounds (hd : 0 < d) :
    2 * (divideToEven k d * d) ≤ 2 * k + d ∧ 2 * k ≤ 2 * (divideToEven k d * d) + d := by
  have hdiv : k / d * d + k % d = k := Nat.div_add_mod' k d
  have hmod : k % d < d := Nat.mod_lt k hd
  have hnext : (k / d + 1) * d = k / d * d + d := Nat.succ_mul _ _
  rw [divideToEven]
  split_ifs with hbelow habove
  · omega
  · omega
  · rcases Nat.mod_two_eq_zero_or_one (k / d) with h | h
    · rw [h, Nat.add_zero]
      omega
    · rw [h]
      omega

theorem excess_of_lt (h : k < 2 ^ 53) : excess k = 0 := by
  rw [excess, bitCount]
  split_ifs with hk
  · rfl
  · have hlog : k.log2 < 53 := (Nat.log2_lt hk).mpr h
    omega

/-- Rounded to the mantissa's room, a large number fills it. -/
theorem divideToEven_excess (h : 2 ^ 53 ≤ k) :
    0 < excess k ∧ 2 ^ 52 ≤ divideToEven k (2 ^ excess k) ∧ divideToEven k (2 ^ excess k) ≤ 2 ^ 53 := by
  have hne : k ≠ 0 := by omega
  have hlog : 53 ≤ k.log2 := (Nat.le_log2 hne).mpr h
  have hcount : k.log2 = 52 + excess k := by
    rw [excess, bitCount, if_neg hne]
    omega
  obtain ⟨hlow, hhigh⟩ := (Nat.log2_eq_iff hne).mp hcount
  have hbounds := @divideToEven_bounds k (2 ^ excess k) (Nat.two_pow_pos _)
  rw [Nat.add_right_comm, pow_add] at hhigh
  rw [pow_add] at hlow
  have hunit := Nat.two_pow_pos (excess k)
  refine ⟨by omega, ?_, ?_⟩
  · by_contra hlt
    have hle : (divideToEven k (2 ^ excess k) + 1) * 2 ^ excess k ≤ 2 ^ 52 * 2 ^ excess k :=
      Nat.mul_le_mul_right _ (by omega)
    rw [Nat.succ_mul] at hle
    omega
  · by_contra hgt
    have hle : (2 ^ 53 + 1) * 2 ^ excess k ≤ divideToEven k (2 ^ excess k) * 2 ^ excess k :=
      Nat.mul_le_mul_right _ (by omega)
    rw [Nat.succ_mul] at hle
    omega

/-- A full mantissa, perhaps carried into the next power of two, is that of a number. -/
theorem exists_canonical {q : Nat} {u : Int} (hlow : 2 ^ 52 ≤ q) (hhigh : q ≤ 2 ^ 53) (hleast : -1074 ≤ u)
    (htop : u ≤ 970) :
    ∃ m e, Canonical m e ∧ (u + 1074).toNat * 2 ^ 52 + q = fieldsOf m e ∧ (m : ℚ) * 2 ^ e = q * 2 ^ u := by
  rcases Nat.lt_or_eq_of_le hhigh with hlt | rfl
  · exact ⟨q, u, ⟨by omega, hlt, hleast, by omega, .inl hlow⟩, rfl, rfl⟩
  · refine ⟨2 ^ 52, ((1 : Nat) : Int) + u, ⟨by omega, by omega, by omega, by omega, .inl le_rfl⟩, ?_, ?_⟩
    · rw [fieldsOf]
      omega
    · rw [two_zpow_add]
      push_cast
      ring

theorem encodeMagnitude_of_unit {u : Int} (hpos : 0 < k) (hunit : (bitCount k : Int) - 53 = u)
    (htop : u ≤ 970) (hlow : 2 ^ 52 ≤ Decimal.inUnits k 0 u) (hhigh : Decimal.inUnits k 0 u ≤ 2 ^ 53) :
    Format.double.encodeMagnitude k 0 = (u + 1074).toNat * 2 ^ 52 + Decimal.inUnits k 0 u := by
  have hmax : max ((bitCount k : Int) + 0 - 53) (-1074) = u := by omega
  rw [Format.encodeMagnitude, if_neg hpos.ne']
  change min ((max ((bitCount k : Int) + 0 - 53) (-1074) - -1074).toNat * 2 ^ 52 +
    Decimal.inUnits k 0 (max ((bitCount k : Int) + 0 - 53) (-1074))) (2047 * 2 ^ 52) = _
  rw [hmax]
  omega

/-- The bits of a whole number are those of the number it becomes. -/
theorem encodeMagnitude_whole (hpos : 0 < k) (hlt : k < 2 ^ 64) :
    ∃ m e, Canonical m e ∧ Format.double.encodeMagnitude k 0 = fieldsOf m e ∧
      (m : ℚ) * 2 ^ e = widenedMagnitude k := by
  rcases Nat.lt_or_ge k (2 ^ 53) with hsmall | hlarge
  · -- the mantissa is filled up with zeros
    obtain ⟨hlow, hhigh, hsome⟩ := bitCount_bounds hpos
    have hlog : k.log2 < 53 := (Nat.log2_lt hpos.ne').mpr hsmall
    have hcount : bitCount k ≤ 53 := by
      rw [bitCount, if_neg hpos.ne']
      exact hlog
    obtain ⟨j, hj⟩ := Nat.exists_eq_add_of_le hcount
    have hunits : Decimal.inUnits k 0 (-(j : Int)) = k * 2 ^ j := by
      rw [Decimal.inUnits, if_pos (by omega), Nat.pow_eq, show (0 - -(j : Int)).toNat = j by omega]
    have hfull : 2 ^ 52 ≤ k * 2 ^ j ∧ k * 2 ^ j ≤ 2 ^ 53 := by
      rw [hj, pow_add]
      refine ⟨?_, Nat.mul_le_mul_right _ hhigh.le⟩
      rw [show 52 = bitCount k - 1 + j by omega, pow_add]
      exact Nat.mul_le_mul_right _ hlow
    obtain ⟨m, e, hc, hfields, hvalue⟩ := exists_canonical (u := -(j : Int)) hfull.1 hfull.2 (by omega)
      (by omega)
    refine ⟨m, e, hc, ?_, ?_⟩
    · rw [encodeMagnitude_of_unit (u := -(j : Int)) hpos (by omega) (by omega)
        (hunits ▸ hfull.1) (hunits ▸ hfull.2), hunits, hfields]
    · have hself : divideToEven k 1 = k := by simp [divideToEven, Nat.mod_one]
      rw [hvalue, widenedMagnitude, excess_of_lt hsmall, pow_zero, hself, Nat.mul_one, Nat.cast_mul, Nat.cast_pow,
        Nat.cast_ofNat, mul_assoc, zpow_neg, zpow_natCast, mul_inv_cancel₀ (by positivity), mul_one]
  · obtain ⟨hsome, hlow, hhigh⟩ := divideToEven_excess hlarge
    have hlog : k.log2 < 64 := (Nat.log2_lt hpos.ne').mpr hlt
    have hcount : bitCount k = k.log2 + 1 := if_neg hpos.ne'
    have hexcess : excess k = bitCount k - 53 := rfl
    have hunits : Decimal.inUnits k 0 (excess k : Int) = divideToEven k (2 ^ excess k) := by
      rw [Decimal.inUnits, if_neg (by omega), Nat.pow_eq, show ((excess k : Int) - 0).toNat = excess k by omega]
    obtain ⟨m, e, hc, hfields, hvalue⟩ := exists_canonical (u := (excess k : Int)) hlow hhigh (by omega)
      (by omega)
    refine ⟨m, e, hc, ?_, ?_⟩
    · rw [encodeMagnitude_of_unit (u := (excess k : Int)) hpos (by omega) (by omega)
        (hunits ▸ hlow) (hunits ▸ hhigh), hunits, hfields]
    · rw [hvalue, widenedMagnitude]
      push_cast
      rw [zpow_natCast]

/-- A magnitude within the mantissa's room is kept. -/
theorem widenedMagnitude_eq_self (h : k ≤ 2 ^ 53) : widenedMagnitude k = k := by
  rcases Nat.lt_or_eq_of_le h with hlt | rfl
  · simp [widenedMagnitude, excess_of_lt hlt, divideToEven, Nat.mod_one]
  · decide +kernel

theorem le_widenedMagnitude (h : 2 ^ 53 ≤ k) : 2 ^ 53 ≤ widenedMagnitude k := by
  obtain ⟨hsome, hlow, -⟩ := divideToEven_excess h
  have hunit : 2 ^ 1 ≤ 2 ^ excess k := Nat.pow_le_pow_right (by omega) hsome
  calc
    2 ^ 53 = 2 ^ 52 * 2 ^ 1 := rfl
    _ ≤ widenedMagnitude k := Nat.mul_le_mul hlow hunit

end Magnitudes

section Integers

variable {a b n : Int}

theorem signed_natAbs (n : Int) : signed (n < 0) n.natAbs = n := by
  rw [signed]
  split_ifs with h <;> simp only [decide_eq_true_eq] at h <;> omega

theorem natAbs_signed (negative : Bool) (k : Nat) : (signed negative k).natAbs = k := by
  cases negative <;> simp [signed]

/-- The value of the number that a whole number becomes. -/
theorem value?_ofInt (h : n.natAbs < 2 ^ 64) : value? (ofInt n) = some (widened n : ℚ) := by
  rcases Nat.eq_zero_or_pos n.natAbs with hzero | hpos
  · obtain rfl : n = 0 := Int.natAbs_eq_zero.mp hzero
    have hb : Binary.ofFloat (ofInt 0) = .finite false 0 (-1074) := by decide +kernel
    rw [value?, hb, show widened 0 = 0 by decide +kernel]
    simp [signed]
  · obtain ⟨m, e, hc, hencode, hvalue⟩ := encodeMagnitude_whole hpos h
    generalize hbits : Format.double.encode (.finite (decide (n < 0)) n.natAbs 0) = bits
    have hsum : bits = (if decide (n < 0) = true then 2 ^ 63 else 0) + fieldsOf m e := by
      rw [← hbits, Format.encode, hencode]
      rfl
    have hlt : bits < 2 ^ 64 := hbits ▸ Format.encode_lt _ _
    have hword : bits.toUInt64.toNat = bits := Nat.mod_eq_of_lt hlt
    have hdecode : Format.double.decode bits.toUInt64.toNat = .finite (decide (n < 0)) m e := by
      rw [hword, hsum, decode_fieldsOf hc]
    have hb : Binary.ofFloat (ofInt n) = .finite (decide (n < 0)) m e := by
      have hnumber : Format.double.decode bits.toUInt64.toNat ≠ .nan := by
        rw [hdecode]
        exact Binary.noConfusion
      rw [← hdecode, ← ofFloat_ofBits hnumber, ← hbits]
      rfl
    have hsigned : ((signed (n < 0) m : ℤ) : ℚ) * 2 ^ e = ((widened n : ℤ) : ℚ) := by
      rw [widened]
      cases decide (n < 0) <;> simp [signed, hvalue]
    rw [value?, hb, ← hsigned]

/-- Whole numbers within the mantissa's room stay what they are. -/
theorem widened_eq_self (h : n.natAbs ≤ 2 ^ 53) : widened n = n := by
  rw [widened, widenedMagnitude_eq_self h, signed_natAbs]

/-- What a whole number becomes is as near to it as the bits that are left allow. -/
theorem widened_near (n : Int) : 2 * (widened n - n).natAbs ≤ 2 ^ excess n.natAbs := by
  have hbounds := @divideToEven_bounds n.natAbs (2 ^ excess n.natAbs) (Nat.two_pow_pos _)
  rw [← widenedMagnitude] at hbounds
  rw [widened, signed]
  split_ifs with h <;> simp only [decide_eq_true_eq] at h <;> omega

/-- Different whole numbers become the same only when both are beyond the mantissa's room and near to each
other. -/
theorem apart_of_widened_eq (ha : a.natAbs < 2 ^ 64) (hb : b.natAbs < 2 ^ 64) (hne : a ≠ b)
    (h : widened a = widened b) :
    2 ^ 53 ≤ a.natAbs ∧ 2 ^ 53 ≤ b.natAbs ∧ (a - b).natAbs ≤ 2048 := by
  have hmagnitude : widenedMagnitude a.natAbs = widenedMagnitude b.natAbs := by
    have hsame := congrArg Int.natAbs h
    rwa [widened, widened, natAbs_signed, natAbs_signed] at hsame
  have hlarge : ∀ {x y : Int}, x ≠ y → widened x = widened y →
      widenedMagnitude x.natAbs = widenedMagnitude y.natAbs → 2 ^ 53 ≤ x.natAbs := by
    intro x y hxy hsame hm
    by_contra hx
    rw [widenedMagnitude_eq_self (k := x.natAbs) (by omega)] at hm
    rcases Nat.lt_or_ge y.natAbs (2 ^ 53) with hy | hy
    · rw [widened_eq_self (n := x) (by omega), widened_eq_self (n := y) hy.le] at hsame
      exact hxy hsame
    · have hle := le_widenedMagnitude hy
      omega
  refine ⟨hlarge hne h hmagnitude, hlarge hne.symm h.symm hmagnitude.symm, ?_⟩
  have hunit : ∀ k : Nat, k < 2 ^ 64 → 2 ^ excess k ≤ 2048 := by
    intro k hk
    have hexcess : excess k ≤ 11 := by
      rw [excess, bitCount]
      split_ifs with hzero
      · omega
      · have hlog : k.log2 < 64 := (Nat.log2_lt hzero).mpr hk
        omega
    exact Nat.pow_le_pow_right (by omega) hexcess
  have hnear := widened_near a
  have hnear' := widened_near b
  have ha' := hunit _ ha
  have hb' := hunit _ hb
  omega

end Integers

end Assay.Decimal
