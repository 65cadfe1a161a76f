import Mathlib.Algebra.Order.Field.Power
import Mathlib.Algebra.Order.Field.Rat
import Mathlib.Tactic.FieldSimp
import Mathlib.Tactic.Linarith
import Mathlib.Tactic.Positivity
import Mathlib.Tactic.Ring
import Assay.Decimal.Binary

namespace Assay.Decimal

section Integers

/-- The quotient is rounded to the whole number next to it, and to the even one of two. -/
theorem divideToEven_eq {a b q : Nat} (hb : 0 < b) (hl : 2 * (q * b) ≤ 2 * a + b)
    (hh : 2 * a ≤ 2 * (q * b) + b)
    (hodd : q % 2 = 1 → 2 * (q * b) < 2 * a + b ∧ 2 * a < 2 * (q * b) + b) :
    divideToEven a b = q := by
  have hdiv : a / b * b + a % b = a := Nat.div_add_mod' a b
  have hmod : a % b < b := Nat.mod_lt a hb
  have hle : a / b ≤ q := by
    by_contra hlt
    have hmul : (q + 1) * b ≤ a / b * b := Nat.mul_le_mul_right b (by omega)
    rw [Nat.succ_mul] at hmul
    omega
  have hge : q ≤ a / b + 1 := by
    by_contra hlt
    have hmul : (a / b + 2) * b ≤ q * b := Nat.mul_le_mul_right b (by omega)
    rw [Nat.add_mul] at hmul
    omega
  rw [divideToEven]
  rcases Nat.lt_or_ge (a / b) q with hlt | hge'
  · have hq : q = a / b + 1 := by omega
    have hprod : q * b = a / b * b + b := by rw [hq, Nat.succ_mul]
    split_ifs with h1 h2
    · omega
    · exact hq.symm
    · omega
  · have hq : a / b = q := by omega
    have hprod : q * b = a / b * b := by rw [hq]
    split_ifs with h1 h2
    · exact hq
    · omega
    · omega

theorem bitCount_bounds {n : Nat} (h : 0 < n) :
    2 ^ (bitCount n - 1) ≤ n ∧ n < 2 ^ bitCount n ∧ 1 ≤ bitCount n := by
  have hn : n ≠ 0 := Nat.ne_of_gt h
  rw [bitCount, if_neg hn, Nat.add_sub_cancel]
  exact ⟨Nat.log2_self_le hn, Nat.lt_log2_self, Nat.succ_le_succ (Nat.zero_le _)⟩

end Integers

section Units

theorem zpow_eq_div (b : ℚ) (u : Int) : b ^ u = b ^ u.toNat / b ^ (-u).toNat := by
  rcases Int.le_total 0 u with h | h
  · obtain ⟨k, rfl⟩ := Int.eq_ofNat_of_zero_le h
    simp
  · obtain ⟨k, hk⟩ := Int.eq_ofNat_of_zero_le (Int.neg_nonneg_of_nonpos h)
    have hu : u = -(k : Int) := by omega
    rw [hu]
    simp [zpow_neg]

theorem cast_div_units (n d : Nat) (u : Int) :
    ((n * Nat.pow 2 (-u).toNat : Nat) : ℚ) / ((d * Nat.pow 2 u.toNat : Nat) : ℚ) =
      (n : ℚ) / d / (2 : ℚ) ^ u := by
  have h1 : (2 : ℚ) ^ u.toNat ≠ 0 := by positivity
  have h2 : (2 : ℚ) ^ (-u).toNat ≠ 0 := by positivity
  have hn : ((n * Nat.pow 2 (-u).toNat : Nat) : ℚ) = n * (2 : ℚ) ^ (-u).toNat := by
    rw [Nat.cast_mul, Nat.pow_eq, Nat.cast_pow, Nat.cast_ofNat]
  have hd : ((d * Nat.pow 2 u.toNat : Nat) : ℚ) = d * (2 : ℚ) ^ u.toNat := by
    rw [Nat.cast_mul, Nat.pow_eq, Nat.cast_pow, Nat.cast_ofNat]
  rw [hn, hd, zpow_eq_div]
  field_simp

/-- The binary digits of a quotient start where those of its parts tell, up to one place. -/
theorem quotient_bounds {n d : Nat} (hn : 0 < n) (hd : 0 < d) :
    (2 : ℚ) ^ ((bitCount n : Int) - bitCount d - 1) < (n : ℚ) / d ∧
      (n : ℚ) / d < (2 : ℚ) ^ ((bitCount n : Int) - bitCount d + 1) := by
  obtain ⟨hnl, hnh, hn1⟩ := bitCount_bounds hn
  obtain ⟨hdl, hdh, hd1⟩ := bitCount_bounds hd
  have hnl' : (2 : ℚ) ^ (bitCount n - 1) ≤ n := by exact_mod_cast hnl
  have hnh' : (n : ℚ) < (2 : ℚ) ^ bitCount n := by exact_mod_cast hnh
  have hdl' : (2 : ℚ) ^ (bitCount d - 1) ≤ d := by exact_mod_cast hdl
  have hdh' : (d : ℚ) < (2 : ℚ) ^ bitCount d := by exact_mod_cast hdh
  have hdpos : (0 : ℚ) < d := by exact_mod_cast hd
  have hlow : (2 : ℚ) ^ ((bitCount n : Int) - bitCount d - 1) =
      (2 : ℚ) ^ (bitCount n - 1) / (2 : ℚ) ^ bitCount d := by
    rw [← zpow_natCast, ← zpow_natCast, ← zpow_sub₀ (by norm_num)]
    congr 1
    omega
  have hhigh : (2 : ℚ) ^ ((bitCount n : Int) - bitCount d + 1) =
      (2 : ℚ) ^ bitCount n / (2 : ℚ) ^ (bitCount d - 1) := by
    rw [← zpow_natCast, ← zpow_natCast, ← zpow_sub₀ (by norm_num)]
    congr 1
    omega
  rw [hlow, hhigh]
  constructor
  · rw [div_lt_div_iff₀ (by positivity) hdpos]
    nlinarith [pow_pos (show (0 : ℚ) < 2 by norm_num) (bitCount n - 1)]
  · rw [div_lt_div_iff₀ hdpos (by positivity)]
    nlinarith [pow_pos (show (0 : ℚ) < 2 by norm_num) (bitCount n)]

/-- Whether a quotient reaches a power of two is seen from whole numbers. -/
theorem le_units_iff {n d : Nat} (hd : 0 < d) (k : Nat) (u : Int) :
    Nat.pow 2 k * (d * Nat.pow 2 u.toNat) ≤ n * Nat.pow 2 (-u).toNat ↔
      (2 : ℚ) ^ ((k : Int) + u) ≤ (n : ℚ) / d := by
  have hpos : (0 : ℚ) < ((d * Nat.pow 2 u.toNat : Nat) : ℚ) := by
    exact_mod_cast Nat.mul_pos hd (Nat.two_pow_pos _)
  have hunit : (0 : ℚ) < (2 : ℚ) ^ u := by positivity
  have hsplit : (2 : ℚ) ^ ((k : Int) + u) = (2 : ℚ) ^ k * (2 : ℚ) ^ u := by
    rw [zpow_add₀ (by norm_num), zpow_natCast]
  have hcast : ((Nat.pow 2 k * (d * Nat.pow 2 u.toNat) : Nat) : ℚ) =
      (2 : ℚ) ^ k * ((d * Nat.pow 2 u.toNat : Nat) : ℚ) := by
    rw [Nat.cast_mul, Nat.pow_eq, Nat.cast_pow, Nat.cast_ofNat]
  rw [← @Nat.cast_le ℚ, hcast, ← le_div_iff₀ hpos, cast_div_units, hsplit, le_div_iff₀ hunit]

/-- The unit in which a quotient is counted: the one in which it fills the mantissa, unless that is
below the least one. -/
theorem unitOf_spec (f : Format) {n d : Nat} (hn : 0 < n) (hd : 0 < d) :
    ∃ u : Int, f.unitOf n d = max u f.least ∧
      (2 : ℚ) ^ ((f.precision : Int) + u - 1) ≤ (n : ℚ) / d ∧
      (n : ℚ) / d < (2 : ℚ) ^ ((f.precision : Int) + u) := by
  obtain ⟨hlow, hhigh⟩ := quotient_bounds hn hd
  rw [Format.unitOf]
  simp only [le_units_iff hd]
  split_ifs with hfull
  · refine ⟨_, rfl, ?_, ?_⟩
    · rwa [show (f.precision : Int) + ((bitCount n : Int) - bitCount d - f.precision + 1) - 1 =
        f.precision + ((bitCount n : Int) - bitCount d - f.precision) by ring]
    · rwa [show (f.precision : Int) + ((bitCount n : Int) - bitCount d - f.precision + 1) =
        (bitCount n : Int) - bitCount d + 1 by ring]
  · refine ⟨_, rfl, ?_, not_le.mp hfull⟩
    rw [show (f.precision : Int) + ((bitCount n : Int) - bitCount d - f.precision) - 1 =
      (bitCount n : Int) - bitCount d - 1 by ring]
    exact hlow.le

end Units

/-- The mantissas and the exponents of the positive numbers of 64 bits. -/
structure Canonical (mantissa : Nat) (exponent : Int) : Prop where
  pos : 0 < mantissa
  lt : mantissa < 2 ^ 53
  least : -1074 ≤ exponent
  top : exponent ≤ 971
  full : 2 ^ 52 ≤ mantissa ∨ exponent = -1074

def fieldsOf (mantissa : Nat) (exponent : Int) : Nat :=
  (exponent + 1074).toNat * 2 ^ 52 + mantissa

/-- Half the distance to the next number below, in units of the last place. -/
def gapBelow (mantissa : Nat) (exponent : Int) : ℚ :=
  if mantissa = 2 ^ 52 ∧ exponent ≠ -1074 then 1 / 4 else 1 / 2

/-- The rationals that no other number is nearer to than a positive one, of two equally near ones the
number with the even mantissa. -/
structure RoundsTo (mantissa : Nat) (exponent : Int) (v : ℚ) : Prop where
  low : (mantissa - gapBelow mantissa exponent) * 2 ^ exponent ≤ v
  high : v ≤ (mantissa + 1 / 2) * 2 ^ exponent
  odd : mantissa % 2 = 1 →
    (mantissa - gapBelow mantissa exponent) * 2 ^ exponent < v ∧ v < (mantissa + 1 / 2) * 2 ^ exponent

section Rounding

variable {m n d : Nat} {e : Int}

theorem divideToEven_of_near {a b q : Nat} (hb : 0 < b) (hl : (q : ℚ) - 1 / 2 ≤ (a : ℚ) / b)
    (hh : (a : ℚ) / b ≤ q + 1 / 2)
    (hodd : q % 2 = 1 → (q : ℚ) - 1 / 2 < (a : ℚ) / b ∧ (a : ℚ) / b < q + 1 / 2) :
    divideToEven a b = q := by
  have hbpos : (0 : ℚ) < b := by exact_mod_cast hb
  apply divideToEven_eq hb
  · rw [le_div_iff₀ hbpos] at hl
    have h : 2 * ((q : ℚ) * b) ≤ 2 * a + b := by linarith
    exact_mod_cast h
  · rw [div_le_iff₀ hbpos] at hh
    have h : 2 * (a : ℚ) ≤ 2 * (q * b) + b := by linarith
    exact_mod_cast h
  · intro ho
    obtain ⟨hl', hh'⟩ := hodd ho
    rw [lt_div_iff₀ hbpos] at hl'
    rw [div_lt_iff₀ hbpos] at hh'
    have h1 : 2 * ((q : ℚ) * b) < 2 * a + b := by linarith
    have h2 : 2 * (a : ℚ) < 2 * (q * b) + b := by linarith
    exact ⟨by exact_mod_cast h1, by exact_mod_cast h2⟩

theorem exponent_lt {x y : Int} {v : ℚ} (hx : (2 : ℚ) ^ x ≤ v) (hy : v < (2 : ℚ) ^ y) : x < y :=
  (zpow_lt_zpow_iff_right₀ (by norm_num)).mp (lt_of_le_of_lt hx hy)

theorem two_zpow_add (k : Nat) (e : Int) : (2 : ℚ) ^ ((k : Int) + e) = 2 ^ k * (2 : ℚ) ^ e := by
  rw [zpow_add₀ (by norm_num), zpow_natCast]

theorem gapBelow_le (m : Nat) (e : Int) : gapBelow m e ≤ 1 / 2 := by
  rw [gapBelow]
  split_ifs <;> norm_num

theorem lt_of_roundsTo (hc : Canonical m e) {v : ℚ} (hv : RoundsTo m e v) :
    v < (2 : ℚ) ^ (53 + e) := by
  have hm : (m : ℚ) + 1 ≤ 2 ^ 53 := by exact_mod_cast hc.lt
  have hunit : (0 : ℚ) < 2 ^ e := by positivity
  calc
    v ≤ (m + 1 / 2) * 2 ^ e := hv.high
    _ < 2 ^ 53 * 2 ^ e := mul_lt_mul_of_pos_right (by linarith) hunit
    _ = 2 ^ (53 + e) := (two_zpow_add 53 e).symm

/-- Where the value is not below the least mantissa of its exponent, it is counted in units of that
exponent. -/
theorem unitOf_eq (hc : Canonical m e) (hn : 0 < n) (hd : 0 < d)
    (hv : RoundsTo m e ((n : ℚ) / d)) (hfull : (2 : ℚ) ^ (52 + e) ≤ (n : ℚ) / d ∨ e = -1074) :
    Format.double.unitOf n d = e := by
  obtain ⟨u, hu, hlow, hhigh⟩ := unitOf_spec Format.double hn hd
  change (2 : ℚ) ^ (53 + u - 1) ≤ _ at hlow
  change _ < (2 : ℚ) ^ (53 + u) at hhigh
  have hle := exponent_lt hlow (lt_of_roundsTo hc hv)
  have hleast : Format.double.least = -1074 := rfl
  have he := hc.least
  rw [hu, hleast]
  rcases hfull with hfull | rfl
  · have hge := exponent_lt hfull hhigh
    omega
  · omega

/-- A value below the least mantissa of its exponent belongs to a power of two. -/
theorem eq_of_lt_full (hc : Canonical m e) {v : ℚ} (hv : RoundsTo m e v) (he : e ≠ -1074)
    (hlt : v < (2 : ℚ) ^ (52 + e)) : m = 2 ^ 52 := by
  have hunit : (0 : ℚ) < 2 ^ e := by positivity
  have hsplit : (2 : ℚ) ^ (52 + e) = 2 ^ 52 * 2 ^ e := two_zpow_add 52 e
  have hmul : ((m : ℚ) - gapBelow m e) * 2 ^ e < 2 ^ 52 * 2 ^ e := by
    rw [← hsplit]
    exact lt_of_le_of_lt hv.low hlt
  have hm : (m : ℚ) - gapBelow m e < 2 ^ 52 := lt_of_mul_lt_mul_right hmul hunit.le
  have hgap := gapBelow_le m e
  have hlt' : (m : ℚ) < 2 ^ 52 + 1 := by linarith
  have hnat : m < 2 ^ 52 + 1 := by exact_mod_cast hlt'
  have hfull := hc.full.resolve_right he
  omega

/-- The bits of a quotient that is counted in a unit and rounded there. -/
theorem encodeRatio_of_unit {u : Int} {q : Nat} (hn : 0 < n) (hd : 0 < d)
    (hu : Format.double.unitOf n d = u)
    (hl : ((q : ℚ) - 1 / 2) * 2 ^ u ≤ (n : ℚ) / d) (hh : (n : ℚ) / d ≤ (q + 1 / 2) * 2 ^ u)
    (hodd : q % 2 = 1 →
      ((q : ℚ) - 1 / 2) * 2 ^ u < (n : ℚ) / d ∧ (n : ℚ) / d < (q + 1 / 2) * 2 ^ u) :
    Format.double.encodeRatio n d = min ((u + 1074).toNat * 2 ^ 52 + q) (2047 * 2 ^ 52) := by
  have hunit : (0 : ℚ) < 2 ^ u := by positivity
  have hround : divideToEven (n * Nat.pow 2 (-u).toNat) (d * Nat.pow 2 u.toNat) = q := by
    refine divideToEven_of_near (Nat.mul_pos hd (Nat.two_pow_pos _)) ?_ ?_ ?_
    · rwa [cast_div_units, le_div_iff₀ hunit]
    · rwa [cast_div_units, div_le_iff₀ hunit]
    · rwa [cast_div_units, lt_div_iff₀ hunit, div_lt_iff₀ hunit]
  rw [← hround, Format.encodeRatio, if_neg (Nat.ne_of_gt hn), hu]
  rfl

/-- A value below the least mantissa of its exponent is counted in the next smaller unit, in which it is
rounded up to the next power of two. -/
theorem encodeRatio_of_below (hc : Canonical m e) (hn : 0 < n) (hd : 0 < d)
    (hv : RoundsTo m e ((n : ℚ) / d)) (he : e ≠ -1074) (hlow : (n : ℚ) / d < 2 ^ (52 + e)) :
    Format.double.encodeRatio n d = min ((e - 1 + 1074).toNat * 2 ^ 52 + 2 ^ 53) (2047 * 2 ^ 52) := by
  have hleast := hc.least
  have hm := eq_of_lt_full hc hv he hlow
  have hgap : gapBelow m e = 1 / 4 := if_pos ⟨hm, he⟩
  have hprev : (2 : ℚ) ^ e = 2 * 2 ^ (e - 1) := by
    rw [← zpow_one_add₀ (by norm_num)]
    congr 1
    omega
  have hprevpos : (0 : ℚ) < 2 ^ (e - 1) := by positivity
  have hge : (((2 ^ 53 : Nat) : ℚ) - 1 / 2) * 2 ^ (e - 1) ≤ (n : ℚ) / d := by
    have h := hv.low
    rw [hgap, hm, hprev] at h
    push_cast at h ⊢
    linarith
  have hlt : (n : ℚ) / d < ((2 ^ 53 : Nat) : ℚ) * 2 ^ (e - 1) := by
    have hsplit : (2 : ℚ) ^ (52 + e) = 2 ^ 52 * 2 ^ e := two_zpow_add 52 e
    rw [hsplit, hprev] at hlow
    push_cast
    linarith
  have hstart : (2 : ℚ) ^ (52 + (e - 1)) ≤ (n : ℚ) / d := by
    have hsplit : (2 : ℚ) ^ (52 + (e - 1)) = 2 ^ 52 * 2 ^ (e - 1) := two_zpow_add 52 (e - 1)
    rw [hsplit]
    refine le_trans (mul_le_mul_of_nonneg_right ?_ hprevpos.le) hge
    norm_num
  have hu : Format.double.unitOf n d = e - 1 := by
    obtain ⟨u, hu, hlow', hhigh'⟩ := unitOf_spec Format.double hn hd
    change (2 : ℚ) ^ (53 + u - 1) ≤ _ at hlow'
    change _ < (2 : ℚ) ^ (53 + u) at hhigh'
    have h1 := exponent_lt hlow' hlow
    have h2 := exponent_lt hstart hhigh'
    have hbound : Format.double.least = -1074 := rfl
    rw [hu, hbound]
    omega
  have hhigh : (n : ℚ) / d ≤ (((2 ^ 53 : Nat) : ℚ) + 1 / 2) * 2 ^ (e - 1) :=
    hlt.le.trans (mul_le_mul_of_nonneg_right (by linarith) hprevpos.le)
  exact encodeRatio_of_unit hn hd hu hge hhigh (by norm_num)

/-- Every value of the interval of a number is rounded to that number. -/
theorem encodeRatio_eq (hc : Canonical m e) (hn : 0 < n) (hd : 0 < d)
    (hv : RoundsTo m e ((n : ℚ) / d)) : Format.double.encodeRatio n d = fieldsOf m e := by
  have hunit : (0 : ℚ) < 2 ^ e := by positivity
  have hlt := hc.lt
  have htop := hc.top
  have hleast := hc.least
  by_cases hfull : (2 : ℚ) ^ (52 + e) ≤ (n : ℚ) / d ∨ e = -1074
  · have hgap := gapBelow_le m e
    have hle : ((m : ℚ) - 1 / 2) * 2 ^ e ≤ (m - gapBelow m e) * 2 ^ e :=
      mul_le_mul_of_nonneg_right (by linarith) hunit.le
    rw [encodeRatio_of_unit hn hd (unitOf_eq hc hn hd hv hfull) (hle.trans hv.low) hv.high
      fun ho => ⟨lt_of_le_of_lt hle (hv.odd ho).1, (hv.odd ho).2⟩, fieldsOf]
    omega
  · -- the mantissa overflows into the exponent field, which is one more than that of the unit
    obtain ⟨hlow, he⟩ := not_or.mp hfull
    have hm := eq_of_lt_full hc hv he (not_le.mp hlow)
    rw [encodeRatio_of_below hc hn hd hv he (not_le.mp hlow), fieldsOf, hm]
    omega

end Rounding

end Assay.Decimal
