import Mathlib.Data.Nat.Cast.Order.Field
import Assay.Decimal.Shortest
import Assay.Proofs.Decimal.Rounding

namespace Assay.Decimal

section Intervals

def Interval.Contains (i : Interval) (v : ℚ) : Prop :=
  if i.closed then (i.low : ℚ) ≤ v * i.denominator ∧ v * i.denominator ≤ i.high
  else (i.low : ℚ) < v * i.denominator ∧ v * i.denominator < i.high

theorem Interval.holds_iff (i : Interval) (n : Nat) : i.holds n = true ↔ i.Contains n := by
  rw [holds, Contains]
  cases i.closed with
  | false =>
    simp only [Bool.false_eq_true, if_false, Bool.and_eq_true, decide_eq_true_eq]
    constructor <;> rintro ⟨h1, h2⟩ <;> exact ⟨by exact_mod_cast h1, by exact_mod_cast h2⟩
  | true =>
    simp only [if_true, Bool.and_eq_true, decide_eq_true_eq]
    constructor <;> rintro ⟨h1, h2⟩ <;> exact ⟨by exact_mod_cast h1, by exact_mod_cast h2⟩

/-- By what the numbers of an interval are multiplied when it is counted in a power of ten. -/
def upscale (power : Int) : ℚ :=
  10 ^ (-power).toNat

theorem upscale_pos (power : Int) : 0 < upscale power := by
  rw [upscale]
  positivity

theorem cast_inUnits (i : Interval) (power : Int) :
    ((i.inUnits power).low : ℚ) = i.low * upscale power ∧
      ((i.inUnits power).value : ℚ) = i.value * upscale power ∧
      ((i.inUnits power).high : ℚ) = i.high * upscale power ∧
      ((i.inUnits power).denominator : ℚ) = i.denominator * 10 ^ power * upscale power := by
  have hup := upscale_pos power
  have hmul : ∀ n : Nat, ((n * Nat.pow 10 (-power).toNat : Nat) : ℚ) = n * upscale power := by
    intro n
    rw [Nat.cast_mul, Nat.pow_eq, Nat.cast_pow, Nat.cast_ofNat, upscale]
  refine ⟨hmul _, hmul _, hmul _, ?_⟩
  rw [show (i.inUnits power).denominator = i.denominator * 10 ^ power.toNat from rfl, Nat.cast_mul,
    Nat.cast_pow, Nat.cast_ofNat, zpow_eq_div 10 power, ← upscale, mul_assoc,
    div_mul_cancel₀ _ hup.ne']

/-- A rational counted in units of a power of ten lies in the interval that is counted in them. -/
theorem Interval.contains_inUnits (i : Interval) (power : Int) (v : ℚ) :
    (i.inUnits power).Contains v ↔ i.Contains (v * 10 ^ power) := by
  have hup := upscale_pos power
  obtain ⟨hlow, _, hhigh, hden⟩ := cast_inUnits i power
  have hclosed : (i.inUnits power).closed = i.closed := rfl
  have hscale : v * (i.denominator * 10 ^ power * upscale power) =
      v * 10 ^ power * i.denominator * upscale power := by
    ring
  rw [Contains, Contains, hlow, hhigh, hden, hclosed, hscale, mul_le_mul_iff_left₀ hup,
    mul_le_mul_iff_left₀ hup, mul_lt_mul_iff_left₀ hup, mul_lt_mul_iff_left₀ hup]

/-- A quarter of the last place of a number, counted in the denominator of its interval. -/
theorem cast_scale (m : Nat) (e : Int) :
    ((Nat.pow 2 (e - 2).toNat : Nat) : ℚ) = 2 ^ e / 4 * (Interval.around m e).denominator := by
  have hden : ((Interval.around m e).denominator : ℚ) = 2 ^ (-(e - 2)).toNat := by
    rw [show (Interval.around m e).denominator = 2 ^ (2 - e).toNat from rfl, Nat.cast_pow,
      Nat.cast_ofNat, show -(e - 2) = 2 - e by ring]
  have hquarter : (2 : ℚ) ^ (e - 2) = 2 ^ e / 4 := by
    rw [zpow_sub₀ (by norm_num)]
    norm_num
  have hpos : (0 : ℚ) < 2 ^ (-(e - 2)).toNat := by positivity
  rw [hden, ← hquarter, zpow_eq_div 2 (e - 2), div_mul_cancel₀ _ hpos.ne', Nat.pow_eq, Nat.cast_pow,
    Nat.cast_ofNat]

theorem cast_low {m : Nat} (hm : 0 < m) (e : Int) :
    ((Interval.around m e).low : ℚ) =
      (m - gapBelow m e) * 2 ^ e * (Interval.around m e).denominator := by
  rw [show (Interval.around m e).low =
    (4 * m - if m = 0x10000000000000 ∧ e ≠ -1074 then 1 else 2) * Nat.pow 2 (e - 2).toNat from rfl,
    Nat.cast_mul, cast_scale m e, gapBelow]
  by_cases hpower : m = 2 ^ 52 ∧ e ≠ -1074
  · rw [if_pos hpower, if_pos (by exact hpower), Nat.cast_sub (by omega)]
    push_cast
    ring
  · rw [if_neg hpower, if_neg (by exact hpower), Nat.cast_sub (by omega)]
    push_cast
    ring

theorem cast_value (m : Nat) (e : Int) :
    ((Interval.around m e).value : ℚ) = m * 2 ^ e * (Interval.around m e).denominator := by
  rw [show (Interval.around m e).value = 4 * m * Nat.pow 2 (e - 2).toNat from rfl, Nat.cast_mul,
    cast_scale m e]
  push_cast
  ring

theorem cast_high (m : Nat) (e : Int) :
    ((Interval.around m e).high : ℚ) = (m + 1 / 2) * 2 ^ e * (Interval.around m e).denominator := by
  rw [show (Interval.around m e).high = (4 * m + 2) * Nat.pow 2 (e - 2).toNat from rfl, Nat.cast_mul,
    cast_scale m e]
  push_cast
  ring

/-- What an interval around a number contains is rounded to the number. -/
theorem roundsTo_of_contains {m : Nat} {e : Int} (hm : 0 < m) {v : ℚ}
    (h : (Interval.around m e).Contains v) : RoundsTo m e v := by
  have hden : (0 : ℚ) < (Interval.around m e).denominator := by
    exact_mod_cast Nat.two_pow_pos (2 - e).toNat
  rw [Interval.Contains, cast_low hm, cast_high, mul_le_mul_iff_left₀ hden, mul_le_mul_iff_left₀ hden,
    mul_lt_mul_iff_left₀ hden, mul_lt_mul_iff_left₀ hden] at h
  by_cases heven : m % 2 = 0
  · have hclosed : (Interval.around m e).closed = true := decide_eq_true heven
    rw [hclosed, if_pos rfl] at h
    exact ⟨h.1, h.2, fun ho => by omega⟩
  · have hopen : (Interval.around m e).closed = false := decide_eq_false heven
    rw [hopen, if_neg Bool.false_ne_true] at h
    exact ⟨h.1.le, h.2.le, fun _ => h⟩

end Intervals

section Search

theorem Interval.holds_of_nearest? {i : Interval} {n : Nat} (h : i.nearest? = some n) :
    0 < n ∧ i.holds n = true := by
  rw [nearest?] at h
  simp only [Bool.and_eq_true, decide_eq_true_eq] at h
  split_ifs at h with hboth hnear hlow hhigh
  · cases h
    exact ⟨hboth.1.2, hboth.1.1⟩
  · cases h
    exact ⟨Nat.succ_pos _, hboth.2⟩
  · cases h
    exact ⟨hlow.2, hlow.1⟩
  · cases h
    exact ⟨Nat.succ_pos _, hhigh⟩

def Scaled.value (s : Scaled) : ℚ :=
  s.digits * 10 ^ s.power

/-- What the search finds lies in the interval. -/
theorem Interval.contains_of_search {i : Interval} {tries count : Nat} {s : Scaled}
    (h : i.search tries count = some s) : 0 < s.digits ∧ i.Contains s.value := by
  induction tries generalizing count with
  | zero => cases h
  | succ tries ih =>
    rw [search] at h
    split at h
    · rename_i digits hn
      cases h
      obtain ⟨hpos, hholds⟩ := holds_of_nearest? hn
      exact ⟨hpos, (contains_inUnits i _ _).mp ((holds_iff _ _).mp hholds)⟩
    · exact ih h

/-- The search finds a decimal when there is one on the last grid. -/
theorem Interval.search_isSome {i : Interval} {tries count : Nat} (ht : 0 < tries)
    (h : (i.inUnits (i.leadingPower - ((count + tries - 1 : Nat) : Int) + 1)).nearest?.isSome = true) :
    (i.search tries count).isSome = true := by
  induction tries generalizing count with
  | zero => exact absurd ht (Nat.lt_irrefl 0)
  | succ tries ih =>
    rw [search]
    split
    · rfl
    · rename_i hn
      rcases Nat.eq_zero_or_pos tries with rfl | hpos
      · rw [Nat.add_sub_cancel, hn] at h
        cases h
      · apply ih hpos
        rwa [show count + 1 + tries - 1 = count + (tries + 1) - 1 by omega]

theorem lt_pow_digitCount (n : Nat) : n < 10 ^ digitCount n := by
  rw [digitCount]
  split_ifs with h
  · simp [h]
  · exact (Nat.length_toDigits_le_iff (by norm_num) Nat.length_toDigits_pos).mp (Nat.le_refl _)

theorem pow_digitCount_le {n : Nat} (h : 0 < n) : 10 ^ (digitCount n - 1) ≤ n := by
  rw [digitCount, if_neg (Nat.ne_of_gt h)]
  have hpos : 0 < (Nat.toDigits 10 n).length := Nat.length_toDigits_pos
  rcases Nat.eq_or_lt_of_le hpos with hone | hmore
  · rw [← hone]
    exact h
  · by_contra hlt
    have hle := (Nat.length_toDigits_le_iff (by norm_num) (by omega)).mpr (Nat.lt_of_not_le hlt)
    omega

theorem Interval.leadingPower_le {i : Interval} (hv : 0 < i.value) (hd : 0 < i.denominator) :
    (10 : ℚ) ^ i.leadingPower ≤ (i.value : ℚ) / i.denominator := by
  have hdpos : (0 : ℚ) < i.denominator := by exact_mod_cast hd
  rw [leadingPower]
  split_ifs with hle
  · have hquot : 0 < i.value / i.denominator := Nat.div_pos hle hd
    have hpow : 10 ^ (digitCount (i.value / i.denominator) - 1) ≤ i.value / i.denominator :=
      pow_digitCount_le hquot
    have hcount : 1 ≤ digitCount (i.value / i.denominator) := by
      by_contra h0
      have h := lt_pow_digitCount (i.value / i.denominator)
      rw [Nat.lt_one_iff.mp (Nat.lt_of_not_le h0)] at h
      omega
    calc
      (10 : ℚ) ^ ((digitCount (i.value / i.denominator) : Int) - 1) =
          ((10 ^ (digitCount (i.value / i.denominator) - 1) : Nat) : ℚ) := by
        rw [Nat.cast_pow, ← zpow_natCast, Nat.cast_sub hcount]
        norm_num
      _ ≤ ((i.value / i.denominator : Nat) : ℚ) := by exact_mod_cast hpow
      _ ≤ (i.value : ℚ) / i.denominator := Nat.cast_div_le
  · -- the ceiling of the inverse is at most the power of ten above the number before it
    have hdiv := Nat.div_add_mod (i.denominator + i.value - 1) i.value
    have hmod := Nat.mod_lt (i.denominator + i.value - 1) hv
    have hceil := lt_pow_digitCount ((i.denominator + i.value - 1) / i.value - 1)
    generalize (i.denominator + i.value - 1) / i.value = ceil at *
    have hpow : i.denominator ≤ i.value * 10 ^ digitCount (ceil - 1) := by
      calc
        i.denominator ≤ i.value * ceil := by omega
        _ ≤ i.value * 10 ^ digitCount (ceil - 1) := Nat.mul_le_mul_left _ (by omega)
    have hcast : (i.denominator : ℚ) ≤ i.value * 10 ^ digitCount (ceil - 1) := by exact_mod_cast hpow
    rw [zpow_neg, zpow_natCast, le_div_iff₀ hdpos, inv_mul_le_iff₀ (by positivity)]
    linarith

/-- An interval that is wider than one contains one of the two whole numbers next to its value. -/
theorem Interval.nearest?_isSome {i : Interval} (hd : 0 < i.denominator) (hv : i.denominator ≤ i.value)
    (hl : i.low < i.value) (hh : i.value < i.high) (hwide : i.low + i.denominator < i.high) :
    i.nearest?.isSome = true := by
  have hpos : 0 < i.value / i.denominator := Nat.div_pos hv hd
  have hdiv := Nat.div_add_mod' i.value i.denominator
  have hmod := Nat.mod_lt i.value hd
  have hone : i.holds (i.value / i.denominator) = true ∨
      i.holds (i.value / i.denominator + 1) = true := by
    rw [holds, holds, Nat.succ_mul]
    generalize i.value / i.denominator * i.denominator = down at *
    cases i.closed with
    | false =>
      simp only [Bool.false_eq_true, if_false, Bool.and_eq_true, decide_eq_true_eq]
      omega
    | true =>
      simp only [if_true, Bool.and_eq_true, decide_eq_true_eq]
      omega
  rw [nearest?]
  simp only [Bool.and_eq_true, decide_eq_true_eq]
  split_ifs with hboth hnear hlow hhigh
  · rfl
  · rfl
  · rfl
  · rfl
  · rcases hone with h | h
    · exact absurd ⟨h, hpos⟩ hlow
    · exact absurd h hhigh

/-- The same for an interval of rationals that is counted in any unit. -/
theorem Interval.nearest?_isSome_of_cast {i : Interval} {low value high step unit : ℚ} (hu : 0 < unit)
    (hl : (i.low : ℚ) = low * unit) (hv : (i.value : ℚ) = value * unit)
    (hh : (i.high : ℚ) = high * unit) (hd : (i.denominator : ℚ) = step * unit) (hs : 0 < step)
    (hle : step ≤ value) (hlow : low < value) (hhigh : value < high) (hwide : low + step < high) :
    i.nearest?.isSome = true := by
  have hlt : ∀ {a b : Nat} {x y : ℚ}, (a : ℚ) = x * unit → (b : ℚ) = y * unit → x < y → a < b := by
    intro a b x y ha hb hxy
    have hcast : (a : ℚ) < b := by
      rw [ha, hb]
      exact mul_lt_mul_of_pos_right hxy hu
    exact_mod_cast hcast
  apply Interval.nearest?_isSome
  · have hpos : (0 : ℚ) < i.denominator := by
      rw [hd]
      exact mul_pos hs hu
    exact_mod_cast hpos
  · have hcast : (i.denominator : ℚ) ≤ i.value := by
      rw [hd, hv]
      exact mul_le_mul_of_nonneg_right hle hu.le
    exact_mod_cast hcast
  · exact hlt hl hv hlow
  · exact hlt hv hh hhigh
  · refine hlt (x := low + step) ?_ hh hwide
    rw [Nat.cast_add, hl, hd, add_mul]

/-- On the grid of seventeen digits two points are nearer to each other than the ends of the interval of
a number. -/
theorem grid_lt_width {m : Nat} {e : Int} (hc : Canonical m e) {t : ℚ} (ht : 10 ^ 16 * t ≤ m * 2 ^ e) :
    t < (gapBelow m e + 1 / 2) * 2 ^ e := by
  have hunit : (0 : ℚ) < 2 ^ e := by positivity
  have hm : (m : ℚ) < 10 ^ 16 * (gapBelow m e + 1 / 2) := by
    rw [gapBelow]
    split_ifs with hpower
    · rw [hpower.1]
      norm_num
    · have hlt : (m : ℚ) < 2 ^ 53 := by exact_mod_cast hc.lt
      have hpow : (2 : ℚ) ^ 53 ≤ 10 ^ 16 * (1 / 2 + 1 / 2) := by norm_num
      exact lt_of_lt_of_le hlt hpow
  have hmul : (m : ℚ) * 2 ^ e < 10 ^ 16 * (gapBelow m e + 1 / 2) * 2 ^ e :=
    mul_lt_mul_of_pos_right hm hunit
  linarith

theorem gapBelow_pos (m : Nat) (e : Int) : 0 < gapBelow m e := by
  rw [gapBelow]
  split_ifs <;> norm_num

/-- The search finds a decimal for every number. -/
theorem around_search_isSome {m : Nat} {e : Int} (hc : Canonical m e) :
    ((Interval.around m e).search mostDigits 1).isSome = true := by
  have hunit : (0 : ℚ) < 2 ^ e := by positivity
  have hgap := gapBelow_pos m e
  have hd : 0 < (Interval.around m e).denominator := Nat.two_pow_pos _
  have hdpos : (0 : ℚ) < (Interval.around m e).denominator := by exact_mod_cast hd
  have hmpos : (0 : ℚ) < m := by exact_mod_cast hc.pos
  have hv : 0 < (Interval.around m e).value := by
    have h : (0 : ℚ) < (Interval.around m e).value := by
      rw [cast_value]
      positivity
    exact_mod_cast h
  have hlead := Interval.leadingPower_le hv hd
  rw [cast_value, mul_div_cancel_right₀ _ hdpos.ne'] at hlead
  apply Interval.search_isSome (by decide)
  have hpower : (Interval.around m e).leadingPower - ((1 + mostDigits - 1 : Nat) : Int) + 1 =
      (Interval.around m e).leadingPower - 16 := by
    rw [mostDigits]
    omega
  rw [hpower]
  generalize (Interval.around m e).leadingPower = lead at *
  have hgrid : 10 ^ 16 * (10 : ℚ) ^ (lead - 16) ≤ m * 2 ^ e := by
    have hsplit : (10 : ℚ) ^ lead = 10 ^ 16 * (10 : ℚ) ^ (lead - 16) := by
      rw [← zpow_natCast, ← zpow_add₀ (by norm_num)]
      congr 1
      omega
    rwa [← hsplit]
  have hstep : (0 : ℚ) < 10 ^ (lead - 16) := by positivity
  have hwidth := grid_lt_width hc hgrid
  obtain ⟨hlow, hvalue, hhigh, hden⟩ := cast_inUnits (Interval.around m e) (lead - 16)
  rw [cast_low hc.pos, mul_assoc] at hlow
  rw [cast_value, mul_assoc] at hvalue
  rw [cast_high, mul_assoc] at hhigh
  rw [mul_right_comm, mul_comm] at hden
  refine Interval.nearest?_isSome_of_cast (mul_pos hdpos (upscale_pos (lead - 16))) hlow hvalue hhigh
    hden hstep (by linarith) ?_ ?_ (by linarith)
  · exact mul_lt_mul_of_pos_right (by linarith) hunit
  · exact mul_lt_mul_of_pos_right (by linarith) hunit

end Search

theorem Scaled.value_strip (tries : Nat) (s : Scaled) : (s.strip tries).value = s.value := by
  induction tries generalizing s with
  | zero => rfl
  | succ tries ih =>
    rw [strip]
    split_ifs with h
    · rw [ih, value, value]
      have hdiv : s.digits = s.digits / 10 * 10 := by omega
      have hcast : (s.digits : ℚ) = ((s.digits / 10 : Nat) : ℚ) * 10 := by exact_mod_cast hdiv
      rw [hcast, zpow_add_one₀ (by norm_num)]
      ring
    · rfl

theorem Scaled.strip_pos (tries : Nat) {s : Scaled} (h : 0 < s.digits) :
    0 < (s.strip tries).digits := by
  induction tries generalizing s with
  | zero => exact h
  | succ tries ih =>
    rw [strip]
    split_ifs with hzero
    · apply ih
      change 0 < s.digits / 10
      omega
    · exact h

/-- The shortest decimal of a number is rounded to the number. -/
theorem shortest_roundsTo {m : Nat} {e : Int} (hc : Canonical m e) :
    0 < (shortest m e).digits ∧ RoundsTo m e (shortest m e).value := by
  obtain ⟨s, hs⟩ := Option.isSome_iff_exists.mp (around_search_isSome hc)
  obtain ⟨hpos, hcontains⟩ := Interval.contains_of_search hs
  rw [shortest, hs]
  exact ⟨Scaled.strip_pos _ hpos, by
    rw [Scaled.value_strip]
    exact roundsTo_of_contains hc.pos hcontains⟩

end Assay.Decimal
