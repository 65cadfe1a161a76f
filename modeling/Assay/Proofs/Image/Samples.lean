import Mathlib.Data.Nat.Init
import Assay.Image.Sample
import Assay.Proofs.Decimal.Text

namespace Assay.Decimal

namespace Format

theorem fractions_pos (f : Format) : 0 < f.fractions :=
  Nat.two_pow_pos _

theorem encodeMagnitude_le (f : Format) (mantissa : Nat) (exponent : Int) :
    f.encodeMagnitude mantissa exponent ≤ f.top * f.fractions := by
  rw [encodeMagnitude]
  split_ifs
  · exact Nat.zero_le _
  · exact Nat.min_le_right _ _

theorem encode_lt (f : Format) (b : Binary) : f.encode b < 2 * f.signBit := by
  have hpos := f.fractions_pos
  have hsign : f.signBit = f.top * f.fractions + f.fractions := by
    rw [signBit, Nat.succ_mul]
  cases b with
  | nan =>
    rw [encode]
    omega
  | infinite negative =>
    rw [encode]
    split_ifs <;> omega
  | finite negative mantissa exponent =>
    have hle := f.encodeMagnitude_le mantissa exponent
    rw [encode]
    split_ifs <;> omega

end Format

end Assay.Decimal

namespace Assay.Image

open Assay.Decimal

/-- What a stored type keeps of a sample. An integer type keeps the whole number within its range, a
real type the nearest number of its format. -/
def stored (t : ElementType) (x : Float) : Float :=
  match t.coding with
  | .unsigned => ofInt (truncateTo 0 ((span t.size : Int) - 1) x)
  | .signed =>
    let half : Int := span t.size / 2
    ofInt (truncateTo (-half) (half - 1) x)
  | .real format => (format.decode (format.encode (Binary.ofFloat x))).toFloat

theorem span_pos (count : Nat) : 0 < span count := by
  induction count with
  | zero => exact Nat.one_pos
  | succ count ih => exact Nat.mul_pos (by norm_num) ih

theorem span_even (t : ElementType) : 2 * (span t.size / 2) = span t.size := by
  obtain ⟨count, hcount⟩ := Nat.exists_eq_succ_of_ne_zero (Nat.ne_of_gt t.size_pos)
  rw [hcount, span]
  omega

theorem span_of_real {t : ElementType} {f : Format} (h : t.coding = .real f) :
    span t.size = 2 * f.signBit := by
  cases t <;> cases h <;> rfl

theorem truncateTo_mem {low high : Int} (hl : low ≤ 0) (hh : 0 ≤ high) (x : Float) :
    low ≤ truncateTo low high x ∧ truncateTo low high x ≤ high := by
  rw [truncateTo]
  cases Binary.ofFloat x with
  | nan => exact ⟨hl, hh⟩
  | infinite negative =>
    dsimp only
    split_ifs <;> omega
  | finite negative mantissa exponent => exact clamp_mem (Int.le_trans hl hh)

theorem encodeBits_lt (t : ElementType) (x : Float) : encodeBits t x < span t.size := by
  have hspan := span_pos t.size
  rw [encodeBits]
  cases hc : t.coding with
  | unsigned =>
    obtain ⟨hlow, hhigh⟩ := @truncateTo_mem 0 ((span t.size : Int) - 1) (by omega) (by omega) x
    dsimp only
    omega
  | signed =>
    dsimp only
    have hlow := Int.emod_nonneg
      (truncateTo (-((span t.size : Int) / 2)) ((span t.size : Int) / 2 - 1) x)
      (show (span t.size : Int) ≠ 0 by omega)
    have hhigh := Int.emod_lt_of_pos
      (truncateTo (-((span t.size : Int) / 2)) ((span t.size : Int) / 2 - 1) x)
      (show (0 : Int) < span t.size by omega)
    omega
  | real format =>
    rw [span_of_real hc]
    exact format.encode_lt _

/-- A whole number with a sign is stored as its remainder, a negative one in the upper half. -/
theorem ofInt_wrapped {n : Int} {count : Nat} (heven : 2 * (count / 2) = count)
    (hlow : -((count : Int) / 2) ≤ n) (hhigh : n ≤ (count : Int) / 2 - 1) :
    (if 2 * (n % (count : Int)).toNat < count then ofInt ((n % (count : Int)).toNat : Nat)
      else ofInt (((n % (count : Int)).toNat : Nat) - (count : Int))) = ofInt n := by
  rcases Int.lt_or_le n 0 with hneg | hpos
  · have hmod : n % (count : Int) = n + count := by
      rw [← Int.add_emod_right, Int.emod_eq_of_lt (by omega) (by omega)]
    have hnat : (((n + count).toNat : Nat) : Int) = n + count := Int.toNat_of_nonneg (by omega)
    rw [hmod, if_neg (by omega), hnat, Int.add_sub_cancel]
  · have hmod : n % (count : Int) = n := Int.emod_eq_of_lt hpos (by omega)
    have hnat : ((n.toNat : Nat) : Int) = n := Int.toNat_of_nonneg hpos
    rw [hmod, if_pos (by omega), hnat]

/-- The bits of a sample stand for what its type keeps of it. -/
theorem decodeBits_encodeBits (t : ElementType) (x : Float) :
    decodeBits t (encodeBits t x) = stored t x := by
  have hspan := span_pos t.size
  have heven := span_even t
  rw [encodeBits, decodeBits, stored]
  cases hc : t.coding with
  | unsigned =>
    obtain ⟨hlow, _⟩ := @truncateTo_mem 0 ((span t.size : Int) - 1) (by omega) (by omega) x
    dsimp only
    rw [Int.toNat_of_nonneg hlow]
  | signed =>
    obtain ⟨hlow, hhigh⟩ := @truncateTo_mem (-((span t.size : Int) / 2))
      ((span t.size : Int) / 2 - 1) (by omega) (by omega) x
    dsimp only
    exact ofInt_wrapped heven hlow hhigh
  | real format => rfl

theorem decodeSample_encodeSample (t : ElementType) (x : Float) :
    decodeSample t false (encodeSample t x) = stored t x := by
  rw [decodeSample, if_neg Bool.false_ne_true, encodeSample, ofLowBytes_lowBytes,
    Nat.mod_eq_of_lt (encodeBits_lt t x), decodeBits_encodeBits]

@[simp] theorem length_encodeSamples (t : ElementType) (xs : List Float) :
    (encodeSamples t xs).length = xs.length * t.size := by
  induction xs with
  | nil => simp [encodeSamples]
  | cons x rest ih =>
    rw [encodeSamples] at ih
    rw [encodeSamples, List.flatMap_cons, List.length_append, ih, length_encodeSample,
      List.length_cons, Nat.succ_mul, Nat.add_comm]

/-- The samples that are read are what the type keeps of the written ones. -/
theorem decodeSamples_encodeSamples (t : ElementType) (xs : List Float) :
    decodeSamples t false xs.length (encodeSamples t xs) = xs.map (stored t) := by
  induction xs with
  | nil => rfl
  | cons x rest ih =>
    have htake : (encodeSample t x ++ rest.flatMap (encodeSample t)).take t.size =
        encodeSample t x :=
      List.take_left' (length_encodeSample t x)
    have hdrop : (encodeSample t x ++ rest.flatMap (encodeSample t)).drop t.size =
        rest.flatMap (encodeSample t) :=
      List.drop_left' (length_encodeSample t x)
    rw [encodeSamples, List.flatMap_cons, List.length_cons, decodeSamples, htake, hdrop,
      decodeSample_encodeSample, List.map_cons, ← ih, encodeSamples]

end Assay.Image
