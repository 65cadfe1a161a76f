import Assay.Decimal.Notation
import Assay.Proofs.Decimal.Bits
import Assay.Proofs.Decimal.Shortest
import Assay.Proofs.Text.Blank

namespace Assay.Decimal

open Assay.Text

section Digits

def AllDigits (s : List Char) : Prop :=
  ∀ c ∈ s, isDigit c = true

theorem bounds_of_isDigit {c : Char} (h : isDigit c = true) : '0' ≤ c ∧ c ≤ '9' := by
  rw [isDigit, digit?] at h
  split_ifs at h with hc
  · exact hc
  · cases h

theorem digit?_eq {c : Char} (h : isDigit c = true) : digit? c = some (c.toNat - '0'.toNat) := by
  rw [digit?, if_pos (bounds_of_isDigit h)]
  rfl

theorem allDigits_toDigits (n : Nat) : AllDigits (Nat.toDigits 10 n) := by
  intro c hc
  have h := Nat.isDigit_of_mem_toDigits (by decide) (by decide) hc
  rw [Char.isDigit, Bool.and_eq_true, decide_eq_true_eq, decide_eq_true_eq] at h
  rw [isDigit, digit?, if_pos]
  · rfl
  · exact h

theorem AllDigits.append {s t : List Char} (hs : AllDigits s) (ht : AllDigits t) :
    AllDigits (s ++ t) := by
  intro c hc
  rcases List.mem_append.mp hc with h | h
  · exact hs c h
  · exact ht c h

theorem allDigits_zeros (n : Nat) : AllDigits (List.replicate n '0') := by
  intro c hc
  rw [List.eq_of_mem_replicate hc]
  rfl

theorem digitsFrom_eq {s : List Char} (h : AllDigits s) (n : Nat) :
    digitsFrom n s = some (Nat.ofDigitChars 10 s n) := by
  induction s generalizing n with
  | nil => rfl
  | cons c rest ih =>
    rw [digitsFrom, digit?_eq (h c List.mem_cons_self), Option.bind_some,
      ih fun d hd => h d (List.mem_cons_of_mem c hd), Nat.ofDigitChars_cons]

theorem digits?_eq {s : List Char} (h : AllDigits s) (hne : s ≠ []) :
    digits? s = some (Nat.ofDigitChars 10 s 0) := by
  rw [digits?, List.isEmpty_eq_false_iff.mpr hne, if_neg Bool.false_ne_true, digitsFrom_eq h]

theorem isBlank_of_isDigit {c : Char} (h : isDigit c = true) : isBlank c = false := by
  have hlow : 48 ≤ c.toNat := (bounds_of_isDigit h).1
  have hhigh : c.toNat ≤ 57 := (bounds_of_isDigit h).2
  simp only [isBlank, Bool.or_eq_false_iff, Bool.and_eq_false_iff, decide_eq_false_iff_not,
    beq_eq_false_iff_ne]
  omega

theorem isWord_toString (n : Nat) : IsWord (toString n).toList := by
  rw [Nat.toString_eq_repr, Nat.toList_repr]
  exact ⟨Nat.toDigits_ne_nil, fun c hc => isBlank_of_isDigit (allDigits_toDigits n c hc)⟩

/-- The text of a size reads back. -/
theorem size?_toString {n : Nat} (h : n < sizeLimit) : size? (toString n).toList = some n := by
  have hdigits := allDigits_toDigits n
  have hread : digits? (Nat.toDigits 10 n) = some n := by
    rw [digits?_eq hdigits Nat.toDigits_ne_nil, Nat.ofDigitChars_ten_toDigits]
  have hsign : ∀ rest, Nat.toDigits 10 n ≠ '+' :: rest := by
    intro rest he
    have hplus := hdigits '+' (he ▸ List.mem_cons_self)
    exact absurd hplus (by decide)
  rw [Nat.toString_eq_repr, Nat.toList_repr, size?]
  · rw [hread, Option.filter_some, if_pos (decide_eq_true h)]
  · exact hsign

theorem takeWhile_digits {s : List Char} (h : AllDigits s) {rest : List Char}
    (hrest : ∀ c, rest.head? = some c → isDigit c = false) :
    (s ++ rest).takeWhile isDigit = s ∧ (s ++ rest).dropWhile isDigit = rest := by
  rw [List.takeWhile_append_of_pos h, List.dropWhile_append_of_pos h]
  cases rest with
  | nil => simp
  | cons c rest =>
    have hc := hrest c rfl
    simp [hc]

theorem magnitude?_whole {s : List Char} (h : AllDigits s) (hne : s ≠ []) :
    magnitude? s = some (ofScaled (Nat.ofDigitChars 10 s 0) 0) := by
  obtain ⟨htake, hdrop⟩ := @takeWhile_digits s h [] (by simp)
  rw [List.append_nil] at htake hdrop
  rw [magnitude?]
  simp only [htake, hdrop, List.append_nil, digits?_eq h hne]
  rfl

theorem magnitude?_point {whole fraction : List Char} (hw : AllDigits whole) (hf : AllDigits fraction)
    (hne : whole ≠ []) :
    magnitude? (whole ++ '.' :: fraction) =
      some (ofScaled (Nat.ofDigitChars 10 (whole ++ fraction) 0) (0 - (fraction.length : Int))) := by
  obtain ⟨htake, hdrop⟩ := @takeWhile_digits whole hw ('.' :: fraction) (by
    intro c hc
    cases hc
    rfl)
  obtain ⟨htake', hdrop'⟩ := @takeWhile_digits fraction hf [] (by simp)
  rw [List.append_nil] at htake' hdrop'
  rw [magnitude?]
  simp only [htake, hdrop, htake', hdrop', digits?_eq (hw.append hf) (by simp [hne])]

/-- A text that starts with a digit is no name and has no sign. -/
theorem real?_of_digit {s : List Char} {c : Char} (hc : isDigit c = true) :
    real? (c :: s) = magnitude? (c :: s) ∧ unsigned? (c :: s) = magnitude? (c :: s) := by
  have hne : ∀ d, isDigit d = false → c ≠ d := by
    rintro d hd rfl
    rw [hc] at hd
    cases hd
  have hunsigned : unsigned? (c :: s) = magnitude? (c :: s) := by
    have hlower : c.toLower = c := by
      rw [Char.toLower, dif_neg]
      rintro ⟨hge, _⟩
      have hle : 'A'.val ≤ '9'.val := UInt32.le_trans hge (bounds_of_isDigit hc).2
      exact absurd hle (by decide)
    have hname : ∀ name : List Char, name.head?.any isDigit = false →
        lowerAscii (c :: s) ≠ name := by
      rintro name hhead rfl
      rw [lowerAscii, List.map_cons, hlower, List.head?_cons, Option.any_some, hc] at hhead
      cases hhead
    rw [unsigned?, if_neg, if_neg]
    · exact hname _ (by decide)
    · rw [not_or]
      exact ⟨hname _ (by decide), hname _ (by decide)⟩
  refine ⟨?_, hunsigned⟩
  rw [real?]
  · exact hunsigned
  · rintro rest h
    exact hne '-' (by decide) (List.cons.inj h).1
  · rintro rest h
    exact hne '+' (by decide) (List.cons.inj h).1

end Digits

section Values

/-- The three texts of a decimal without an exponent: a fraction below one, a whole number, or digits
with the point among them. -/
theorem positional_cases (s : Scaled) :
    (∃ zeros : Nat, s.placed.positional =
        ['0'] ++ '.' :: (List.replicate zeros '0' ++ Nat.toDigits 10 s.digits) ∧
      s.power = 0 - ((zeros + (Nat.toDigits 10 s.digits).length : Nat) : Int)) ∨
    (∃ zeros : Nat, s.placed.positional = Nat.toDigits 10 s.digits ++ List.replicate zeros '0' ∧
      s.power = zeros) ∨
    ∃ whole fraction, s.placed.positional = whole ++ '.' :: fraction ∧ whole ≠ [] ∧
      Nat.toDigits 10 s.digits = whole ++ fraction ∧ s.power = 0 - (fraction.length : Int) := by
  have hlen : 0 < (Nat.toDigits 10 s.digits).length := Nat.length_toDigits_pos
  rw [Scaled.placed, Placed.positional]
  simp only
  generalize Nat.toDigits 10 s.digits = ds at *
  have hnat : 0 ≤ (ds.length : Int) + s.power →
      ((((ds.length : Int) + s.power).toNat : Nat) : Int) = (ds.length : Int) + s.power :=
    Int.toNat_of_nonneg
  generalize hp : (ds.length : Int) + s.power = point at *
  split_ifs with hfront hback
  · have hzeros := Int.toNat_of_nonneg (Int.neg_nonneg_of_nonpos hfront)
    exact Or.inl ⟨_, rfl, by omega⟩
  · exact Or.inr (Or.inl ⟨_, rfl, by omega⟩)
  · refine Or.inr (Or.inr ⟨_, _, rfl, ?_, (List.take_append_drop _ _).symm, ?_⟩)
    · have hpos : 0 < (ds.take point.toNat).length := by
        rw [List.length_take]
        omega
      exact List.ne_nil_of_length_pos hpos
    · rw [List.length_drop]
      omega

theorem positional_cons (s : Scaled) :
    ∃ c rest, s.placed.positional = c :: rest ∧ isDigit c = true := by
  have hall := allDigits_toDigits s.digits
  have hdigit : ∀ {front : List Char}, AllDigits front → front ≠ [] → ∀ back,
      ∃ c rest, front ++ back = c :: rest ∧ isDigit c = true := by
    intro front hf hne back
    obtain ⟨c, rest, rfl⟩ := List.exists_cons_of_ne_nil hne
    exact ⟨c, rest ++ back, rfl, hf c List.mem_cons_self⟩
  rcases positional_cases s with ⟨zeros, hs, _⟩ | ⟨zeros, hs, _⟩ | ⟨whole, fraction, hs, hne, hsplit, _⟩
  · exact ⟨'0', _, hs, rfl⟩
  · rw [hs]
    exact hdigit hall Nat.toDigits_ne_nil _
  · rw [hs]
    rw [hsplit] at hall
    exact hdigit (fun c hc => hall c (List.mem_append_left _ hc)) hne _

/-- The text of a decimal without an exponent stands for a decimal of the same value. -/
theorem magnitude?_positional {s : Scaled} (h : 0 < s.digits) :
    ∃ digits power, magnitude? s.placed.positional = some (ofScaled digits power) ∧ 0 < digits ∧
      (digits : ℚ) * 10 ^ power = s.value := by
  have hall := allDigits_toDigits s.digits
  have hread : Nat.ofDigitChars 10 (Nat.toDigits 10 s.digits) 0 = s.digits :=
    Nat.ofDigitChars_ten_toDigits
  rcases positional_cases s with ⟨zeros, hs, hpower⟩ | ⟨zeros, hs, hpower⟩ |
    ⟨whole, fraction, hs, hne, hsplit, hpower⟩
  · refine ⟨s.digits, s.power, ?_, h, rfl⟩
    have hm := magnitude?_point (allDigits_zeros 1) ((allDigits_zeros zeros).append hall) (by simp)
    rw [List.length_append, List.length_replicate, ← hpower, Nat.ofDigitChars_append,
      Nat.ofDigitChars_replicate_zero, Nat.ofDigitChars_append, Nat.ofDigitChars_replicate_zero,
      Nat.mul_zero, hread] at hm
    rw [hs]
    exact hm
  · refine ⟨10 ^ zeros * s.digits, 0, ?_, Nat.mul_pos (Nat.pow_pos (by norm_num)) h, ?_⟩
    · rw [hs, magnitude?_whole (hall.append (allDigits_zeros zeros)) (by simp), Nat.ofDigitChars_append,
        Nat.ofDigitChars_replicate_zero, hread]
    · rw [Scaled.value, hpower, zpow_natCast, zpow_zero, mul_one, Nat.cast_mul, Nat.cast_pow,
        Nat.cast_ofNat, mul_comm]
  · rw [hsplit] at hall hread
    refine ⟨s.digits, s.power, ?_, h, rfl⟩
    rw [hs, magnitude?_point (fun c hc => hall c (List.mem_append_left _ hc))
      (fun c hc => hall c (List.mem_append_right _ hc)) hne, hread, ← hpower]

theorem leading_bounds {digits : Nat} (hd : 0 < digits) (power : Int) :
    (10 : ℚ) ^ (((Nat.toDigits 10 digits).length : Int) + power - 1) ≤ digits * 10 ^ power ∧
      (digits : ℚ) * 10 ^ power < 10 ^ (((Nat.toDigits 10 digits).length : Int) + power) := by
  have hlen : 0 < (Nat.toDigits 10 digits).length := Nat.length_toDigits_pos
  obtain ⟨k, hk⟩ := Nat.exists_eq_succ_of_ne_zero (Nat.ne_of_gt hlen)
  have hunit : (0 : ℚ) < 10 ^ power := by positivity
  have hhigh : digits < 10 ^ (k + 1) :=
    (Nat.length_toDigits_le_iff (by norm_num) (Nat.succ_pos k)).mp (Nat.le_of_eq hk)
  have hlow : 10 ^ k ≤ digits := by
    rcases Nat.eq_zero_or_pos k with rfl | hkpos
    · exact hd
    · refine Nat.le_of_not_lt fun hlt => ?_
      have hle := (Nat.length_toDigits_le_iff (by norm_num) hkpos).mpr hlt
      omega
  have hsplit : ∀ j : Nat, (10 : ℚ) ^ ((j : Int) + power) = 10 ^ j * 10 ^ power := by
    intro j
    rw [zpow_add₀ (by norm_num), zpow_natCast]
  have hlast : ((k.succ : Nat) : Int) + power - 1 = (k : Int) + power := by
    rw [Nat.cast_succ]
    omega
  rw [hk, hlast, hsplit, hsplit]
  refine ⟨mul_le_mul_of_nonneg_right ?_ hunit.le, mul_lt_mul_of_pos_right ?_ hunit⟩
  · exact_mod_cast hlow
  · exact_mod_cast hhigh

/-- The values that belong to a number are neither too large nor too small for the powers of ten. -/
theorem range_of_roundsTo {m : Nat} {e : Int} (hc : Canonical m e) {v : ℚ} (hv : RoundsTo m e v) :
    (10 : ℚ) ^ (-400 : Int) < v ∧ v < (10 : ℚ) ^ (400 : Int) := by
  have hgap := gapBelow_le m e
  have hm : (1 : ℚ) ≤ m := by exact_mod_cast hc.pos
  have hleast : (2 : ℚ) ^ (-1074 : Int) ≤ 2 ^ e := zpow_le_zpow_right₀ (by norm_num) hc.least
  have htop : (2 : ℚ) ^ (53 + e) ≤ 2 ^ (1024 : Int) :=
    zpow_le_zpow_right₀ (by norm_num) (by have h := hc.top; omega)
  -- roots keep the powers small enough to be computed
  have hhuge : (2 : ℚ) ^ (1024 : Int) < 10 ^ (400 : Int) := by
    have hroot : ((2 : ℚ) ^ 64) ^ 16 < (10 ^ 25) ^ 16 :=
      pow_lt_pow_left₀ (by norm_num) (by norm_num) (by norm_num)
    rw [← pow_mul, ← pow_mul] at hroot
    exact hroot
  have htiny : (10 : ℚ) ^ (-400 : Int) < 2 ^ (-1075 : Int) := by
    have hroot : ((2 : ℚ) ^ 43) ^ 25 < (10 ^ 16) ^ 25 :=
      pow_lt_pow_left₀ (by norm_num) (by norm_num) (by norm_num)
    rw [← pow_mul, ← pow_mul] at hroot
    rw [zpow_neg, zpow_neg]
    exact inv_strictAnti₀ (by positivity) hroot
  constructor
  · calc
      (10 : ℚ) ^ (-400 : Int) < 2 ^ (-1075 : Int) := htiny
      _ = 1 / 2 * 2 ^ (-1074 : Int) := by
        rw [show (-1075 : Int) = -1 + -1074 by rfl, zpow_add₀ (by norm_num), zpow_neg_one, one_div]
      _ ≤ (m - gapBelow m e) * 2 ^ e :=
        mul_le_mul (by linarith) hleast (by positivity) (by linarith)
      _ ≤ v := hv.low
  · calc
      v < (2 : ℚ) ^ (53 + e) := lt_of_roundsTo hc hv
      _ ≤ 2 ^ (1024 : Int) := htop
      _ < 10 ^ (400 : Int) := hhuge

theorem isWord_positional (s : Scaled) : IsWord s.placed.positional := by
  have hall := allDigits_toDigits s.digits
  have hpoint : ∀ {front back : List Char}, AllDigits front → AllDigits back →
      IsWord (front ++ '.' :: back) := by
    intro front back hf hb
    refine ⟨by simp, fun c hc => ?_⟩
    rcases List.mem_append.mp hc with hc | hc
    · exact isBlank_of_isDigit (hf c hc)
    · rcases List.mem_cons.mp hc with rfl | hc
      · rfl
      · exact isBlank_of_isDigit (hb c hc)
  rcases positional_cases s with ⟨zeros, hs, _⟩ | ⟨zeros, hs, _⟩ | ⟨whole, fraction, hs, _, hsplit, _⟩
  · rw [hs]
    exact hpoint (allDigits_zeros 1) ((allDigits_zeros zeros).append hall)
  · rw [hs]
    exact ⟨by simp, fun c hc => isBlank_of_isDigit (hall.append (allDigits_zeros zeros) c hc)⟩
  · rw [hsplit] at hall
    rw [hs]
    exact hpoint (fun c hc => hall c (List.mem_append_left _ hc))
      (fun c hc => hall c (List.mem_append_right _ hc))

theorem isWord_withSign {s : List Char} (h : IsWord s) (negative : Bool) :
    IsWord (withSign negative s) := by
  cases negative with
  | false => exact h
  | true =>
    refine ⟨by simp [withSign], fun c hc => ?_⟩
    rcases List.mem_cons.mp hc with rfl | hc
    · rfl
    · exact h.unbroken c hc

theorem isWord_integer (n : Int) : IsWord (integer n) := by
  have hdigits : ∀ k, IsWord (Nat.toDigits 10 k) := fun k =>
    ⟨Nat.toDigits_ne_nil, fun c hc => isBlank_of_isDigit (allDigits_toDigits k c hc)⟩
  rw [integer]
  split_ifs
  · exact isWord_withSign (hdigits n.natAbs) true
  · exact hdigits n.toNat

theorem isWord_plain (x : Float) : IsWord (plain x).toList := by
  have hzero : IsWord ['0'] := isWord_of_all (by simp) (by decide)
  rw [plain, write, String.toList_ofList]
  cases Binary.ofFloat x with
  | nan => exact isWord_of_all (by decide) (by decide)
  | infinite negative => exact isWord_withSign (isWord_of_all (by decide) (by decide)) negative
  | finite negative m e =>
    dsimp only
    split_ifs
    · exact isWord_withSign hzero negative
    · exact isWord_withSign (isWord_positional _) negative

/-- Digits whose value belongs to a number are read as that number. -/
theorem ofScaled_eq {m : Nat} {e : Int} (hc : Canonical m e) {digits : Nat} {power : Int}
    (hd : 0 < digits) (hv : RoundsTo m e (digits * 10 ^ power)) :
    ofScaled digits power = Float.ofBits (fieldsOf m e).toUInt64 := by
  obtain ⟨hlow, hhigh⟩ := leading_bounds hd power
  obtain ⟨hsmall, hlarge⟩ := range_of_roundsTo hc hv
  have hlt : -400 < ((Nat.toDigits 10 digits).length : Int) + power :=
    (zpow_lt_zpow_iff_right₀ (by norm_num)).mp (hsmall.trans hhigh)
  have hgt : ((Nat.toDigits 10 digits).length : Int) + power - 1 < 400 :=
    (zpow_lt_zpow_iff_right₀ (by norm_num)).mp (lt_of_le_of_lt hlow hlarge)
  have hquotient : ((digits * Nat.pow 10 power.toNat : Nat) : ℚ) / (Nat.pow 10 (-power).toNat : Nat) =
      digits * 10 ^ power := by
    rw [zpow_eq_div, Nat.cast_mul, Nat.pow_eq, Nat.pow_eq, Nat.cast_pow, Nat.cast_pow, Nat.cast_ofNat,
      mul_div_assoc]
  rw [ofScaled, if_neg (by omega), if_neg (by omega), encodeRatio_eq hc]
  · exact Nat.mul_pos hd (Nat.pow_pos (by norm_num))
  · exact Nat.pow_pos (by norm_num)
  · rw [hquotient]
    exact hv

/-- The sign of a number is worth its highest bit. -/
theorem sign_bits {n : Nat} (hn : n < 2 ^ 64) :
    (if decide (2 ^ 63 ≤ n) = true then 2 ^ 63 else 0) = n / 2 ^ 63 * 2 ^ 63 := by
  by_cases hle : 2 ^ 63 ≤ n
  · rw [if_pos (decide_eq_true hle)]
    omega
  · rw [if_neg (by simpa using hle)]
    omega

/-- The bits of a finite number hold its mantissa and its exponent. -/
theorem canonical_of_decode {n m : Nat} {e : Int} {negative : Bool} (hn : n < 2 ^ 64) (hm : 0 < m)
    (h : Format.double.decode n = .finite negative m e) :
    Canonical m e ∧ n = (if negative then 2 ^ 63 else 0) + fieldsOf m e := by
  have hsign := sign_bits hn
  rw [decode_double] at h
  split_ifs at h with htop hfraction hzero
  · cases h
    refine ⟨⟨hm, by omega, by omega, by omega, Or.inr rfl⟩, ?_⟩
    rw [hsign, fieldsOf]
    omega
  · cases h
    refine ⟨⟨hm, by omega, by omega, by omega, Or.inl (by omega)⟩, ?_⟩
    rw [hsign, fieldsOf]
    omega

theorem bits_of_infinite {n : Nat} {negative : Bool} (hn : n < 2 ^ 64)
    (h : Format.double.decode n = .infinite negative) :
    n = (if negative then 2 ^ 63 else 0) + 2047 * 2 ^ 52 := by
  have hsign := sign_bits hn
  rw [decode_double] at h
  split_ifs at h with htop hfraction hzero
  cases h
  rw [hsign]
  omega

theorem bits_of_zero {n : Nat} {e : Int} {negative : Bool} (hn : n < 2 ^ 64)
    (h : Format.double.decode n = .finite negative 0 e) : n = (if negative then 2 ^ 63 else 0) + 0 := by
  have hsign := sign_bits hn
  rw [decode_double] at h
  split_ifs at h with htop hfraction hzero
  · obtain ⟨rfl, hm, _⟩ := Binary.finite.inj h
    rw [hsign]
    omega
  · obtain ⟨_, hm, _⟩ := Binary.finite.inj h
    omega

/-- A magnitude that reads back reads back with its sign. -/
theorem real?_withSign {n k : Nat} {negative : Bool} {s : List Char} (hn : n < 2 ^ 64)
    (hnan : Format.double.decode n ≠ .nan) (heq : n = (if negative then 2 ^ 63 else 0) + k)
    (hk : k < 2 ^ 63) (hr : real? s = some (Float.ofBits k.toUInt64))
    (hu : unsigned? s = some (Float.ofBits k.toUInt64)) :
    real? (withSign negative s) = some (Float.ofBits n.toUInt64) := by
  cases negative with
  | false =>
    have hsame : n = k := by simpa using heq
    rw [hsame]
    exact hr
  | true =>
    have hsum : n = k + 2 ^ 63 := by
      rw [heq, if_pos rfl, Nat.add_comm]
    have hbits : ∀ j < 2 ^ 64, j.toUInt64.toNat = j := fun j hj => Nat.mod_eq_of_lt hj
    have hk64 : k < 2 ^ 64 := Nat.lt_trans hk (by norm_num)
    have hopposite : -(Float.ofBits k.toUInt64) = Float.ofBits n.toUInt64 := by
      apply neg_ofBits
      · rw [hbits k hk64]
        exact hk
      · rw [hbits n hn, hbits k hk64]
        exact hsum
      · rw [hbits k hk64]
        intro h
        rw [hsum, decode_add_sign hk, h] at hnan
        exact hnan rfl
    rw [withSign, if_pos rfl, real?, hu, Option.map_some, hopposite]

/-- The text of a positive number reads back. -/
theorem unsigned?_positional {m : Nat} {e : Int} (hc : Canonical m e) :
    real? (shortest m e).placed.positional = some (Float.ofBits (fieldsOf m e).toUInt64) ∧
      unsigned? (shortest m e).placed.positional =
        some (Float.ofBits (fieldsOf m e).toUInt64) := by
  obtain ⟨hdigits, hrounds⟩ := shortest_roundsTo hc
  obtain ⟨c, rest, hcons, hfirst⟩ := positional_cons (shortest m e)
  obtain ⟨digits, power, hread, hpos, hvalue⟩ := magnitude?_positional hdigits
  rw [← hvalue] at hrounds
  rw [ofScaled_eq hc hpos hrounds] at hread
  rw [hcons] at hread ⊢
  obtain ⟨hreal, hunsigned⟩ := @real?_of_digit rest c hfirst
  exact ⟨hreal.trans hread, hunsigned.trans hread⟩

/-- The plain text of a number reads back. -/
theorem real?_plain {x : Float} (h : x.isNaN = false) : real? (plain x).toList = some x := by
  have hn : x.toBits.toNat < 2 ^ 64 := x.toBits.toNat_lt
  have hx : Float.ofBits x.toBits.toNat.toUInt64 = x := by
    rw [Nat.toUInt64, UInt64.ofNat_toNat, ofBits_toBits]
  have hnan : Format.double.decode x.toBits.toNat ≠ .nan := by
    intro hd
    rw [isNaN_iff.mpr hd] at h
    cases h
  conv_rhs => rw [← hx]
  rw [plain, write, String.toList_ofList, Binary.ofFloat]
  cases hd : Format.double.decode x.toBits.toNat with
  | nan => exact absurd hd hnan
  | infinite negative =>
    have hinf : unsigned? "inf".toList = some infinite := by
      rw [unsigned?, if_pos (by decide)]
    exact real?_withSign hn hnan (bits_of_infinite hn hd) (by norm_num) hinf hinf
  | finite negative m e =>
    dsimp only
    split_ifs with hm
    · have hzero : ofScaled 0 0 = Float.ofBits (0 : Nat).toUInt64 := by
        rw [ofScaled, if_pos (Or.inl rfl)]
        rfl
      have hread : magnitude? ['0'] = some (Float.ofBits (0 : Nat).toUInt64) := by
        rw [← hzero]
        exact magnitude?_whole (allDigits_zeros 1) (by simp)
      obtain ⟨hreal, hunsigned⟩ := @real?_of_digit [] '0' rfl
      rw [hm] at hd
      exact real?_withSign hn hnan (bits_of_zero hn hd) (by norm_num) (hreal.trans hread)
        (hunsigned.trans hread)
    · obtain ⟨hc, hfields⟩ := canonical_of_decode hn (Nat.pos_of_ne_zero hm) hd
      obtain ⟨hreal, hunsigned⟩ := unsigned?_positional hc
      have hk : fieldsOf m e < 2 ^ 63 := by
        have hlt := hc.lt
        have htop := hc.top
        rw [fieldsOf]
        omega
      exact real?_withSign hn hnan hfields hk hreal hunsigned

end Values

end Assay.Decimal
