import Mathlib.Algebra.Group.Nat.Defs
import Mathlib.Data.List.Induction
import Assay.Proofs.Text.Utf8

namespace Assay.Text.Utf8

theorem toNat_val_ofNat {v : Nat} (h : v < 0xD800 ∨ 0xDFFF < v ∧ v < 0x110000) :
    (Char.ofNat v).val.toNat = v := by
  rw [Char.ofNat, dif_pos h]
  rfl

theorem ofNat_eq {b : UInt8} {n : Nat} (h : n = b.toNat) : UInt8.ofNat n = b := by
  rw [h, UInt8.ofNat_toNat]

section Begun

/-- The last bytes of a character, which have six bits of its number each. -/
def continuations (v : Nat) : Nat → Bytes
  | 0 => []
  | k + 1 => UInt8.ofNat (v / 64 ^ k % 64 + 0x80) :: continuations v k

/-- Whether some bytes begin every character that can still come of a character in progress: every one that has
the bits read so far, and the next byte in the range. -/
structure Pending.Begun (p : Pending) (bytes : Bytes) : Prop where
  missing : 0 < p.missing
  low : 0x80 ≤ p.low
  high : p.high ≤ 0xBF
  spelled : ∀ v, v / 64 ^ p.missing = p.bits → p.low ≤ v / 64 ^ (p.missing - 1) % 64 + 0x80 →
    v / 64 ^ (p.missing - 1) % 64 + 0x80 ≤ p.high →
    String.utf8EncodeChar (Char.ofNat v) = bytes ++ continuations v p.missing

variable {b : UInt8} {bits low high : Nat} {p : Pending} {bytes : Bytes}

theorem begun_two (hb : b.toNat = bits + 0xC0) (hshort : 2 ≤ bits) (hlong : bits < 32) :
    Pending.Begun ⟨1, bits, 0x80, 0xBF⟩ [b] := by
  refine ⟨Nat.one_pos, Nat.le_refl _, Nat.le_refl _, fun v hv _ _ => ?_⟩
  simp only [Nat.pow_one] at hv
  rw [String.utf8EncodeChar, toNat_val_ofNat (by omega)]
  dsimp only
  rw [if_neg (by omega), if_pos (by omega), ofNat_eq (b := b) (by omega)]
  simp [continuations]

/-- The range of the second byte leaves out forms that are too long, and surrogates. -/
theorem begun_three (hb : b.toNat = bits + 0xE0) (hbits : bits < 16) (hl : 0x80 ≤ low) (hh : high ≤ 0xBF)
    (hshort : bits = 0 → 0xA0 ≤ low) (hsurrogate : bits = 0xD → high ≤ 0x9F) :
    Pending.Begun ⟨2, bits, low, high⟩ [b] := by
  refine ⟨Nat.two_pos, hl, hh, fun v hv hlow hhigh => ?_⟩
  have hsquare : 64 ^ 2 = 4096 := rfl
  simp only [hsquare, Nat.add_one_sub_one, Nat.pow_one] at hv hlow hhigh
  rw [String.utf8EncodeChar, toNat_val_ofNat (by omega)]
  dsimp only
  rw [if_neg (by omega), if_neg (by omega), if_pos (by omega), ofNat_eq (b := b) (by omega)]
  simp [continuations]

/-- The range of the second byte leaves out forms that are too long, and numbers beyond the last character. -/
theorem begun_four (hb : b.toNat = bits + 0xF0) (hbits : bits < 5) (hl : 0x80 ≤ low) (hh : high ≤ 0xBF)
    (hshort : bits = 0 → 0x90 ≤ low) (hlast : bits = 4 → high ≤ 0x8F) :
    Pending.Begun ⟨3, bits, low, high⟩ [b] := by
  refine ⟨Nat.succ_pos 2, hl, hh, fun v hv hlow hhigh => ?_⟩
  have hsquare : 64 ^ 2 = 4096 := rfl
  have hcube : 64 ^ 3 = 262144 := rfl
  simp only [hsquare, hcube, Nat.add_one_sub_one] at hv hlow hhigh
  rw [String.utf8EncodeChar, toNat_val_ofNat (by omega)]
  dsimp only
  rw [if_neg (by omega), if_neg (by omega), if_neg (by omega), ofNat_eq (b := b) (by omega)]
  simp [continuations]

theorem begun_of_lead (h : lead b = .opens p) : p.Begun [b] := by
  have hb := b.toNat_lt
  simp only [lead] at h
  split_ifs at h with h1 h2 h3 h4 h5 h6 h7 h8 h9 <;> cases h
  · exact begun_two (by omega) (by omega) (by omega)
  · exact begun_three (by omega) (by omega) (by omega) (by omega) (by omega) (by omega)
  · exact begun_three (by omega) (by omega) (by omega) (by omega) (by omega) (by omega)
  · exact begun_three (by omega) (by omega) (by omega) (by omega) (by omega) (by omega)
  · exact begun_four (by omega) (by omega) (by omega) (by omega) (by omega) (by omega)
  · exact begun_four (by omega) (by omega) (by omega) (by omega) (by omega) (by omega)
  · exact begun_four (by omega) (by omega) (by omega) (by omega) (by omega) (by omega)

theorem encodeChar_of_lead {c : Char} (h : lead b = .single c) : String.utf8EncodeChar c = [b] := by
  simp only [lead] at h
  split_ifs at h with h1
  cases h
  rw [String.utf8EncodeChar, toNat_val_ofNat (by omega), if_pos (by omega), UInt8.ofNat_toNat]

variable (h : p.Begun bytes) (hl : p.low ≤ b.toNat) (hh : b.toNat ≤ p.high)
include h hl hh

/-- The last missing byte makes the character. -/
theorem Pending.Begun.closes (hlast : p.missing = 1) :
    String.utf8EncodeChar (Char.ofNat (p.bits * 64 + (b.toNat - 0x80))) = bytes ++ [b] := by
  have hlow := h.low
  have hhigh := h.high
  have hspelled := h.spelled (p.bits * 64 + (b.toNat - 0x80))
  simp only [hlast, Nat.pow_one, Nat.sub_self, Nat.pow_zero, Nat.div_one] at hspelled
  rw [hspelled (by omega) (by omega) (by omega), continuations, continuations, ofNat_eq]
  simp only [Nat.pow_zero, Nat.div_one]
  omega

/-- A byte before the last one leaves a character in progress with six more bits. -/
theorem Pending.Begun.continues (hmore : p.missing ≠ 1) :
    Pending.Begun ⟨p.missing - 1, p.bits * 64 + (b.toNat - 0x80), 0x80, 0xBF⟩ (bytes ++ [b]) := by
  obtain ⟨hmissing, hlow, hhigh, hspelled⟩ := h
  obtain ⟨missing, bits, low, high⟩ := p
  obtain ⟨k, rfl⟩ : ∃ k, missing = k + 2 := ⟨missing - 2, by simp only at hmissing hmore; omega⟩
  refine ⟨Nat.succ_pos k, Nat.le_refl _, Nat.le_refl _, fun v hv _ _ => ?_⟩
  simp only [Nat.add_one_sub_one] at hl hh hlow hhigh hspelled hv ⊢
  have hbits : v / 64 ^ (k + 1) / 64 = bits := by omega
  have hspelled := hspelled v (by rw [Nat.pow_succ, ← Nat.div_div_eq_div_mul, hbits]) (by omega) (by omega)
  rw [hspelled, continuations, ofNat_eq (b := b) (by omega), List.append_assoc, List.singleton_append]

end Begun

section Spells

variable {r : Reading} {bytes : Bytes} {s : List Char}

/-- Whether the bytes read so far are the encoding of the text read so far, unless a part was malformed, with what
begins the character in progress behind it. -/
def Reading.Spells (r : Reading) (bytes : Bytes) : Prop :=
  ∀ s : List Char, r.units = (s.map some).reverse →
    match r.pending with
    | none => bytes = encode s
    | some p => ∃ begun, p.Begun begun ∧ bytes = encode s ++ begun

theorem eq_concat_of_units {c : Char} {us : List (Option Char)} (h : some c :: us = (s.map some).reverse) :
    ∃ front, s = front ++ [c] ∧ us = (front.map some).reverse := by
  induction s using List.reverseRecOn with
  | nil => cases h
  | append_singleton front d _ =>
    rw [List.map_append, List.reverse_append, List.map_singleton, List.reverse_singleton,
      List.singleton_append, List.cons.injEq, Option.some.injEq] at h
    exact ⟨front, by rw [h.1], h.2⟩

theorem not_malformed {us : List (Option Char)} (hm : none ∈ us) : us ≠ (s.map some).reverse := by
  rintro rfl
  simp at hm

theorem spells_start {us : List (Option Char)} (h : ∀ s, us = (s.map some).reverse → bytes = encode s) (b : UInt8) :
    (Reading.start us b).Spells (bytes ++ [b]) := by
  intro s hs
  rw [Reading.start] at hs ⊢
  cases hl : lead b with
  | single c =>
    rw [hl] at hs
    obtain ⟨front, rfl, hus⟩ := eq_concat_of_units hs
    rw [h front hus, encode_append, encode, encode, List.flatMap_singleton, encodeChar_of_lead hl]
  | opens p =>
    rw [hl] at hs
    exact ⟨[b], begun_of_lead hl, by rw [h s hs]⟩
  | malformed =>
    rw [hl] at hs
    exact absurd hs (not_malformed List.mem_cons_self)

theorem spells_push (h : r.Spells bytes) (b : UInt8) : (r.push b).Spells (bytes ++ [b]) := by
  obtain ⟨pending, us⟩ := r
  cases pending with
  | none => exact spells_start h b
  | some p =>
    rw [Reading.push]
    dsimp only
    split_ifs with hin hlast
    · intro s hs
      obtain ⟨front, rfl, hus⟩ := eq_concat_of_units hs
      obtain ⟨begun, hbegun, hbytes⟩ := h front hus
      rw [hbytes, List.append_assoc, ← hbegun.closes hin.1 hin.2 hlast, encode_append, encode, encode,
        List.flatMap_singleton]
    · intro s hs
      obtain ⟨begun, hbegun, hbytes⟩ := h s hs
      exact ⟨begun ++ [b], hbegun.continues hin.1 hin.2 hlast, by rw [hbytes, List.append_assoc]⟩
    · -- the character in progress was malformed, and a malformed part is never lost again
      exact spells_start (fun s hs => absurd hs (not_malformed List.mem_cons_self)) b

theorem spells_foldl {front : Bytes} (h : r.Spells front) (bytes : Bytes) :
    (bytes.foldl Reading.push r).Spells (front ++ bytes) := by
  induction bytes generalizing r front with
  | nil => rwa [List.append_nil]
  | cons b rest ih =>
    rw [List.foldl_cons, List.append_cons]
    exact ih (spells_push h b)

/-- Bytes from which a text is read are the encoding of that text. -/
theorem eq_encode_of_decode? (h : decode? bytes = some s) : bytes = encode s := by
  have hspells : (bytes.foldl Reading.push ⟨none, []⟩).Spells bytes := by
    refine @spells_foldl ⟨none, []⟩ [] (fun s hs => ?_) bytes
    simp only [List.nil_eq, List.reverse_eq_nil_iff, List.map_eq_nil_iff] at hs
    rw [hs]
    rfl
  rw [decode?_eq_some, units, Reading.finish, List.reverse_eq_iff] at h
  cases hp : (bytes.foldl Reading.push ⟨none, []⟩).pending with
  | none =>
    rw [hp] at h
    have hs := hspells s h
    rwa [hp] at hs
  | some p =>
    rw [hp] at h
    exact absurd h (not_malformed List.mem_cons_self)

theorem decode?_eq_some_iff : decode? bytes = some s ↔ bytes = encode s := by
  refine ⟨eq_encode_of_decode?, ?_⟩
  rintro rfl
  exact decode?_encode s

/-- A text without replacement characters is read leniently from its encoding only. -/
theorem decodeLossy_eq_iff (h : replacement ∉ s) : decodeLossy bytes = s ↔ bytes = encode s := by
  constructor
  · rintro rfl
    rw [← decode?_eq_some_iff, decode?_eq_some, decodeLossy, List.map_map]
    refine ((List.map_congr_left fun u hu => ?_).trans (List.map_id' _)).symm
    cases u with
    | some c => rfl
    | none => exact absurd (List.mem_map.mpr ⟨none, hu, rfl⟩) h
  · rintro rfl
    exact decodeLossy_encode s

end Spells

end Assay.Text.Utf8
