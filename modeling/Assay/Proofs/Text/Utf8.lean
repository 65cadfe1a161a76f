import Mathlib.Data.List.Basic
import Assay.Text.Utf8

namespace Assay.Text.Utf8

/-- A byte below 0x80 continues no character. -/
def Reading.Sound (r : Reading) : Prop :=
  ∀ p, r.pending = some p → 0x80 ≤ p.low

theorem low_of_lead {b : UInt8} {p : Pending} (h : lead b = .opens p) : 0x80 ≤ p.low := by
  simp only [lead] at h
  split_ifs at h <;> cases h <;> simp

theorem start_sound (us : List (Option Char)) (b : UInt8) : (Reading.start us b).Sound := by
  intro p hp
  rw [Reading.start] at hp
  cases hl : lead b with
  | single c => simp [hl] at hp
  | malformed => simp [hl] at hp
  | opens q =>
    simp only [hl, Option.some.injEq] at hp
    exact hp ▸ low_of_lead hl

theorem push_sound (r : Reading) (b : UInt8) : (r.push b).Sound := by
  rw [Reading.push]
  cases r.pending with
  | none => exact start_sound _ b
  | some q =>
    intro p hp
    simp only at hp
    split_ifs at hp with hin hlast
    · cases hp
      exact Nat.le_refl 0x80
    · exact start_sound _ b p hp

theorem foldl_sound {r : Reading} (h : r.Sound) (bytes : Bytes) :
    (bytes.foldl Reading.push r).Sound := by
  induction bytes generalizing r with
  | nil => exact h
  | cons b rest ih => exact ih (push_sound r b)

/-- The units that were emitted before stay behind the later ones. -/
def Reading.behind (us : List (Option Char)) (r : Reading) : Reading :=
  ⟨r.pending, r.units ++ us⟩

theorem start_behind (us vs : List (Option Char)) (b : UInt8) :
    Reading.start (vs ++ us) b = (Reading.start vs b).behind us := by
  rw [Reading.start, Reading.start]
  cases lead b <;> rfl

theorem push_behind (us : List (Option Char)) (r : Reading) (b : UInt8) :
    (r.behind us).push b = (r.push b).behind us := by
  rw [Reading.push, Reading.push]
  cases hp : r.pending with
  | none =>
    simp only [Reading.behind, hp]
    exact start_behind us r.units b
  | some p =>
    simp only [Reading.behind, hp]
    split_ifs with hin hlast
    · rfl
    · rfl
    · exact start_behind us (none :: r.units) b

theorem foldl_behind (us : List (Option Char)) (r : Reading) (bytes : Bytes) :
    bytes.foldl Reading.push (r.behind us) = (bytes.foldl Reading.push r).behind us := by
  induction bytes generalizing r with
  | nil => rfl
  | cons b rest ih => rw [List.foldl_cons, List.foldl_cons, push_behind, ih]

theorem finish_behind (us : List (Option Char)) (r : Reading) :
    (r.behind us).finish = r.finish ++ us := by
  rw [Reading.finish, Reading.finish, Reading.behind]
  cases r.pending <;> rfl

theorem push_ascii {r : Reading} (h : r.Sound) {b : UInt8} (hb : b.toNat < 0x80) :
    r.push b = ⟨none, some (Char.ofNat b.toNat) :: r.finish⟩ := by
  have hl : lead b = .single (Char.ofNat b.toNat) := by
    rw [lead]
    exact if_pos hb
  rw [Reading.push, Reading.finish]
  cases hp : r.pending with
  | none => simp only [Reading.start, hl]
  | some p =>
    have hlow := h p hp
    have hout : ¬(p.low ≤ b.toNat ∧ b.toNat ≤ p.high) := by omega
    simp only [hout, if_false, Reading.start, hl]

/-- A byte below 0x80 is a character of its own between two texts. -/
theorem units_append_ascii (front back : Bytes) {b : UInt8} (hb : b.toNat < 0x80) :
    units (front ++ b :: back) = units front ++ some (Char.ofNat b.toNat) :: units back := by
  have hs : (front.foldl Reading.push ⟨none, []⟩).Sound := by
    apply foldl_sound
    intro p hp
    cases hp
  rw [units, List.foldl_append, List.foldl_cons, push_ascii hs hb]
  have hb' := foldl_behind (some (Char.ofNat b.toNat) :: (front.foldl Reading.push ⟨none, []⟩).finish)
    ⟨none, []⟩ back
  rw [Reading.behind, List.nil_append] at hb'
  rw [hb', finish_behind, List.reverse_append, List.reverse_cons, List.append_assoc]
  rfl

theorem mapM_id_eq_some {us : List (Option Char)} {s : List Char} :
    us.mapM id = some s ↔ us = s.map some := by
  induction us generalizing s with
  | nil => cases s <;> simp
  | cons u rest ih =>
    cases u with
    | none => cases s <;> simp
    | some c =>
      cases s with
      | nil => simp [Option.bind_eq_some_iff]
      | cons d s => simp [Option.bind_eq_some_iff, ih, and_comm]

/-- Bytes decode to a text when their units are its characters. -/
theorem decode?_eq_some {bytes : Bytes} {s : List Char} :
    decode? bytes = some s ↔ units bytes = s.map some :=
  mapM_id_eq_some

theorem decode?_lineFeed (bytes : Bytes) :
    decode? (bytes ++ [10]) = (decode? bytes).map (· ++ ['\n']) := by
  have hu : units (bytes ++ [10]) = units bytes ++ [some '\n'] :=
    units_append_ascii bytes [] (by decide)
  rw [decode?, decode?, hu, List.mapM_append]
  cases (units bytes).mapM id <;> rfl

/-- The units so far, with the character in progress. -/
def Reading.weight (r : Reading) : Nat :=
  r.finish.length

theorem weight_start_le (us : List (Option Char)) (b : UInt8) :
    (Reading.start us b).weight ≤ us.length + 1 := by
  rw [Reading.start]
  cases lead b <;> simp [Reading.weight, Reading.finish]

theorem weight_push_le (r : Reading) (b : UInt8) : (r.push b).weight ≤ r.weight + 1 := by
  rw [Reading.push]
  cases hp : r.pending with
  | none =>
    have h := weight_start_le r.units b
    simpa [Reading.weight, Reading.finish, hp] using h
  | some p =>
    have h := weight_start_le (none :: r.units) b
    simp only
    split_ifs with hin hlast
    · simp [Reading.weight, Reading.finish, hp]
    · simp [Reading.weight, Reading.finish, hp]
    · simpa [Reading.weight, Reading.finish, hp] using h

theorem weight_foldl_le (r : Reading) (bytes : Bytes) :
    (bytes.foldl Reading.push r).weight ≤ r.weight + bytes.length := by
  induction bytes generalizing r with
  | nil => exact Nat.le_refl _
  | cons b rest ih =>
    have hrest := ih (r.push b)
    have hpush := weight_push_le r b
    rw [List.foldl_cons, List.length_cons]
    omega

/-- A text has at most as many characters as bytes. -/
theorem length_decode_le {bytes : Bytes} {s : List Char} (h : decode? bytes = some s) :
    s.length ≤ bytes.length := by
  have hu : (units bytes).length = s.length := by
    rw [decode?_eq_some.mp h, List.length_map]
  have hw := weight_foldl_le ⟨none, []⟩ bytes
  rw [← hu, units, List.length_reverse]
  simpa [Reading.weight, Reading.finish] using hw

section RoundTrip

theorem toNat_ofNat {n : Nat} (h : n < 256) : (UInt8.ofNat n).toNat = n := by
  rw [UInt8.toNat_ofNat']
  exact Nat.mod_eq_of_lt h

theorem lead_one {n : Nat} (h : n < 0x80) : lead (UInt8.ofNat n) = .single (Char.ofNat n) := by
  rw [lead, toNat_ofNat (by omega)]
  exact if_pos h

theorem lead_two {n : Nat} (hl : 0xC2 ≤ n) (hh : n < 0xE0) :
    lead (UInt8.ofNat n) = .opens ⟨1, n - 0xC0, 0x80, 0xBF⟩ := by
  rw [lead, toNat_ofNat (by omega)]
  rw [if_neg (by omega), if_neg (by omega), if_pos hh]

/-- The first of three bytes leaves room for the second one. -/
theorem lead_three {v : Nat} (hl : 0x7FF < v) (hh : v ≤ 0xFFFF) (hs : v < 0xD800 ∨ 0xDFFF < v) :
    ∃ low high, lead (UInt8.ofNat (v / 4096 % 16 + 0xE0)) = .opens ⟨2, v / 4096, low, high⟩ ∧
      low ≤ v / 64 % 64 + 0x80 ∧ v / 64 % 64 + 0x80 ≤ high := by
  rw [lead, toNat_ofNat (by omega)]
  rw [if_neg (by omega), if_neg (by omega), if_neg (by omega)]
  have hbits : v / 4096 % 16 + 0xE0 - 0xE0 = v / 4096 := by omega
  by_cases he : v / 4096 = 0
  · refine ⟨0xA0, 0xBF, ?_, by omega, by omega⟩
    rw [if_pos (by omega), he]
  · by_cases hd : v / 4096 = 0xD
    · refine ⟨0x80, 0x9F, ?_, by omega, by omega⟩
      rw [if_neg (by omega), if_pos (by omega), hd]
    · refine ⟨0x80, 0xBF, ?_, by omega, by omega⟩
      rw [if_neg (by omega), if_neg (by omega), if_pos (by omega), hbits]

theorem lead_four {v : Nat} (hl : 0xFFFF < v) (hh : v < 0x110000) :
    ∃ low high, lead (UInt8.ofNat (v / 262144 % 8 + 0xF0)) = .opens ⟨3, v / 262144, low, high⟩ ∧
      low ≤ v / 4096 % 64 + 0x80 ∧ v / 4096 % 64 + 0x80 ≤ high := by
  rw [lead, toNat_ofNat (by omega)]
  rw [if_neg (by omega), if_neg (by omega), if_neg (by omega), if_neg (by omega), if_neg (by omega),
    if_neg (by omega)]
  have hbits : v / 262144 % 8 + 0xF0 - 0xF0 = v / 262144 := by omega
  by_cases h0 : v / 262144 = 0
  · refine ⟨0x90, 0xBF, ?_, by omega, by omega⟩
    rw [if_pos (by omega), h0]
  · by_cases h4 : v / 262144 = 4
    · refine ⟨0x80, 0x8F, ?_, by omega, by omega⟩
      rw [if_neg (by omega), if_neg (by omega), if_pos (by omega), h4]
    · refine ⟨0x80, 0xBF, ?_, by omega, by omega⟩
      rw [if_neg (by omega), if_pos (by omega), hbits]

theorem push_opens {us : List (Option Char)} {b : UInt8} {p : Pending} (h : lead b = .opens p) :
    Reading.push ⟨none, us⟩ b = ⟨some p, us⟩ := by
  simp only [Reading.push, Reading.start, h]

theorem push_continues {us : List (Option Char)} {missing bits low high n : Nat} (hn : n < 64)
    (hl : low ≤ n + 0x80) (hh : n + 0x80 ≤ high) :
    Reading.push ⟨some ⟨missing + 2, bits, low, high⟩, us⟩ (UInt8.ofNat (n + 0x80)) =
      ⟨some ⟨missing + 1, bits * 64 + n, 0x80, 0xBF⟩, us⟩ := by
  simp only [Reading.push, toNat_ofNat (show n + 0x80 < 256 by omega)]
  rw [if_pos ⟨hl, hh⟩, if_neg (by omega), Nat.add_sub_cancel]
  rfl

theorem push_closes {us : List (Option Char)} {bits low high n : Nat} (hn : n < 64)
    (hl : low ≤ n + 0x80) (hh : n + 0x80 ≤ high) :
    Reading.push ⟨some ⟨1, bits, low, high⟩, us⟩ (UInt8.ofNat (n + 0x80)) =
      ⟨none, some (Char.ofNat (bits * 64 + n)) :: us⟩ := by
  simp only [Reading.push, toNat_ofNat (show n + 0x80 < 256 by omega)]
  rw [if_pos ⟨hl, hh⟩, if_pos trivial, Nat.add_sub_cancel]

/-- The bytes of a character are read as that character. -/
theorem foldl_encodeChar (us : List (Option Char)) (c : Char) :
    (String.utf8EncodeChar c).foldl Reading.push ⟨none, us⟩ = ⟨none, some c :: us⟩ := by
  have hvalid : c.val.toNat < 0xD800 ∨ 0xDFFF < c.val.toNat ∧ c.val.toNat < 0x110000 := c.valid
  have hc : Char.ofNat c.val.toNat = c := Char.ofNat_toNat c
  rw [String.utf8EncodeChar]
  generalize hv : c.val.toNat = v at *
  split_ifs with h1 h2 h3
  · simp only [List.foldl_cons, List.foldl_nil, Reading.push, Reading.start, lead_one (Nat.lt_succ_of_le h1),
      hc]
  · have hl : lead (UInt8.ofNat (v / 64 % 0x20 + 0xc0)) = .opens ⟨1, v / 64, 0x80, 0xBF⟩ := by
      rw [lead_two (by omega) (by omega), Nat.add_sub_cancel, Nat.mod_eq_of_lt (by omega)]
    have hbits : v / 64 * 64 + v % 64 = v := by omega
    rw [List.foldl_cons, List.foldl_cons, List.foldl_nil, push_opens hl,
      push_closes (by omega) (by omega) (by omega), hbits, hc]
  · obtain ⟨low, high, hl, hlow, hhigh⟩ := lead_three (by omega) h3 (by omega)
    have hbits : (v / 4096 * 64 + v / 64 % 64) * 64 + v % 64 = v := by omega
    rw [List.foldl_cons, List.foldl_cons, List.foldl_cons, List.foldl_nil, push_opens hl,
      push_continues (by omega) hlow hhigh, push_closes (by omega) (by omega) (by omega), hbits, hc]
  · obtain ⟨low, high, hl, hlow, hhigh⟩ := @lead_four v (by omega) (by omega)
    have hbits : ((v / 262144 * 64 + v / 4096 % 64) * 64 + v / 64 % 64) * 64 + v % 64 = v := by omega
    rw [List.foldl_cons, List.foldl_cons, List.foldl_cons, List.foldl_cons, List.foldl_nil, push_opens hl,
      push_continues (by omega) hlow hhigh, push_continues (by omega) (by omega) (by omega),
      push_closes (by omega) (by omega) (by omega), hbits, hc]

theorem foldl_encode (us : List (Option Char)) (s : List Char) :
    (encode s).foldl Reading.push ⟨none, us⟩ = ⟨none, (s.map some).reverse ++ us⟩ := by
  induction s generalizing us with
  | nil => rfl
  | cons c rest ih =>
    rw [encode, List.flatMap_cons, List.foldl_append, foldl_encodeChar]
    have h := ih (some c :: us)
    rw [encode] at h
    rw [h]
    simp

/-- The bytes of a text decode to that text. -/
@[simp] theorem decode?_encode (s : List Char) : decode? (encode s) = some s := by
  rw [decode?_eq_some, units, foldl_encode]
  simp [Reading.finish]

@[simp] theorem decodeLossy_encode (s : List Char) : decodeLossy (encode s) = s := by
  rw [decodeLossy, decode?_eq_some.mp (decode?_encode s), List.map_map]
  exact List.map_id' s

/-- Only a character below 0x80 has a byte below 0x80. -/
theorem mem_encodeChar {c : Char} {b : UInt8} (hb : b.toNat < 0x80)
    (h : b ∈ String.utf8EncodeChar c) : c = Char.ofNat b.toNat := by
  have hvalid : c.val.toNat < 0xD800 ∨ 0xDFFF < c.val.toNat ∧ c.val.toNat < 0x110000 := c.valid
  have hc : Char.ofNat c.val.toNat = c := Char.ofNat_toNat c
  rw [String.utf8EncodeChar] at h
  generalize hv : c.val.toNat = v at *
  have high : ∀ n, 0x80 ≤ n → n < 256 → b ≠ UInt8.ofNat n := by
    intro n hn hn' he
    rw [he, toNat_ofNat hn'] at hb
    omega
  split_ifs at h with h1 h2 h3
  · rw [List.mem_singleton] at h
    rw [h, toNat_ofNat (by omega), hc]
  · simp only [List.mem_cons, List.not_mem_nil, or_false] at h
    rcases h with h | h <;> exact absurd h (high _ (by omega) (by omega))
  · simp only [List.mem_cons, List.not_mem_nil, or_false] at h
    rcases h with h | h | h <;> exact absurd h (high _ (by omega) (by omega))
  · simp only [List.mem_cons, List.not_mem_nil, or_false] at h
    rcases h with h | h | h | h <;> exact absurd h (high _ (by omega) (by omega))

/-- A text without a line feed has no byte of one. -/
theorem lineFeed_notMem_encode {s : List Char} (h : '\n' ∉ s) : 10 ∉ encode s := by
  intro hm
  obtain ⟨c, hc, hb⟩ := List.mem_flatMap.mp hm
  have he : c = '\n' := mem_encodeChar (by decide) hb
  exact h (he ▸ hc)

end RoundTrip

end Assay.Text.Utf8
