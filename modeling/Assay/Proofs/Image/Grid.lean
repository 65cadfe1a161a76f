import Mathlib.Data.List.Forall2
import Assay.Proofs.Guarded
import Assay.Proofs.Image.Header

namespace Assay.Image

namespace Descriptor

section Digits

variable {sizes index : List Nat} {place : Nat}

/-- The place whose digits, in the sizes of the axes, are the numbers of an index. -/
def placeIn : List Nat → List Nat → Nat
  | n :: sizes, i :: index => i + n * placeIn sizes index
  | [], _ => 0
  | _ :: _, [] => 0

theorem placeIn_lt (h : List.Forall₂ (· < ·) index sizes) : placeIn sizes index < sizes.prod := by
  induction h with
  | nil => exact Nat.one_pos
  | @cons i n index sizes hi _ ih =>
    rw [placeIn, List.prod_cons]
    calc i + n * placeIn sizes index < n + n * placeIn sizes index := Nat.add_lt_add_right hi _
      _ = n * (placeIn sizes index + 1) := by rw [Nat.mul_succ, Nat.add_comm]
      _ ≤ n * sizes.prod := Nat.mul_le_mul_left n ih

/-- The digits of a place are the index that it was made of. -/
theorem gridFrom_placeIn (h : List.Forall₂ (· < ·) index sizes) :
    gridFrom sizes (placeIn sizes index) = index := by
  induction h with
  | nil => rfl
  | @cons i n index sizes hi _ ih =>
    have hn : 0 < n := Nat.zero_lt_of_lt hi
    rw [placeIn, gridFrom, Nat.max_eq_left hn, Nat.add_mul_mod_self_left, Nat.mod_eq_of_lt hi,
      Nat.add_mul_div_left _ _ hn, Nat.div_eq_of_lt hi, Nat.zero_add, ih]

/-- A place in front of the end of the buffer has one digit for each axis. -/
theorem placeIn_gridFrom (h : place < sizes.prod) :
    List.Forall₂ (· < ·) (gridFrom sizes place) sizes ∧ placeIn sizes (gridFrom sizes place) = place := by
  induction sizes generalizing place with
  | nil => exact ⟨.nil, (Nat.lt_one_iff.mp h).symm⟩
  | cons n rest ih =>
    rw [List.prod_cons] at h
    -- an axis without pixels would leave no place at all
    have hn : 0 < n := Nat.pos_of_mul_pos_right (Nat.zero_lt_of_lt h)
    obtain ⟨hdigits, hplace⟩ := ih (Nat.div_lt_of_lt_mul h)
    rw [gridFrom, Nat.max_eq_left hn, placeIn, hplace]
    exact ⟨.cons (Nat.mod_lt _ hn) hdigits, Nat.mod_add_div place n⟩

theorem foldlM_advance (h : List.Forall₂ (· < ·) index sizes) (c : Cursor) :
    (index.zip sizes).foldlM Cursor.advance c =
      some ⟨c.place + c.stride * placeIn sizes index, c.stride * sizes.prod⟩ := by
  induction h generalizing c with
  | nil => rw [List.zip_nil_left, placeIn, Nat.mul_zero, List.prod_nil, Nat.mul_one]; rfl
  | @cons i n index sizes hi _ ih =>
    have hstep : Cursor.advance c (i, n) = some ⟨c.place + i * c.stride, c.stride * n⟩ := if_pos hi
    rw [List.zip_cons_cons, List.foldlM_cons, hstep, Option.bind_eq_bind, Option.bind_some, ih, placeIn,
      List.prod_cons, Nat.mul_add, Nat.mul_assoc, Nat.mul_assoc, Nat.add_assoc, Nat.mul_comm i]

theorem forall₂_of_foldlM {c c' : Cursor} (hlength : index.length = sizes.length)
    (h : (index.zip sizes).foldlM Cursor.advance c = some c') : List.Forall₂ (· < ·) index sizes := by
  induction index generalizing sizes c with
  | nil => rw [List.eq_nil_of_length_eq_zero hlength.symm]; exact .nil
  | cons i index ih =>
    cases sizes with
    | nil => cases hlength
    | cons n sizes =>
      rw [List.zip_cons_cons, List.foldlM_cons, Option.bind_eq_bind, Option.bind_eq_some_iff] at h
      obtain ⟨next, hstep, hrest⟩ := h
      rw [Cursor.advance] at hstep
      split_ifs at hstep with hi
      exact .cons hi (ih (Nat.succ.inj hlength) hrest)

end Digits

/-- An index has one number for each axis of a grid, below the size of the axis. -/
structure OnGrid (d : Descriptor) (index : List Nat) : Prop where
  axes : index.length = d.dimension
  inside : ∀ (k i n : Nat), index[k]? = some i → d.size[k]? = some n → i < n

variable {d : Descriptor} {index : List Nat} {place : Nat}

theorem onGrid_iff (hsize : d.size.length = d.dimension) :
    d.OnGrid index ↔ List.Forall₂ (· < ·) index d.size := by
  rw [List.forall₂_iff_get]
  constructor
  · rintro ⟨axes, inside⟩
    refine ⟨axes.trans hsize.symm, fun k hi hn => ?_⟩
    exact inside k _ _ (List.getElem?_eq_getElem hi) (List.getElem?_eq_getElem hn)
  · rintro ⟨axes, inside⟩
    refine ⟨axes.trans hsize, fun k i n hi hn => ?_⟩
    obtain ⟨hi', rfl⟩ := List.getElem?_eq_some_iff.mp hi
    obtain ⟨hn', rfl⟩ := List.getElem?_eq_some_iff.mp hn
    exact inside k hi' hn'

/-- The positions on a grid, and no others, have a place: the one whose digits they are. -/
theorem linearIndex_eq_some (hsize : d.size.length = d.dimension) :
    d.linearIndex index = some place ↔
      List.Forall₂ (· < ·) index d.size ∧ placeIn d.size index = place := by
  rw [linearIndex]
  split_ifs with hlength
  · refine iff_of_false nofun ?_
    rintro ⟨hon, -⟩
    exact hlength (hon.length_eq.trans hsize)
  · rw [not_not] at hlength
    constructor
    · intro h
      obtain ⟨c, hc, rfl⟩ := Option.map_eq_some_iff.mp h
      have hon := forall₂_of_foldlM (hlength.trans hsize.symm) hc
      rw [foldlM_advance hon, Option.some.injEq] at hc
      exact ⟨hon, by rw [← hc, Nat.zero_add, Nat.one_mul]⟩
    · rintro ⟨hon, rfl⟩
      rw [foldlM_advance hon, Option.map_some, Nat.zero_add, Nat.one_mul]

/-- A position on the grid has its place in a buffer with one item for each pixel. -/
theorem linearIndex_lt (hsize : d.size.length = d.dimension) (h : d.linearIndex index = some place) :
    place < d.pixelCount := by
  obtain ⟨hon, rfl⟩ := (linearIndex_eq_some hsize).mp h
  rw [pixelCount_eq]
  exact placeIn_lt hon

/-- Different positions have different places. -/
theorem linearIndex_injective {other : List Nat} (hsize : d.size.length = d.dimension)
    (h : d.linearIndex index = some place) (h' : d.linearIndex other = some place) : index = other := by
  obtain ⟨hon, hplace⟩ := (linearIndex_eq_some hsize).mp h
  obtain ⟨hon', hplace'⟩ := (linearIndex_eq_some hsize).mp h'
  rw [← gridFrom_placeIn hon, ← gridFrom_placeIn hon', hplace, hplace']

/-- A position on the grid has a place in the buffer that leads back to it. -/
theorem OnGrid.exists_place (hsize : d.size.length = d.dimension) (h : d.OnGrid index) :
    ∃ place < d.pixelCount, d.linearIndex index = some place ∧ d.gridIndex place = index := by
  have hon := (onGrid_iff hsize).mp h
  have hplace := (linearIndex_eq_some hsize).mpr ⟨hon, rfl⟩
  exact ⟨_, linearIndex_lt hsize hplace, hplace, gridFrom_placeIn hon⟩

section Arithmetic

/-- Goes along the axis of a number of an index, with the look-up of its size, both products and the sum. -/
def advanceGuarded (sizes : List Nat) (c : Cursor) (entry : Nat × Nat) : Guarded (Option Cursor) := do
  let n ← Guarded.index sizes entry.2
  if entry.1 < n then
    let offset ← Guarded.mul entry.1 c.stride
    let place ← Guarded.add c.place offset
    let stride ← Guarded.mul c.stride n
    pure (some ⟨place, stride⟩)
  else pure none

/-- Goes along the axes of an index, up to the first number that does not lie on its axis. -/
def followGuarded (sizes : List Nat) (c : Cursor) : List (Nat × Nat) → Guarded (Option Cursor)
  | [] => pure (some c)
  | entry :: rest => do
    match ← advanceGuarded sizes c entry with
    | none => pure none
    | some next => followGuarded sizes next rest

/-- The place of a pixel in the buffer, with every number that is computed on the way. -/
def linearIndexGuarded (d : Descriptor) (index : List Nat) : Guarded (Option Nat) :=
  if index.length ≠ d.dimension then pure none
  else do
    let c ← followGuarded d.size ⟨0, 1⟩ index.zipIdx
    pure (c.map Cursor.place)

variable {sizes : List Nat} {c : Cursor} {i k n : Nat}

theorem advance_lt {c' : Cursor} (hplace : c.place < c.stride) (h : c.advance (i, n) = some c') :
    c'.place < c'.stride := by
  rw [Cursor.advance] at h
  split_ifs at h with hi
  cases h
  calc c.place + i * c.stride < c.stride + i * c.stride := Nat.add_lt_add_right hplace _
    _ = c.stride * (i + 1) := by rw [Nat.mul_succ, Nat.mul_comm, Nat.add_comm]
    _ ≤ c.stride * n := Nat.mul_le_mul_left _ hi

theorem advanceGuarded_eq (hn : sizes[k]? = some n) (hplace : c.place < c.stride)
    (hstride : c.stride * n < Decimal.sizeLimit) :
    advanceGuarded sizes c (i, k) = .ok (c.advance (i, n)) := by
  rw [advanceGuarded, Guarded.index_ok hn, Guarded.ok_bind]
  by_cases hi : i < n
  · -- the sum stays below the next stride, and the product of the number below the sum
    have hadvance : c.advance (i, n) = some ⟨c.place + i * c.stride, c.stride * n⟩ := if_pos hi
    have hsum : c.place + i * c.stride < c.stride * n := advance_lt hplace hadvance
    have hoffset : i * c.stride < Decimal.sizeLimit :=
      Nat.lt_of_le_of_lt (Nat.le_add_left _ _) (hsum.trans hstride)
    rw [if_pos hi, Guarded.mul_ok hoffset, Guarded.ok_bind, Guarded.add_ok (hsum.trans hstride),
      Guarded.ok_bind, Guarded.mul_ok hstride, Guarded.ok_bind, hadvance]
    rfl
  · have hnone : c.advance (i, n) = none := if_neg hi
    rw [if_neg hi, hnone]
    rfl

/-- No number that is computed for a place is too large, as long as the products of the first sizes are
not: behind an axis the stride is such a product, and the place is below it. -/
theorem followGuarded_eq {index : List Nat} (hlength : k + index.length ≤ sizes.length)
    (hplace : c.place < c.stride) (hstride : c.stride = (sizes.take k).prod)
    (hpartial : ∀ j ≤ sizes.length, (sizes.take j).prod < Decimal.sizeLimit) :
    followGuarded sizes c (index.zipIdx k) =
      .ok ((index.zip (sizes.drop k)).foldlM Cursor.advance c) := by
  induction index generalizing k c with
  | nil => rfl
  | cons i index ih =>
    rw [List.length_cons] at hlength
    have hk : k < sizes.length := by omega
    have hnext : c.stride * sizes[k] = (sizes.take (k + 1)).prod := by
      rw [List.take_add_one, List.getElem?_eq_getElem hk, List.prod_append, hstride]
      simp
    have hstep := @advanceGuarded_eq sizes c i k _ (List.getElem?_eq_getElem hk) hplace
      (hnext ▸ hpartial (k + 1) hk)
    rw [List.zipIdx_cons, followGuarded, hstep, Guarded.ok_bind, List.drop_eq_getElem_cons hk,
      List.zip_cons_cons, List.foldlM_cons, Option.bind_eq_bind]
    cases hadvance : c.advance (i, sizes[k]) with
    | none => rfl
    | some next =>
      have hlt := advance_lt hplace hadvance
      rw [Option.bind_some]
      refine ih (by omega) hlt ?_
      rw [Cursor.advance] at hadvance
      split_ifs at hadvance
      cases hadvance
      exact hnext

/-- A place is computed without an index out of range or a number that is too large. -/
theorem linearIndexGuarded_eq {d : Descriptor} {index : List Nat} (hsize : d.size.length = d.dimension)
    (hpartial : ∀ k ≤ d.size.length, (d.size.take k).prod < Decimal.sizeLimit) :
    linearIndexGuarded d index = .ok (d.linearIndex index) := by
  rw [linearIndexGuarded, linearIndex]
  split_ifs with hlength
  · rfl
  · rw [not_not] at hlength
    rw [followGuarded_eq (by omega) Nat.zero_lt_one rfl hpartial, Guarded.ok_bind]
    rfl

/-- The number of pixels is computed without a number that is too large. -/
theorem foldlM_mul {first : Nat} (hfirst : first < Decimal.sizeLimit)
    (hpartial : ∀ j ≤ sizes.length, first * (sizes.take j).prod < Decimal.sizeLimit) :
    sizes.foldlM Guarded.mul first = .ok (first * sizes.prod) := by
  induction sizes generalizing first with
  | nil => rw [List.prod_nil, Nat.mul_one]; rfl
  | cons n rest ih =>
    have hnext : first * n < Decimal.sizeLimit := by simpa using hpartial 1 (by simp)
    rw [List.foldlM_cons, Guarded.mul_ok hnext, Guarded.ok_bind, List.prod_cons, ← Nat.mul_assoc]
    refine ih hnext fun j hj => ?_
    simpa [Nat.mul_assoc] using hpartial (j + 1) (Nat.succ_le_succ hj)

end Arithmetic

/-- Positions on a grid and places in its buffer determine each other. The positions on the grid and no
others have a place, which is in front of the number of pixels and leads back to them; every such place is
that of a position on the grid. While a place or the number of pixels is computed, no index is out of range
and no number is too large, whatever the index and also if an axis has no pixels. -/
theorem positions_and_places (d : Descriptor) (hsize : d.size.length = d.dimension)
    (hpartial : ∀ k ≤ d.dimension, (d.size.take k).prod < Decimal.sizeLimit) :
    (∀ index, (d.linearIndex index).isSome ↔ d.OnGrid index) ∧
    (∀ index place, d.linearIndex index = some place →
      place < d.pixelCount ∧ d.gridIndex place = index) ∧
    (∀ place < d.pixelCount,
      d.OnGrid (d.gridIndex place) ∧ d.linearIndex (d.gridIndex place) = some place) ∧
    (∀ index, linearIndexGuarded d index = .ok (d.linearIndex index)) ∧
    Guarded.product d.size = .ok d.pixelCount := by
  refine ⟨fun index => ?_, fun index place h => ?_, fun place h => ?_,
    fun index => linearIndexGuarded_eq hsize (hsize ▸ hpartial), ?_⟩
  · rw [onGrid_iff hsize, Option.isSome_iff_exists]
    constructor
    · rintro ⟨place, h⟩
      exact ((linearIndex_eq_some hsize).mp h).1
    · exact fun hon => ⟨_, (linearIndex_eq_some hsize).mpr ⟨hon, rfl⟩⟩
  · obtain ⟨hon, rfl⟩ := (linearIndex_eq_some hsize).mp h
    exact ⟨linearIndex_lt hsize h, gridFrom_placeIn hon⟩
  · rw [pixelCount_eq] at h
    obtain ⟨hon, hplace⟩ := placeIn_gridFrom h
    exact ⟨(onGrid_iff hsize).mpr hon, (linearIndex_eq_some hsize).mpr ⟨hon, hplace⟩⟩
  · rw [Guarded.product, foldlM_mul (by decide) (by simpa [hsize] using hpartial), pixelCount_eq, Nat.one_mul]

/-- A grid as large as a buffer can be, and one with an axis without pixels. -/
theorem positions_and_places_large :
    (ofSize [4294967296, 4294967295] .uchar).linearIndex [4294967295, 4294967294] =
        some 18446744069414584319 ∧
      (ofSize [4294967296, 4294967295] .uchar).gridIndex 18446744069414584319 =
        [4294967295, 4294967294] ∧
      linearIndexGuarded (ofSize [7, 0, 5] .uchar) [6, 0, 4] = .ok none := by
  obtain ⟨-, hback, -⟩ := positions_and_places (ofSize [4294967296, 4294967295] .uchar) rfl
    (by decide)
  obtain ⟨-, -, -, hguarded, -⟩ := positions_and_places (ofSize [7, 0, 5] .uchar) rfl (by decide)
  have hplace : (ofSize [4294967296, 4294967295] .uchar).linearIndex [4294967295, 4294967294] =
      some 18446744069414584319 := by decide
  exact ⟨hplace, (hback _ _ hplace).2, (hguarded [6, 0, 4]).trans (by decide)⟩

end Descriptor

end Assay.Image
