import Mathlib.Algebra.Order.BigOperators.GroupWithZero.List
import Mathlib.Algebra.Order.Ring.Nat
import Assay.Proofs.Displacement.Accesses
import Assay.Proofs.Image.Grid

namespace Assay

namespace Guarded

variable {α : Type} {sizes : List Nat} {first : Nat}

/-- A product of sizes stops at a partial product that is none. -/
theorem foldlM_mul_overflow (hfirst : first < Decimal.sizeLimit)
    (h : ∃ j ≤ sizes.length, Decimal.sizeLimit ≤ first * (sizes.take j).prod) :
    sizes.foldlM mul first = .error .overflow := by
  induction sizes generalizing first with
  | nil =>
    obtain ⟨j, -, hlarge⟩ := h
    rw [List.take_nil, List.prod_nil, Nat.mul_one] at hlarge
    exact absurd hfirst (Nat.not_lt.mpr hlarge)
  | cons n rest ih =>
    rw [List.foldlM_cons]
    by_cases hnext : first * n < Decimal.sizeLimit
    · rw [mul_ok hnext, ok_bind]
      obtain ⟨j, hj, hlarge⟩ := h
      cases j with
      | zero =>
        rw [List.take_zero, List.prod_nil, Nat.mul_one] at hlarge
        exact absurd hfirst (Nat.not_lt.mpr hlarge)
      | succ j =>
        rw [List.take_succ_cons, List.prod_cons, ← Nat.mul_assoc] at hlarge
        exact ih hnext ⟨j, Nat.le_of_succ_le_succ hj, hlarge⟩
    · rw [mul, size, if_neg hnext]
      rfl

/-- A buffer that is filled place by place holds what is computed for its places. -/
theorem foldlM_assign (f : Nat → Guarded α) (blank : α) (done : List α) (count : Nat) :
    (List.range' done.length count).foldlM (fun buffer place => do
      let x ← f place
      assign buffer place x) (done ++ List.replicate count blank) =
        ((List.range' done.length count).mapM f).map (done ++ ·) := by
  induction count generalizing done with
  | zero =>
    rw [List.replicate_zero, List.append_nil, List.range'_zero, List.mapM_nil]
    exact congrArg Except.ok (List.append_nil done).symm
  | succ count ih =>
    rw [List.range'_succ, List.foldlM_cons, List.mapM_cons]
    cases f done.length with
    | error trap => rfl
    | ok x =>
      have hassign : assign (done ++ List.replicate (count + 1) blank) done.length x =
          .ok ((done ++ [x]) ++ List.replicate count blank) := by
        rw [assign_ok (by simp), List.set_append_right _ _ (Nat.le_refl _), Nat.sub_self,
          List.replicate_succ, List.set_cons_zero, List.append_assoc, List.singleton_append]
      have hrest := ih (done ++ [x])
      rw [List.length_append, List.length_singleton] at hrest
      rw [ok_bind, hassign, ok_bind, ok_bind, hrest]
      cases (List.range' (done.length + 1) count).mapM f with
      | error trap => rfl
      | ok xs => exact congrArg Except.ok (List.append_assoc done [x] xs)

theorem foldlM_range_assign (f : Nat → Guarded α) (blank : α) (count : Nat) :
    (List.range count).foldlM (fun buffer place => do
      let x ← f place
      assign buffer place x) (List.replicate count blank) = (List.range count).mapM f := by
  have hfill := foldlM_assign f blank [] count
  rw [List.length_nil, ← List.range_eq_range', List.nil_append] at hfill
  rw [hfill]
  cases (List.range count).mapM f <;> rfl

end Guarded

namespace Image

variable {image : Image} {d : Descriptor} {index : List Nat}

/-- Every product of the first sizes of a grid is a size, so that its places can be computed. -/
def Descriptor.Addressable (d : Descriptor) : Prop :=
  ∀ k ≤ d.size.length, (d.size.take k).prod < Decimal.sizeLimit

namespace Descriptor

theorem Addressable.product_eq (h : d.Addressable) : Guarded.product d.size = .ok d.pixelCount := by
  rw [Guarded.product, foldlM_mul (by decide) (by simpa [Addressable] using h), pixelCount_eq, Nat.one_mul]

theorem Addressable.pixelCount_lt (h : d.Addressable) : d.pixelCount < Decimal.sizeLimit := by
  rw [pixelCount_eq]
  simpa using h d.size.length (Nat.le_refl _)

theorem product_overflow (h : ¬d.Addressable) : Guarded.product d.size = .error .overflow := by
  refine Guarded.foldlM_mul_overflow (by decide) ?_
  simpa [Addressable] using h

/-- A grid that has a position on it is addressable when its number of pixels is a size. -/
theorem OnGrid.addressable (hsize : d.size.length = d.dimension) (h : d.OnGrid index)
    (hcount : d.pixelCount < Decimal.sizeLimit) : d.Addressable := by
  intro k _
  have hpos : ∀ n ∈ d.size.drop k, 0 < n := by
    intro n hn
    obtain ⟨j, hj⟩ := List.mem_iff_getElem?.mp (List.mem_of_mem_drop hn)
    obtain ⟨hlt, -⟩ := List.getElem?_eq_some_iff.mp hj
    rw [hsize, ← h.axes] at hlt
    exact Nat.zero_lt_of_lt (h.inside j _ n (List.getElem?_eq_getElem hlt) hj)
  calc (d.size.take k).prod ≤ (d.size.take k).prod * (d.size.drop k).prod :=
        Nat.le_mul_of_pos_right _ (List.prod_pos hpos)
    _ = d.pixelCount := by rw [← List.prod_append, List.take_append_drop, pixelCount_eq]
    _ < Decimal.sizeLimit := hcount

end Descriptor

/-- The place of a pixel in the buffer, with every number that is computed on the way. -/
def placeGuarded (image : Image) (index : List Nat) : Guarded (Option Nat) :=
  if image.descriptor.components = 1 then image.descriptor.linearIndexGuarded index else pure none

/-- The sample of a pixel, with the numbers on the way to its place and the look-up in the buffer. -/
def getGuarded (image : Image) (index : List Nat) : Guarded (Option Float) := do
  match ← image.placeGuarded index with
  | none => pure none
  | some place => do
    let x ← Guarded.index image.pixels place
    pure (some x)

theorem placeGuarded_eq (hsize : image.descriptor.size.length = image.descriptor.dimension)
    (h : image.descriptor.Addressable) : image.placeGuarded index = .ok (image.placeOf? index) := by
  rw [placeGuarded, placeOf?, Descriptor.linearIndexGuarded_eq hsize h]
  split_ifs <;> rfl

theorem getGuarded_matches (hsize : image.descriptor.size.length = image.descriptor.dimension)
    (h : image.descriptor.Addressable) : (image.getGuarded index).Matches (image.get index) := by
  rw [getGuarded, placeGuarded_eq hsize h, Guarded.ok_bind, get]
  cases image.placeOf? index with
  | none => exact .ok none
  | some place =>
    dsimp only
    cases hx : image.pixels[place]? with
    | none =>
      rw [Guarded.index_error (List.getElem?_eq_none_iff.mp hx)]
      exact .error Trap.index Defect.shortBuffer
    | some x =>
      rw [Guarded.index_ok hx]
      exact .ok (some x)

end Image

namespace Displacement

open Image (Descriptor)

variable {p : Parameters} {offsets : List Float} {source : Image} {result : Descriptor} {index : List Nat}
  {background : Float}

/-- The sample of a pixel of the result, with the numbers on the way to its place in the source. -/
def resampleSized (result : Descriptor) (offsets : List Float) (source : Image) (background : Float)
    (index : List Nat) : Guarded Float := do
  match ← sourceIndexGuarded result source.descriptor offsets 0 index with
  | none => pure background
  | some place => do
    let sample ← source.getGuarded place
    pure (sample.getD background)

/-- The image that a displacement makes of a source, with each look-up, the numbers of its pixels and samples,
and its buffer, in which each sample is put at its place. -/
def displaceImageSized (p : Parameters) (offsets : List Float) (source : Image) : Guarded Image := do
  let d := resultDescriptor p source.descriptor
  let count ← Guarded.product d.size
  let samples ← Guarded.mul count d.components
  let pixels ← (List.range count).foldlM (fun buffer place => do
    let sample ← resampleSized d offsets source p.background (d.gridIndex place)
    Guarded.assign buffer place sample) (List.replicate samples 0.0)
  pure ⟨d, pixels⟩

theorem resampleSized_eq
    (h : ∀ place, sourceIndexGuarded result source.descriptor offsets 0 index = .ok (some place) →
      source.placeGuarded place = .ok (source.placeOf? place)) :
    resampleSized result offsets source background index =
      resampleGuarded result offsets source background index := by
  rw [resampleSized, resampleGuarded]
  cases hs : sourceIndexGuarded result source.descriptor offsets 0 index with
  | error trap => rfl
  | ok found =>
    cases found with
    | none => rfl
    | some place =>
      rw [Guarded.ok_bind, Guarded.ok_bind]
      dsimp only
      rw [Image.getGuarded, h place hs, Guarded.ok_bind]
      cases source.placeOf? place with
      | none => rfl
      | some inBuffer =>
        dsimp only
        cases Guarded.index source.pixels inBuffer <;> rfl

/-- On an addressable grid no number stops the displacement, if none does on the way to a place in the source. -/
theorem displaceImageSized_eq (haddressable : (resultDescriptor p source.descriptor).Addressable)
    (h : ∀ index place, index.length = (resultDescriptor p source.descriptor).size.length →
      sourceIndexGuarded (resultDescriptor p source.descriptor) source.descriptor offsets 0 index =
        .ok (some place) → source.placeGuarded place = .ok (source.placeOf? place)) :
    displaceImageSized p offsets source = displaceImageGuarded p offsets source := by
  rw [displaceImageSized, displaceImageGuarded]
  generalize hd : resultDescriptor p source.descriptor = d at haddressable h
  have hsamples : Guarded.mul d.pixelCount d.components = .ok d.pixelCount := by
    have hone : d.components = 1 := by
      rw [← hd]
      rfl
    rw [hone, Guarded.mul_ok (by simpa using haddressable.pixelCount_lt), Nat.mul_one]
  have hsame : ∀ place, resampleSized d offsets source p.background (d.gridIndex place) =
      resampleGuarded d offsets source p.background (d.gridIndex place) := fun place =>
    resampleSized_eq fun there => h _ there (Descriptor.length_gridFrom d.size place)
  rw [haddressable.product_eq, Guarded.ok_bind, hsamples, Guarded.ok_bind, Guarded.foldlM_range_assign]
  simp only [hsame]

theorem displaceImageSized_overflow (h : ¬(resultDescriptor p source.descriptor).Addressable) :
    displaceImageSized p offsets source = .error .overflow := by
  rw [displaceImageSized, Descriptor.product_overflow h]
  rfl

end Displacement

end Assay
