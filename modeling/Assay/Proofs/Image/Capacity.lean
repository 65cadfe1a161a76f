import Mathlib.Algebra.Order.BigOperators.GroupWithZero.List
import Assay.Proofs.Image.Flaws

namespace Assay.Image

open Guarded

namespace Header

section Products

variable {c width : Nat} {sizes : List Nat}

/-- Where no axis is empty, no product on the way to the number of bytes exceeds it. -/
theorem fits_iff_of_pos (hw : 0 < width) (hpos : ∀ n ∈ sizes, 0 < n) :
    fits c sizes width = true ↔ c * sizes.prod * width < Decimal.sizeLimit := by
  refine ⟨bytes_lt_of_fits, fun h => ?_⟩
  induction sizes generalizing c with
  | nil => exact fits_nil.mpr (by simpa using h)
  | cons n rest ih =>
    rw [List.forall_mem_cons] at hpos
    rw [List.prod_cons, ← Nat.mul_assoc] at h
    have hfirst : c * n ≤ c * n * rest.prod * width :=
      (Nat.le_mul_of_pos_right _ (List.prod_pos hpos.2)).trans (Nat.le_mul_of_pos_right _ hw)
    exact fits_cons.mpr ⟨Nat.lt_of_le_of_lt hfirst h, ih hpos.2 h⟩

end Products

section Checks

variable {α β : Type} {h : Header}

/-- The descriptor that the fields hold, whatever the object and however large its image is. -/
def geometry (h : Header) : Except HeaderFault Descriptor := do
  let n ← h.dimension
  let size ← countedItems Decimal.size? "DimSize" (← h.required "DimSize") n
  let spacing ← h.reals ["ElementSpacing", "ElementSize"] n (List.replicate n 1.0)
  let origin ← h.reals ["Offset", "Origin", "Position"] n (List.replicate n 0.0)
  let direction ← h.direction n
  let elementType ← h.elementType
  let components ← h.components
  pure ⟨n, size, spacing, origin, direction, elementType, components⟩

/-- The descriptor that is read when all checks but that of its size are passed. -/
def checked (h : Header) : Except HeaderFault Descriptor :=
  match h.get? "ObjectType" with
  | some value => if value ≠ "Image" then throw (.otherObject value) else h.geometry
  | none => h.geometry

/-- The check of the size is the last one. -/
theorem descriptor_eq_checked (h : Header) :
    h.descriptor = h.checked >>= fun d =>
      if fits d.components d.size d.elementType.size then pure d else throw .tooLarge := by
  have hgeometry : h.imageDescriptor = h.geometry >>= fun d =>
      if fits d.components d.size d.elementType.size then pure d else throw .tooLarge := by
    simp only [imageDescriptor, geometry, bind_assoc, pure_bind]
  rw [descriptor_eq, checked]
  cases h.get? "ObjectType" with
  | none => exact hgeometry
  | some value =>
    simp only
    split_ifs
    · rfl
    · exact hgeometry

theorem ok_ne_tooLarge (a : α) : (.ok a : Except HeaderFault α) ≠ .error .tooLarge := by
  rintro ⟨⟩

theorem bind_ne_tooLarge {x : Except HeaderFault α} {f : α → Except HeaderFault β}
    (hx : x ≠ .error .tooLarge) (hf : ∀ a, f a ≠ .error .tooLarge) : x >>= f ≠ .error .tooLarge := by
  cases x with
  | error fault => exact fun h => hx (by cases h; rfl)
  | ok a => exact hf a

theorem required_ne_tooLarge (key : String) : h.required key ≠ .error .tooLarge := by
  rw [required]
  cases h.get? key <;> simp

theorem items_ne_tooLarge (parse : List Char → Option α) (key : String) (value : List Char) :
    items parse key value ≠ .error .tooLarge := by
  rw [items]
  induction Text.words value with
  | nil => exact ok_ne_tooLarge []
  | cons word rest ih =>
    rw [List.mapM_cons]
    refine bind_ne_tooLarge ?_ fun x => bind_ne_tooLarge ih fun xs => ok_ne_tooLarge _
    cases parse word <;> simp

theorem countedItems_ne_tooLarge (parse : List Char → Option α) (key value : String) (n : Nat) :
    countedItems parse key value n ≠ .error .tooLarge := by
  rw [countedItems]
  cases hitems : items parse key value.toList with
  | error fault => exact fun h => items_ne_tooLarge parse key value.toList (hitems.trans h)
  | ok xs =>
    simp only [counted]
    split_ifs <;> simp

theorem reals_ne_tooLarge (keys : List String) (n : Nat) (default : List Float) :
    h.reals keys n default ≠ .error .tooLarge := by
  rw [reals]
  cases h.firstOf? keys with
  | none => exact ok_ne_tooLarge default
  | some field => exact countedItems_ne_tooLarge _ _ _ _

theorem direction_ne_tooLarge (n : Nat) : h.direction n ≠ .error .tooLarge := by
  rw [direction]
  split
  · rintro ⟨⟩
  · rename_i key value _
    cases hitems : countedItems Decimal.real? key value (n * n) with
    | error fault => exact fun h => countedItems_ne_tooLarge _ _ _ _ (hitems.trans h)
    | ok m => exact ok_ne_tooLarge _

/-- Only the last check finds an image too large. -/
theorem checked_ne_tooLarge : h.checked ≠ .error .tooLarge := by
  have hdimension : h.dimension ≠ .error .tooLarge := by
    refine bind_ne_tooLarge (required_ne_tooLarge _) fun value => ?_
    split <;> rintro ⟨⟩
  have htype : h.elementType ≠ .error .tooLarge := by
    refine bind_ne_tooLarge (required_ne_tooLarge _) fun name => ?_
    split <;> rintro ⟨⟩
  have hcomponents : h.components ≠ .error .tooLarge := by
    rw [components]
    split
    · rintro ⟨⟩
    · split <;> rintro ⟨⟩
  have hgeometry : h.geometry ≠ .error .tooLarge :=
    bind_ne_tooLarge hdimension fun _ => bind_ne_tooLarge (required_ne_tooLarge _) fun _ =>
      bind_ne_tooLarge (countedItems_ne_tooLarge _ _ _ _) fun _ =>
      bind_ne_tooLarge (reals_ne_tooLarge _ _ _) fun _ => bind_ne_tooLarge (reals_ne_tooLarge _ _ _) fun _ =>
      bind_ne_tooLarge (direction_ne_tooLarge _) fun _ => bind_ne_tooLarge htype fun _ =>
      bind_ne_tooLarge hcomponents fun _ => ok_ne_tooLarge _
  rw [checked]
  split
  · split_ifs
    · rintro ⟨⟩
    · exact hgeometry
  · exact hgeometry

end Checks

end Header

/-- Whether nothing that is computed for the number of bytes of an image is too large: first the products of
the sizes from the first axis on, then the number of samples, and last that of bytes. -/
structure Descriptor.Countable (d : Descriptor) : Prop where
  axes : ∀ k, (d.size.take k).prod ≤ 2 ^ 64 - 1
  pixels : d.pixelCount ≤ 2 ^ 64 - 1
  samples : d.sampleCount ≤ 2 ^ 64 - 1
  bytes : d.sampleCount * d.elementType.size ≤ 2 ^ 64 - 1
  pixels_computed : Guarded.product d.size = .ok d.pixelCount
  samples_computed : sampleCountGuarded d = .ok d.sampleCount
  bytes_computed : Guarded.mul d.sampleCount d.elementType.size = .ok (d.sampleCount * d.elementType.size)

variable {h : Header} {d : Descriptor}

theorem le_of_lt_sizeLimit {n : Nat} (h : n < Decimal.sizeLimit) : n ≤ 2 ^ 64 - 1 :=
  Nat.le_sub_one_of_lt h

/-- An image whose size has been checked is countable, with empty axes in any position. -/
theorem Descriptor.countable_of_fits (hcomponents : 1 ≤ d.components)
    (hfits : Header.fits d.components d.size d.elementType.size = true) : d.Countable := by
  have haxes : ∀ k, (d.size.take k).prod < Decimal.sizeLimit := fun k => by
    simpa using Header.product_take_lt hcomponents (by decide) hfits k
  have hpixels : d.pixelCount < Decimal.sizeLimit := by
    have hall := haxes d.size.length
    rwa [List.take_length, ← d.pixelCount_eq] at hall
  have hbytes : d.sampleCount * d.elementType.size < Decimal.sizeLimit := bytes_lt hfits
  have hsamples : d.sampleCount < Decimal.sizeLimit :=
    Nat.lt_of_le_of_lt (Nat.le_mul_of_pos_right _ (ElementType.size_pos _)) hbytes
  exact {
    axes := fun k => le_of_lt_sizeLimit (haxes k)
    pixels := le_of_lt_sizeLimit hpixels
    samples := le_of_lt_sizeLimit hsamples
    bytes := le_of_lt_sizeLimit hbytes
    pixels_computed := product_ok hcomponents hfits
    samples_computed := sampleCountGuarded_ok hcomponents hfits
    bytes_computed := mul_ok hbytes }

namespace Header

theorem descriptor_eq_ok_iff : h.descriptor = .ok d ↔
    h.checked = .ok d ∧ fits d.components d.size d.elementType.size = true := by
  rw [descriptor_eq_checked, bind_eq_ok]
  constructor
  · rintro ⟨found, hchecked, hlast⟩
    split_ifs at hlast with hfits
    cases hlast
    exact ⟨hchecked, hfits⟩
  · rintro ⟨hchecked, hfits⟩
    exact ⟨d, hchecked, if_pos hfits⟩

theorem descriptor_of_checked (hchecked : h.checked = .ok d) : h.descriptor =
    if fits d.components d.size d.elementType.size then .ok d else .error .tooLarge := by
  rw [descriptor_eq_checked, hchecked]
  rfl

/-- An image is found too large only when all other checks are passed. -/
theorem checked_of_tooLarge (hlarge : h.descriptor = .error .tooLarge) : ∃ d, h.checked = .ok d := by
  cases hchecked : h.checked with
  | ok d => exact ⟨d, rfl⟩
  | error fault =>
    rw [descriptor_eq_checked, hchecked] at hlarge
    exact absurd (hchecked.trans hlarge) checked_ne_tooLarge

/-- The check of the size is sound, and exact for images with pixels. Where a descriptor is read, no number
that is computed for the number of bytes of its image is too large. A header is refused as too large only when
all other checks are passed, and where no axis is empty exactly when the number of bytes is no size. -/
theorem size_check_sound_exact (h : Header) :
    (∀ d, h.descriptor = .ok d → h.checked = .ok d ∧ d.Countable) ∧
    (h.descriptor = .error .tooLarge → ∃ d, h.checked = .ok d) ∧
    ∀ d, h.checked = .ok d → (∀ n ∈ d.size, 0 < n) →
      (h.descriptor = .error .tooLarge ↔
        2 ^ 64 ≤ d.components * d.size.prod * d.elementType.size) := by
  refine ⟨fun d hd => ?_, checked_of_tooLarge, fun d hchecked hpos => ?_⟩
  · obtain ⟨hchecked, hfits⟩ := descriptor_eq_ok_iff.mp hd
    exact ⟨hchecked, Descriptor.countable_of_fits (descriptor_shaped hd).components_pos hfits⟩
  · have hexact := fits_iff_of_pos (c := d.components) (ElementType.size_pos d.elementType) hpos
    have hlimit : Decimal.sizeLimit = 2 ^ 64 := rfl
    rw [descriptor_of_checked hchecked, ← Nat.not_lt, ← hlimit, ← hexact]
    split_ifs with hfits <;> simp [hfits]

/-- An empty axis keeps all products small that come after it, and none that comes before. -/
example : fits 1 [0, 4294967296, 4294967296] 1 = true ∧ fits 1 [4294967296, 4294967296, 0] 1 = false := by
  decide

def planeHeader (sizes : String) : Header where
  fields := [("ElementDataFile", "plane.raw"), ("ElementType", "MET_UCHAR"), ("DimSize", sizes),
    ("NDims", "2")]
  rest := []

/-- The largest image with an axis of this size, and the smallest that is too large. -/
theorem size_check_sound_exact_planes :
    (∃ d, (planeHeader "4294967296 4294967295").descriptor = .ok d ∧ d.Countable) ∧
      (planeHeader "4294967296 4294967296").descriptor = .error .tooLarge := by
  constructor
  · cases hd : (planeHeader "4294967296 4294967295").descriptor with
    | error fault =>
      have hok : (planeHeader "4294967296 4294967295").descriptor.toBool = true := by decide +kernel
      rw [hd] at hok
      cases hok
    | ok d => exact ⟨d, rfl, ((size_check_sound_exact _).1 d hd).2⟩
  · have hparts : (planeHeader "4294967296 4294967296").checked.map
        (fun d => (d.size, d.components, d.elementType)) =
          .ok ([4294967296, 4294967296], 1, .uchar) := by decide +kernel
    cases hchecked : (planeHeader "4294967296 4294967296").checked with
    | error fault =>
      rw [hchecked] at hparts
      cases hparts
    | ok d =>
      rw [hchecked] at hparts
      simp only [Except.map, Except.ok.injEq, Prod.mk.injEq] at hparts
      obtain ⟨hsize, hcomponents, htype⟩ := hparts
      refine ((size_check_sound_exact _).2.2 d hchecked ?_).mpr ?_
      · rw [hsize]
        decide
      · rw [hsize, hcomponents, htype]
        decide

end Header

end Assay.Image
