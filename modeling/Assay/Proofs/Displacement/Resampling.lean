import Assay.Displacement.Resampling
import Assay.Image.Writer
import Assay.Proofs.Image.Safety
import Assay.Proofs.Image.Updates

namespace Assay

namespace Image

/-- An image that is well formed has a sample wherever it has a place. -/
theorem WellFormed.get_ok {image : Image} (h : image.WellFormed) (index : List Nat) :
    ∃ sample, image.get index = .ok sample := by
  rw [get]
  cases hplace : image.placeOf? index with
  | none => exact ⟨none, rfl⟩
  | some place =>
    rw [placeOf?] at hplace
    split_ifs at hplace with hone
    have hlt : place < image.pixels.length := by
      rw [h.pixels_length, hone, Nat.mul_one, ← Descriptor.pixelCount_eq]
      exact Descriptor.linearIndex_lt h.shaped.size_length hplace
    exact ⟨some image.pixels[place], by simp [hlt]⟩

theorem WellFormed.scalar {image : Image} (h : image.WellFormed) (hone : image.descriptor.components = 1) :
    image.Scalar where
  axes := h.shaped.size_length
  single := hone
  full := by rw [h.pixels_length, hone, Nat.mul_one, Descriptor.pixelCount_eq]

/-- A position on the grid of an image with one sample for each pixel has a sample. -/
theorem WellFormed.get_onGrid {image : Image} (h : image.WellFormed) (hone : image.descriptor.components = 1)
    {index : List Nat} (hindex : image.descriptor.OnGrid index) :
    ∃ sample, image.get index = .ok (some sample) :=
  (h.scalar hone).get_onGrid hindex

/-- The writer breaks off only for a direction matrix that is too short, once the name of the file of the
samples is found. -/
theorem write_error {t : FileTree} {path : Path} {image : Image} :
    (∃ defect, write t path image = .error defect) ↔
      image.pixels.length = image.descriptor.sampleCount ∧
        (path.withExtension dataExtension).fileName? ≠ none ∧
        image.descriptor.direction.length < image.descriptor.dimension * image.descriptor.dimension := by
  rw [write, files]
  by_cases hbuffer : image.pixels.length = image.descriptor.sampleCount
  · cases hname : (path.withExtension dataExtension).fileName? with
    | none => simp [hbuffer, hname]
    | some name =>
      by_cases hdirection : hasDirection image.descriptor = true
      · have hlong := of_decide_eq_true hdirection
        simp [hbuffer, hname, hdirection, Nat.not_lt.mpr hlong]
      · have hshort := Nat.lt_of_not_le (mt decide_eq_true hdirection)
        simp [hbuffer, hname, hdirection, hshort]
  · simp [hbuffer]

end Image

namespace Displacement

open Image (Descriptor)

/-- A pixel that each axis there is leads into the source, and that has further ones. -/
structure Uncovered (axes : List Axis) (index : List Nat) : Prop where
  short : axes.length < index.length
  inside : ∀ pair ∈ axes.zip index, (pair.1.source? pair.2).isSome = true

variable {axes : List Axis} {index : List Nat} {source : Image} {p : Parameters} {offsets : List Float}

theorem uncovered_cons {a : Axis} {i : Nat} :
    Uncovered (a :: axes) (i :: index) ↔ (a.source? i).isSome = true ∧ Uncovered axes index := by
  constructor
  · rintro ⟨hshort, hinside⟩
    rw [List.zip_cons_cons, List.forall_mem_cons] at hinside
    exact ⟨hinside.1, Nat.lt_of_succ_lt_succ hshort, hinside.2⟩
  · rintro ⟨hfirst, hshort, hinside⟩
    refine ⟨Nat.succ_lt_succ hshort, ?_⟩
    rw [List.zip_cons_cons, List.forall_mem_cons]
    exact ⟨hfirst, hinside⟩

theorem sourceIndex_error :
    (∃ defect, sourceIndex axes index = .error defect) ↔ Uncovered axes index := by
  induction axes generalizing index with
  | nil =>
    cases index with
    | nil =>
      refine iff_of_false nofun ?_
      rintro ⟨hshort, -⟩
      exact Nat.lt_irrefl _ hshort
    | cons i rest => exact iff_of_true ⟨_, rfl⟩ ⟨Nat.succ_pos _, nofun⟩
  | cons a others ih =>
    cases index with
    | nil =>
      refine iff_of_false nofun ?_
      rintro ⟨hshort, -⟩
      exact Nat.not_lt_zero _ hshort
    | cons i rest =>
      rw [sourceIndex, uncovered_cons, ← ih]
      cases a.source? i with
      | none => simp
      | some place => cases sourceIndex others rest <;> simp [Except.map]

theorem resample_error (h : source.WellFormed) (background : Float) :
    (∃ defect, resample source axes background index = .error defect) ↔ Uncovered axes index := by
  rw [← sourceIndex_error, resample]
  cases hs : sourceIndex axes index with
  | error defect => simp
  | ok found =>
    cases found with
    | none => simp
    | some place =>
      obtain ⟨sample, hget⟩ := h.get_ok place
      simp [hget]

/-- A list of results has none exactly when one of them is missing. -/
theorem mapM_error {α β ε : Type} {f : α → Except ε β} {xs : List α} :
    (∃ e, xs.mapM f = .error e) ↔ ∃ x ∈ xs, ∃ e, f x = .error e := by
  induction xs with
  | nil => simp [pure, Except.pure]
  | cons x rest ih =>
    simp only [List.mapM_cons, List.mem_cons, exists_eq_or_imp, ← ih]
    cases f x with
    | error e => simp [bind, Except.bind]
    | ok y => cases rest.mapM f <;> simp [bind, Except.bind, pure, Except.pure]

/-- A list of results is there when each of them is. -/
theorem mapM_eq_ok {α β ε : Type} {f : α → Except ε β} {xs : List α} {ys : List β} :
    xs.mapM f = .ok ys ↔ List.Forall₂ (fun x y => f x = .ok y) xs ys := by
  induction xs generalizing ys with
  | nil => cases ys <;> simp [pure, Except.pure]
  | cons x rest ih =>
    rw [List.mapM_cons, List.forall₂_cons_left_iff]
    constructor
    · intro h
      obtain ⟨y, hy, h⟩ := Image.bind_eq_ok.mp h
      obtain ⟨others, hothers, h⟩ := Image.bind_eq_ok.mp h
      cases h
      exact ⟨y, others, hy, ih.mp hothers, rfl⟩
    · rintro ⟨y, others, hy, hothers, rfl⟩
      exact Image.bind_eq_ok.mpr ⟨y, hy, Image.bind_eq_ok.mpr ⟨others, ih.mpr hothers, rfl⟩⟩

theorem length_of_mapM {α β ε : Type} {f : α → Except ε β} {xs : List α} {ys : List β}
    (h : xs.mapM f = .ok ys) : ys.length = xs.length :=
  (mapM_eq_ok.mp h).length_eq.symm

theorem getElem?_of_mapM {α β ε : Type} {f : α → Except ε β} {xs : List α} {ys : List β} {place : Nat}
    {x : α} (h : xs.mapM f = .ok ys) (hx : xs[place]? = some x) :
    ∃ y, f x = .ok y ∧ ys[place]? = some y := by
  obtain ⟨hlength, hget⟩ := List.forall₂_iff_get.mp (mapM_eq_ok.mp h)
  obtain ⟨hlt, rfl⟩ := List.getElem?_eq_some_iff.mp hx
  exact ⟨_, hget place hlt (hlength ▸ hlt), List.getElem?_eq_getElem _⟩

theorem displaceImage_error (h : source.WellFormed) :
    (∃ defect, displaceImage p offsets source = .error defect) ↔
      ∃ place < (resultDescriptor p source.descriptor).pixelCount,
        Uncovered (Displacement.axes (resultDescriptor p source.descriptor) source.descriptor offsets)
          ((resultDescriptor p source.descriptor).gridIndex place) := by
  have hmap : ∀ {r : Except Defect (List Float)} {f : List Float → Image},
      (∃ defect, r.map f = .error defect) ↔ ∃ defect, r = .error defect := by
    intro r f
    cases r <;> simp [Except.map]
  rw [displaceImage, hmap, mapM_error]
  simp only [List.mem_range, resample_error h]

/-- The samples of the result are those that the places of its buffer are resampled to. -/
theorem mapM_of_displaceImage {image : Image} (h : displaceImage p offsets source = .ok image) :
    image.descriptor = resultDescriptor p source.descriptor ∧
      (List.range image.descriptor.pixelCount).mapM (fun place =>
        resample source (Displacement.axes image.descriptor source.descriptor offsets) p.background
          (image.descriptor.gridIndex place)) = .ok image.pixels := by
  rw [displaceImage] at h
  generalize hpixels : List.mapM (m := Except Defect) _ _ = r at h
  cases r with
  | error defect => cases h
  | ok pixels =>
    cases h
    exact ⟨rfl, hpixels⟩

theorem displaceImage_ok {image : Image} (h : displaceImage p offsets source = .ok image) :
    image.descriptor = resultDescriptor p source.descriptor ∧
      image.pixels.length = image.descriptor.sampleCount := by
  obtain ⟨hdescriptor, hpixels⟩ := mapM_of_displaceImage h
  refine ⟨hdescriptor, ?_⟩
  rw [length_of_mapM hpixels, List.length_range, hdescriptor]
  exact (Nat.mul_one _).symm

end Displacement

end Assay
