import Assay.Proofs.Comparison.Images
import Assay.Proofs.Decimal.Order
import Assay.Proofs.Image.Grid

namespace Assay.Comparison

open Image Decimal

section Largest

variable {x y : Float} {sizes : List Float}

theorem isNaN_larger (x y : Float) : (larger x y).isNaN = (x.isNaN || y.isNaN) := by
  rw [larger]
  cases hy : y.isNaN with
  | true => rw [Bool.true_or, if_pos rfl, Bool.or_true, hy]
  | false =>
    rw [Bool.false_or, Bool.or_false]
    split_ifs with hlt
    · rw [hy, (real_lt_iff.mp (of_decide_eq_true hlt)).1]
    · rfl

/-- Of two numbers the larger one is kept. -/
theorem larger_of_numbers (hx : x.isNaN = false) (hy : y.isNaN = false) :
    (larger x y = x ∨ larger x y = y) ∧ x ≤ larger x y ∧ y ≤ larger x y := by
  rw [larger, hy, Bool.false_or]
  split_ifs with hlt
  · exact ⟨.inr rfl, real_le_of_lt (of_decide_eq_true hlt), real_le_refl hy⟩
  · exact ⟨.inl rfl, real_le_refl hx, real_le_of_not_lt hx hy fun h => hlt (decide_eq_true h)⟩

/-- Once a size is no number, what is kept is none. -/
theorem isNaN_foldl_larger (x : Float) (sizes : List Float) :
    (sizes.foldl larger x).isNaN = (x.isNaN || sizes.any Float.isNaN) := by
  induction sizes generalizing x with
  | nil => exact (Bool.or_false _).symm
  | cons y rest ih => rw [List.foldl_cons, ih, isNaN_larger, List.any_cons, Bool.or_assoc]

/-- Of several numbers the largest one is kept. -/
theorem foldl_larger_of_numbers (hx : x.isNaN = false) (h : ∀ y ∈ sizes, y.isNaN = false) :
    sizes.foldl larger x ∈ x :: sizes ∧ ∀ y ∈ x :: sizes, y ≤ sizes.foldl larger x := by
  induction sizes generalizing x with
  | nil => simpa using real_le_refl hx
  | cons y rest ih =>
    rw [List.forall_mem_cons] at h
    obtain ⟨hkept, hxle, hyle⟩ := larger_of_numbers hx h.1
    obtain ⟨hmem, hall⟩ := @ih (larger x y) (by rw [isNaN_larger, hx, h.1]; rfl) h.2
    rw [List.forall_mem_cons] at hall
    rw [List.foldl_cons]
    constructor
    · rcases List.mem_cons.mp hmem with heq | hmem
      · rw [heq]
        rcases hkept with hk | hk
        · rw [hk]
          exact List.mem_cons_self
        · rw [hk]
          exact List.mem_cons_of_mem x List.mem_cons_self
      · exact List.mem_cons_of_mem x (List.mem_cons_of_mem y hmem)
    · rw [List.forall_mem_cons, List.forall_mem_cons]
      exact ⟨real_le_trans hxle hall.1, real_le_trans hyle hall.1, hall.2⟩

theorem isNaN_zero : (0.0 : Float).isNaN = false := by
  decide +kernel

/-- What is told as the largest distance is no number exactly when one of the distances is none. -/
theorem isNaN_largest (ds : List Deviation) :
    (largest ds).isNaN = ds.any fun d => d.size.isNaN := by
  rw [largest, ← List.foldl_map (f := Deviation.size) (g := larger), isNaN_foldl_larger, isNaN_zero,
    Bool.false_or, List.any_map]
  rfl

/-- The largest of several distances is one of them. That the search for it starts at zero does not matter,
as no distance is below zero. -/
theorem largest_of_numbers {ds : List Deviation} (hne : ds ≠ [])
    (h : ∀ d ∈ ds, d.size.isNaN = false) :
    (∃ d ∈ ds, largest ds = d.size) ∧ ∀ d ∈ ds, d.size ≤ largest ds := by
  have hmap : largest ds = (ds.map Deviation.size).foldl larger 0.0 := List.foldl_map.symm
  have hnumbers : ∀ y ∈ ds.map Deviation.size, y.isNaN = false := by simpa using h
  obtain ⟨hmem, hall⟩ := foldl_larger_of_numbers isNaN_zero hnumbers
  rw [← hmap, List.forall_mem_cons, List.forall_mem_map] at hall
  rw [← hmap] at hmem
  refine ⟨?_, hall.2⟩
  rcases List.mem_cons.mp hmem with hstart | hmem
  · -- no distance exceeds zero, so every distance is zero
    obtain ⟨d, hd⟩ := List.exists_mem_of_ne_nil ds hne
    have hle := hall.2 d hd
    rw [hstart] at hle
    exact ⟨d, hd, hstart.trans (magnitude_eq_zero hle).symm⟩
  · obtain ⟨d, hd, heq⟩ := List.mem_map.mp hmem
    exact ⟨d, hd, heq.symm⟩

end Largest

section Places

variable {tolerance : Float} {xs ys : List Float} {place : Nat} {d : Deviation}

/-- Whether two buffers have samples at a place that do not agree. -/
def deviates (tolerance : Float) (xs ys : List Float) (place : Nat) : Bool :=
  match xs[place]?, ys[place]? with
  | some x, some y => !within tolerance x y
  | _, _ => false

theorem deviates_iff : deviates tolerance xs ys place = true ↔
    ∃ x y, xs[place]? = some x ∧ ys[place]? = some y ∧ within tolerance x y = false := by
  rw [deviates]
  cases xs[place]? <;> cases ys[place]? <;> simp

/-- The deviations are the pairs of samples that do not agree. -/
theorem mem_deviations : d ∈ deviations tolerance xs ys ↔
    xs[d.place]? = some d.actual ∧ ys[d.place]? = some d.expected ∧
      within tolerance d.actual d.expected = false := by
  rw [deviations, List.mem_filterMap]
  constructor
  · rintro ⟨⟨⟨x, y⟩, i⟩, hm, hd⟩
    rw [List.mem_zipIdx_iff_getElem?, List.getElem?_zip_eq_some] at hm
    split_ifs at hd with hwithin
    cases hd
    exact ⟨hm.1, hm.2, Bool.not_eq_true _ ▸ hwithin⟩
  · rintro ⟨hx, hy, hwithin⟩
    refine ⟨((d.actual, d.expected), d.place), ?_, ?_⟩
    · rw [List.mem_zipIdx_iff_getElem?, List.getElem?_zip_eq_some]
      exact ⟨hx, hy⟩
    · simp [hwithin]

/-- The deviations stand at the places where the buffers deviate, in order. -/
theorem places_deviations (h : xs.length = ys.length) :
    (deviations tolerance xs ys).map Deviation.place =
      (List.range xs.length).filter (deviates tolerance xs ys) := by
  have hplaces : ∀ entries : List ((Float × Float) × Nat),
      (entries.filterMap fun entry => if within tolerance entry.1.1 entry.1.2 then none
        else some (Deviation.mk entry.2 entry.1.1 entry.1.2)).map Deviation.place =
      (entries.filter fun entry => !within tolerance entry.1.1 entry.1.2).map Prod.snd := by
    intro entries
    induction entries with
    | nil => rfl
    | cons entry rest ih =>
      rw [List.filterMap_cons, List.filter_cons]
      cases within tolerance entry.1.1 entry.1.2 with
      | true => exact ih
      | false => exact congrArg (entry.2 :: ·) ih
  have hdeviates : ∀ entry ∈ (xs.zip ys).zipIdx,
      (!within tolerance entry.1.1 entry.1.2) = deviates tolerance xs ys entry.2 := by
    rintro ⟨⟨x, y⟩, i⟩ hm
    rw [List.mem_zipIdx_iff_getElem?, List.getElem?_zip_eq_some] at hm
    rw [deviates, hm.1, hm.2]
  calc (deviations tolerance xs ys).map Deviation.place
      = ((xs.zip ys).zipIdx.filter fun entry => !within tolerance entry.1.1 entry.1.2).map Prod.snd :=
        hplaces _
    _ = ((xs.zip ys).zipIdx.filter (deviates tolerance xs ys ∘ Prod.snd)).map Prod.snd := by
        rw [List.filter_congr hdeviates]
        rfl
    _ = ((xs.zip ys).zipIdx.map Prod.snd).filter (deviates tolerance xs ys) := List.filter_map.symm
    _ = (List.range xs.length).filter (deviates tolerance xs ys) := by
        rw [List.zipIdx_map_snd, List.length_zip, ← h, Nat.min_self, List.range_eq_range']

variable {first : Deviation} {rest : List Deviation}

/-- The first deviation stands at the least place where the buffers deviate. -/
theorem isLeast_first (h : xs.length = ys.length) (hd : deviations tolerance xs ys = first :: rest) :
    IsLeast {i | deviates tolerance xs ys i = true} first.place := by
  have hplaces : (List.range xs.length).filter (deviates tolerance xs ys) =
      first.place :: rest.map Deviation.place := by
    rw [← places_deviations h, hd, List.map_cons]
  have hsorted : (first.place :: rest.map Deviation.place).Pairwise (· < ·) :=
    hplaces ▸ List.pairwise_lt_range.filter _
  constructor
  · have hmem : first.place ∈ (List.range xs.length).filter (deviates tolerance xs ys) :=
      hplaces ▸ List.mem_cons_self
    exact (List.mem_filter.mp hmem).2
  · intro i hi
    obtain ⟨x, y, hx, -⟩ := deviates_iff.mp hi
    obtain ⟨hlt, -⟩ := List.getElem?_eq_some_iff.mp hx
    have hmem : i ∈ first.place :: rest.map Deviation.place :=
      hplaces ▸ List.mem_filter.mpr ⟨List.mem_range.mpr hlt, hi⟩
    rcases List.mem_cons.mp hmem with rfl | hmem
    · exact le_refl _
    · exact (List.rel_of_pairwise_cons hsorted hmem).le

theorem length_deviations (h : xs.length = ys.length) :
    (deviations tolerance xs ys).length =
      (List.range xs.length).countP (deviates tolerance xs ys) := by
  rw [← List.length_map Deviation.place, places_deviations h, List.countP_eq_length_filter]

end Places

section Reports

structure Report where
  count : Nat
  total : Nat
  tolerance : Float
  largest : Float
  index : List Nat
  actual : Float
  expected : Float

def Report.text (r : Report) : String :=
  s!"{r.count} of {r.total} samples exceed tolerance " ++ scientific r.tolerance ++
    " (max abs difference " ++ scientific r.largest ++ "); first at index " ++
    Descriptor.sizesText r.index ++ ": " ++ plain r.actual ++ " vs " ++ plain r.expected

/-- The report on an image whose samples deviate. -/
def report (image : Image) (tolerance : Float) (first : Deviation) (all : List Deviation) : Report where
  count := all.length
  total := image.pixels.length
  tolerance := tolerance
  largest := largest all
  index := image.descriptor.gridIndex (first.place / max image.descriptor.components 1)
  actual := first.actual
  expected := first.expected

/-- Whether two images are compared sample by sample. -/
structure Comparable (a b : Image) : Prop where
  fields : ∀ f : Field, f.Same a.descriptor b.descriptor
  length : a.pixels.length = b.pixels.length

def distances (tolerance : Float) (a b : Image) : Set Float :=
  {s | ∃ (place : Nat) (x y : Float), a.pixels[place]? = some x ∧ b.pixels[place]? = some y ∧
    within tolerance x y = false ∧ s = (x - y).abs}

/-- Whether all that a report tells of two images is true. -/
structure Report.Truthful (r : Report) (tolerance : Float) (a b : Image) : Prop where
  count : r.count = (List.range a.pixels.length).countP (deviates tolerance a.pixels b.pixels)
  total : r.total = a.pixels.length
  asked : r.tolerance = tolerance
  first : ∃ place, IsLeast {i | deviates tolerance a.pixels b.pixels i = true} place ∧
    a.pixels[place]? = some r.actual ∧ b.pixels[place]? = some r.expected ∧
    a.descriptor.OnGrid r.index ∧
    a.descriptor.linearIndex r.index = some (place / a.descriptor.components)
  noNumber : (∃ s ∈ distances tolerance a b, s.isNaN = true) → scientific r.largest = "NaN"
  largest : (∀ s ∈ distances tolerance a b, s.isNaN = false) →
    r.largest ∈ distances tolerance a b ∧ ∀ s ∈ distances tolerance a b, s ≤ r.largest

variable {check : String} {a b : Image} {tolerance : Float} {first : Deviation} {rest : List Deviation}

theorem scientific_of_isNaN {x : Float} (h : x.isNaN = true) : scientific x = "NaN" := by
  rw [scientific, Decimal.write, isNaN_iff.mp h]
  rfl

theorem mem_distances {s : Float} : s ∈ distances tolerance a b ↔
    ∃ d ∈ deviations tolerance a.pixels b.pixels, d.size = s := by
  constructor
  · rintro ⟨place, x, y, hx, hy, hwithin, rfl⟩
    exact ⟨⟨place, x, y⟩, mem_deviations.mpr ⟨hx, hy, hwithin⟩, rfl⟩
  · rintro ⟨d, hd, rfl⟩
    obtain ⟨hx, hy, hwithin⟩ := mem_deviations.mp hd
    exact ⟨d.place, d.actual, d.expected, hx, hy, hwithin, rfl⟩

/-- Images that are compared sample by sample agree, or their deviations are reported. -/
theorem sameImages_of_comparable (h : Comparable a b) :
    sameImages check a b tolerance =
      match deviations tolerance a.pixels b.pixels with
      | [] => .pass
      | first :: rest => .fail ⟨check, (report a tolerance first (first :: rest)).text⟩ := by
  have hnil : a.descriptor.differences b.descriptor = [] := by
    rw [Descriptor.differences_eq, (Descriptor.differing_eq_nil _ _).mpr h.fields, List.map_nil]
  rw [sameImages, hnil]
  refine (if_neg (by simp)).trans ((if_neg (not_not.mpr h.length)).trans ?_)
  cases deviations tolerance a.pixels b.pixels <;> rfl

/-- The position of the pixel of a place is on the grid and leads back to the pixel. -/
theorem gridIndex_pixel {d : Descriptor} {place : Nat} (hsize : d.size.length = d.dimension)
    (hcomponents : 1 ≤ d.components) (h : place < d.sampleCount) :
    d.OnGrid (d.gridIndex (place / max d.components 1)) ∧
      d.linearIndex (d.gridIndex (place / max d.components 1)) = some (place / d.components) := by
  rw [Nat.max_eq_left hcomponents]
  have hpixel : place / d.components < d.size.prod := by
    rw [Nat.div_lt_iff_lt_mul hcomponents, ← Descriptor.sampleCount_eq]
    exact h
  obtain ⟨hon, hplace⟩ := Descriptor.placeIn_gridFrom hpixel
  exact ⟨(Descriptor.onGrid_iff hsize).mpr hon, (Descriptor.linearIndex_eq_some hsize).mpr ⟨hon, hplace⟩⟩

/-- What is reported of images with the same grid is true. -/
theorem truthful_report (hlength : a.pixels.length = b.pixels.length)
    (hsize : a.descriptor.size.length = a.descriptor.dimension) (hcomponents : 1 ≤ a.descriptor.components)
    (hsamples : a.pixels.length = a.descriptor.sampleCount)
    (hd : deviations tolerance a.pixels b.pixels = first :: rest) :
    (report a tolerance first (first :: rest)).Truthful tolerance a b := by
  have hall : ∀ d ∈ first :: rest, d.size ∈ distances tolerance a b := fun d hm =>
    mem_distances.mpr ⟨d, hd ▸ hm, rfl⟩
  obtain ⟨hactual, hexpected, -⟩ := mem_deviations.mp (hd ▸ List.mem_cons_self (a := first))
  obtain ⟨hlt, -⟩ := List.getElem?_eq_some_iff.mp hactual
  refine ⟨?_, rfl, rfl, ?_, ?_, ?_⟩
  · rw [← length_deviations hlength, hd]
    rfl
  · exact ⟨first.place, isLeast_first hlength hd, hactual, hexpected,
      gridIndex_pixel hsize hcomponents (hsamples ▸ hlt)⟩
  · rintro ⟨s, hs, hnan⟩
    obtain ⟨d, hm, rfl⟩ := mem_distances.mp hs
    apply scientific_of_isNaN
    rw [report, isNaN_largest, List.any_eq_true]
    exact ⟨d, hd ▸ hm, hnan⟩
  · intro hnumbers
    obtain ⟨⟨d, hm, heq⟩, hle⟩ :=
      largest_of_numbers (List.cons_ne_nil first rest) fun d hm => hnumbers _ (hall d hm)
    refine ⟨?_, fun s hs => ?_⟩
    · rw [report, heq]
      exact hall d hm
    · obtain ⟨d, hm, rfl⟩ := mem_distances.mp hs
      exact hle d (hd ▸ hm)

end Reports

/-- A report on samples is truthful. Where two images with equal descriptors and a sample for each component
of each pixel are told apart, the report counts the places at which their samples do not agree, shows the
samples of the first of them and the position of its pixel, and tells the largest distance of such samples,
or that there is one that is no number. -/
theorem report_truthful (check : String) {a b : Image} {tolerance : Float} {m : Mismatch}
    (hequal : (a.descriptor == b.descriptor) = true)
    (hsize : a.descriptor.size.length = a.descriptor.dimension) (hcomponents : 1 ≤ a.descriptor.components)
    (ha : a.pixels.length = a.descriptor.sampleCount) (hb : b.pixels.length = b.descriptor.sampleCount)
    (hreject : sameImages check a b tolerance = .fail m) :
    ∃ r : Report, r.Truthful tolerance a b ∧ m = ⟨check, r.text⟩ := by
  have hfields := (Descriptor.beq_iff _ _).mp hequal
  have hcount : a.descriptor.sampleCount = b.descriptor.sampleCount := by
    rw [Descriptor.sampleCount_eq, Descriptor.sampleCount_eq, show a.descriptor.size = _ from hfields .size,
      show a.descriptor.components = _ from hfields .components]
  have hlength : a.pixels.length = b.pixels.length := by rw [ha, hb, hcount]
  rw [sameImages_of_comparable ⟨hfields, hlength⟩] at hreject
  split at hreject
  · cases hreject
  · rename_i first rest hd
    cases hreject
    exact ⟨_, truthful_report hlength hsize hcomponents ha hd, rfl⟩

def pairs (pixels : List Float) : Image where
  descriptor := { Descriptor.ofSize [2, 2] .double with components := 2 }
  pixels := pixels

/-- A distance that is no number is told also when it is not the first, and larger ones follow it. -/
theorem report_truthful_pairs :
    ∃ r : Report, r.Truthful 0.5 (pairs [0, 0, 0, 3, 0.0 / 0.0, 1, 0, 9]) (pairs [0, 0, 0, 1, 0, 1, 0, 0]) ∧
      "3 of 8 samples exceed tolerance 5e-1 (max abs difference NaN); first at index [1, 0]: 3 vs 1" =
        r.text := by
  have hreject : sameImages "pairs" (pairs [0, 0, 0, 3, 0.0 / 0.0, 1, 0, 9]) (pairs [0, 0, 0, 1, 0, 1, 0, 0])
      0.5 = .fail ⟨"pairs",
        "3 of 8 samples exceed tolerance 5e-1 (max abs difference NaN); first at index [1, 0]: 3 vs 1"⟩ := by
    decide +kernel
  obtain ⟨r, htrue, htext⟩ :=
    report_truthful "pairs" (by decide +kernel) rfl (by decide) rfl rfl hreject
  exact ⟨r, htrue, congrArg Mismatch.detail htext⟩

end Assay.Comparison
