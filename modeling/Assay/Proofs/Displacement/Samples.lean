import Assay.Proofs.Decimal.Nearest
import Assay.Proofs.Displacement.Buffers

namespace Assay.Displacement

open Image (Descriptor)
open Decimal (awayFromZero sizeLimit value?)

section Axes

variable {axes : List Axis} {index place : List Nat} {size n : Nat} {x : Float}

/-- The nearest place on an axis is the nearest whole number, if that is a place at all. -/
theorem nearest?_eq_some (hsize : size ≤ sizeLimit) :
    Axis.nearest? size x = some n ↔ n < size ∧ ∃ q, value? x = some q ∧ awayFromZero q = n := by
  rw [Axis.nearest?]
  cases hnan : x.isNaN with
  | true =>
    have hnone : value? x = none := by rw [value?, Decimal.isNaN_iff.mp hnan]
    simp [hnone]
  | false =>
    dsimp only
    cases hx : value? x with
    | none =>
      refine iff_of_false ?_ ?_
      · rcases Decimal.nearestTo_of_value?_eq_none hnan hx with h | h <;> rw [h] <;> simp
        omega
      · simp
    | some q =>
      rw [Decimal.nearestTo_eq hx, Decimal.clamp]
      simp only [Bool.false_eq_true, if_false, Option.some.injEq, exists_eq_left']
      split_ifs <;> simp <;> omega

theorem sourceIndex_cons {a : Axis} {i : Nat} :
    sourceIndex (a :: axes) (i :: index) = .ok (some place) ↔
      ∃ n rest, a.source? i = some n ∧ sourceIndex axes index = .ok (some rest) ∧ n :: rest = place := by
  rw [sourceIndex]
  cases a.source? i with
  | none => simp
  | some n => rcases sourceIndex axes index with defect | _ | rest <;> simp [Except.map]

/-- Following the axes leads to the place that each axis gives a number of. -/
theorem sourceIndex_eq_some :
    sourceIndex axes index = .ok (some place) ↔
      place.length = index.length ∧ ∀ (axis i n : Nat), index[axis]? = some i → place[axis]? = some n →
        ∃ a, axes[axis]? = some a ∧ a.source? i = some n := by
  induction index generalizing axes place with
  | nil => simp [sourceIndex, eq_comm]
  | cons i index ih =>
    cases axes with
    | nil =>
      refine iff_of_false (fun h => by cases h) ?_
      rintro ⟨hlength, hnearest⟩
      obtain ⟨n, rest, rfl⟩ := List.exists_cons_of_length_eq_add_one hlength
      obtain ⟨a, ha, -⟩ := hnearest 0 i n rfl rfl
      cases ha
    | cons a axes =>
      rw [sourceIndex_cons]
      cases place with
      | nil => simp
      | cons n place =>
        rw [← Nat.and_forall_add_one]
        simp [ih, and_left_comm]

end Axes

/-- A pixel of the result leads to a place of the source: along each axis, the nearest whole number to where
the pixel lies in the source is the number of the place, which the source has. -/
structure LeadsTo (result source : Descriptor) (offsets : List Float) (index place : List Nat) : Prop where
  onGrid : source.OnGrid place
  nearest : ∀ (axis i n : Nat), index[axis]? = some i → place[axis]? = some n →
    ∃ x q, positionGuarded result source offsets axis i = .ok x ∧ value? x = some q ∧ awayFromZero q = n

section Following

variable {result source : Descriptor} {offsets : List Float} {index place : List Nat} {axis i n : Nat}

/-- An axis leads to a number that the source has along it, the nearest one to where the pixel lies. -/
theorem source?_eq_some {a : Axis} (ha : (axes result source offsets)[axis]? = some a)
    (hsizes : ∀ size ∈ source.size, size ≤ sizeLimit) :
    a.source? i = some n ↔ (∀ size, source.size[axis]? = some size → n < size) ∧
      ∃ x q, positionGuarded result source offsets axis i = .ok x ∧ value? x = some q ∧
        awayFromZero q = n := by
  obtain ⟨hposition, hsize⟩ := @getElem?_axes result source offsets axis i a ha
  rw [Axis.source?, nearest?_eq_some (hsizes _ (List.mem_of_getElem? hsize)), hposition, hsize]
  simp

/-- The axes are followed to a place of the source exactly when the pixel leads there. -/
theorem sourceIndex_axes (hindex : index.length = source.dimension)
    (haxes : (axes result source offsets).length = source.dimension)
    (hsizes : ∀ size ∈ source.size, size ≤ sizeLimit) :
    sourceIndex (axes result source offsets) index = .ok (some place) ↔
      LeadsTo result source offsets index place := by
  rw [sourceIndex_eq_some]
  constructor
  · rintro ⟨hlength, hnearest⟩
    refine ⟨⟨hlength.trans hindex, fun axis n size hn hsize => ?_⟩, fun axis i n hi hn => ?_⟩
    · obtain ⟨hlt, -⟩ := List.getElem?_eq_some_iff.mp hn
      obtain ⟨a, ha, hplace⟩ := hnearest axis _ n (List.getElem?_eq_getElem (hlength ▸ hlt)) hn
      exact ((source?_eq_some ha hsizes).mp hplace).1 size hsize
    · obtain ⟨a, ha, hplace⟩ := hnearest axis i n hi hn
      exact ((source?_eq_some ha hsizes).mp hplace).2
  · rintro ⟨⟨hlength, hinside⟩, hnearest⟩
    refine ⟨hlength.trans hindex.symm, fun axis i n hi hn => ?_⟩
    obtain ⟨hlt, -⟩ := List.getElem?_eq_some_iff.mp hn
    have ha := List.getElem?_eq_getElem (show axis < (axes result source offsets).length by omega)
    exact ⟨_, ha, (source?_eq_some ha hsizes).mpr
      ⟨fun size => hinside axis n size hn, hnearest axis i n hi hn⟩⟩

end Following

/-- What parameters say about a grid has one entry for each of a number of axes, and a matrix of directions. -/
structure Parameters.HasAxes (p : Parameters) (dimension : Nat) : Prop where
  size : ∀ size, p.size = some size → size.length = dimension
  spacing : ∀ spacing, p.spacing = some spacing → spacing.length = dimension
  origin : ∀ origin, p.origin = some origin → origin.length = dimension
  direction : ∀ direction, p.direction = some direction → direction.length = dimension * dimension

section Images

variable {p : Parameters} {offsets : List Float} {source result : Image} {index : List Nat}

theorem length_getD {α : Type} {given : Option (List α)} {other : List α} {n : Nat}
    (hgiven : ∀ xs, given = some xs → xs.length = n) (hother : other.length = n) :
    (given.getD other).length = n := by
  cases given with
  | none => exact hother
  | some xs => exact hgiven xs rfl

/-- The grid of the result has a shape, and as many axes as can be followed. -/
theorem Parameters.HasAxes.shaped {d : Descriptor} (hp : p.HasAxes d.dimension) (hd : d.Shaped) :
    (resultDescriptor p d).Shaped where
  dimension_pos := hd.dimension_pos
  size_length := length_getD hp.size hd.size_length
  spacing_length := length_getD hp.spacing hd.spacing_length
  origin_length := length_getD hp.origin hd.origin_length
  direction_length := length_getD hp.direction hd.direction_length
  components_pos := Nat.le_refl 1

theorem length_axes {d d' : Descriptor} {n : Nat} (hd : d.Shaped) (hd' : d'.Shaped) (hn : d.dimension = n)
    (hn' : d'.dimension = n) (hoffsets : offsets.length = n) : (axes d d' offsets).length = n := by
  simp [axes, hd.origin_length, hd.spacing_length, hd'.origin_length, hd'.spacing_length, hd'.size_length,
    hn, hn', hoffsets]

theorem displaceImage_isOk (hsource : source.WellFormed) (hp : p.HasAxes source.descriptor.dimension)
    (hoffsets : offsets.length = source.descriptor.dimension) :
    ∃ result, displaceImage p offsets source = .ok result := by
  cases hresult : displaceImage p offsets source with
  | ok result => exact ⟨result, rfl⟩
  | error defect =>
    obtain ⟨place, -, huncovered⟩ := (displaceImage_error hsource).mp ⟨defect, hresult⟩
    have hshaped := hp.shaped hsource.shaped
    have hshort := huncovered.short
    rw [length_axes hshaped hsource.shaped rfl rfl hoffsets, Descriptor.gridIndex,
      Descriptor.length_gridFrom, hshaped.size_length] at hshort
    exact absurd hshort (Nat.lt_irrefl _)

/-- The sample of a position on the grid of the result is the one that the position is resampled to. -/
theorem get_displaced (h : displaceImage p offsets source = .ok result)
    (hsize : result.descriptor.size.length = result.descriptor.dimension)
    (hindex : result.descriptor.OnGrid index) :
    ∃ sample, resample source (axes result.descriptor source.descriptor offsets) p.background index =
      .ok sample ∧ result.get index = .ok (some sample) := by
  obtain ⟨hdescriptor, hpixels⟩ := mapM_of_displaceImage h
  obtain ⟨place, hlt, hplace, hback⟩ := hindex.exists_place hsize
  obtain ⟨sample, hsample, hget⟩ := getElem?_of_mapM hpixels (List.getElem?_range hlt)
  rw [hback] at hsample
  have hone : result.descriptor.components = 1 := by
    rw [hdescriptor]
    rfl
  exact ⟨sample, hsample, by simp [Image.get, Image.placeOf?, hone, hplace, hget]⟩

section Pixels

variable {d : Descriptor} {place : List Nat} {background : Float}
  (hindex : index.length = source.descriptor.dimension)
  (haxes : (axes d source.descriptor offsets).length = source.descriptor.dimension)
  (hsizes : ∀ size ∈ source.descriptor.size, size ≤ sizeLimit)
include hindex haxes hsizes

theorem resample_of_leadsTo (hsource : source.WellFormed) (hone : source.descriptor.components = 1)
    (h : LeadsTo d source.descriptor offsets index place) :
    ∃ sample, source.get place = .ok (some sample) ∧
      resample source (axes d source.descriptor offsets) background index = .ok sample := by
  obtain ⟨sample, hget⟩ := hsource.get_onGrid hone h.onGrid
  refine ⟨sample, hget, ?_⟩
  rw [resample, (sourceIndex_axes hindex haxes hsizes).mpr h]
  simp [hget]

theorem resample_of_leads_nowhere (h : ∀ place, ¬LeadsTo d source.descriptor offsets index place) :
    resample source (axes d source.descriptor offsets) background index = .ok background := by
  rw [resample]
  cases hs : sourceIndex (axes d source.descriptor offsets) index with
  | error defect =>
    have hshort := (sourceIndex_error.mp ⟨defect, hs⟩).short
    omega
  | ok found =>
    cases found with
    | none => rfl
    | some place => exact absurd ((sourceIndex_axes hindex haxes hsizes).mp hs) (h place)

end Pixels

/-- While a result with an addressable grid is made, no number is too large and no look-up fails. -/
theorem displaceImageSized_ok (hsource : source.WellFormed) (hone : source.descriptor.components = 1)
    (hsizes : ∀ size ∈ source.descriptor.size, size < sizeLimit)
    (hp : p.HasAxes source.descriptor.dimension) (hoffsets : offsets.length = source.descriptor.dimension)
    (h : displaceImage p offsets source = .ok result) (haddressable : result.descriptor.Addressable)
    (hbuffer : source.pixels.length < sizeLimit) : displaceImageSized p offsets source = .ok result := by
  have hsize := hsource.shaped.size_length
  have hlists := hsize.trans hsource.shaped.origin_length.symm
  have hshaped := hp.shaped hsource.shaped
  have haxes : (axes (resultDescriptor p source.descriptor) source.descriptor offsets).length =
      source.descriptor.dimension :=
    length_axes hshaped hsource.shaped rfl rfl hoffsets
  rw [(displaceImage_ok h).1] at haddressable
  rw [displaceImageSized_eq haddressable, (displaceImage_matches hlists result).mpr h]
  intro index place hindex hfound
  have hlength : index.length = source.descriptor.dimension := hindex.trans hshaped.size_length
  have hleads := (sourceIndex_axes hlength haxes fun size hm => Nat.le_of_lt (hsizes size hm)).mp
    ((sourceIndex_matches hlists (some place)).mp hfound)
  have hcount : source.descriptor.pixelCount < sizeLimit := by
    rwa [hsource.pixels_length, hone, Nat.mul_one, ← Descriptor.pixelCount_eq] at hbuffer
  exact Image.placeGuarded_eq hsize (hleads.onGrid.addressable hsize hcount)

/-- Every pixel of a displaced image has the right sample. For a source with one sample for each pixel and
lists of as many entries as it has axes, there is a result, and no look-up for it fails. Its grid and its stored
type are those of the parameters, or else of the source. A position on its grid has the sample of the place that
it leads to, and the background if it leads to none. All of this can be computed with sizes exactly when the
grid of the result is addressable: no number on the way is too large then, and otherwise the number of its
pixels is. -/
theorem displaceImage_exact (p : Parameters) (offsets : List Float) (source : Image)
    (hsource : source.WellFormed) (hone : source.descriptor.components = 1)
    (hsizes : ∀ size ∈ source.descriptor.size, size < sizeLimit)
    (hp : p.HasAxes source.descriptor.dimension) (hoffsets : offsets.length = source.descriptor.dimension) :
    ∃ result, displaceImage p offsets source = .ok result ∧
      displaceImageGuarded p offsets source = .ok result ∧
      (result.descriptor.Addressable → source.pixels.length < sizeLimit →
        displaceImageSized p offsets source = .ok result ∧
          ∀ index, (result.getGuarded index).Matches (result.get index)) ∧
      (¬result.descriptor.Addressable → displaceImageSized p offsets source = .error .overflow) ∧
      result.descriptor =
        { dimension := source.descriptor.dimension
          size := p.size.getD source.descriptor.size
          spacing := p.spacing.getD source.descriptor.spacing
          origin := p.origin.getD source.descriptor.origin
          direction := p.direction.getD source.descriptor.direction
          elementType := p.elementType.getD source.descriptor.elementType
          components := 1 } ∧
      result.WellFormed ∧ result.pixels.length = result.descriptor.pixelCount ∧
      ∀ index, result.descriptor.OnGrid index →
        (∀ place, LeadsTo result.descriptor source.descriptor offsets index place →
          ∃ sample, source.get place = .ok (some sample) ∧ result.get index = .ok (some sample)) ∧
        ((∀ place, ¬LeadsTo result.descriptor source.descriptor offsets index place) →
          result.get index = .ok (some p.background)) := by
  obtain ⟨result, hresult⟩ := displaceImage_isOk hsource hp hoffsets
  obtain ⟨hdescriptor, hpixels⟩ := displaceImage_ok hresult
  have hshaped : result.descriptor.Shaped := hdescriptor ▸ hp.shaped hsource.shaped
  have hdimension : result.descriptor.dimension = source.descriptor.dimension := by rw [hdescriptor]; rfl
  have hcomponents : result.descriptor.components = 1 := by rw [hdescriptor]; rfl
  have hguarded : displaceImageGuarded p offsets source = .ok result :=
    (displaceImage_matches (hsource.shaped.size_length.trans hsource.shaped.origin_length.symm) result).mpr hresult
  refine ⟨result, hresult, hguarded, fun haddressable hbuffer => ⟨?_, fun index => ?_⟩, fun hlarge => ?_,
    hdescriptor, ⟨hshaped, ?_⟩, ?_, fun index hindex => ?_⟩
  · exact displaceImageSized_ok hsource hone hsizes hp hoffsets hresult haddressable hbuffer
  · exact Image.getGuarded_matches hshaped.size_length haddressable
  · exact displaceImageSized_overflow (hdescriptor ▸ hlarge)
  · rw [hpixels, Descriptor.sampleCount_eq]
  · rw [hpixels, Descriptor.sampleCount, hcomponents, Nat.mul_one]
  have hlength := hindex.axes.trans hdimension
  have haxes := length_axes hshaped hsource.shaped hdimension rfl hoffsets
  have hsizes' := fun size hsize => Nat.le_of_lt (hsizes size hsize)
  obtain ⟨sample, hsample, hget⟩ := get_displaced hresult hshaped.size_length hindex
  constructor
  · intro place hleads
    obtain ⟨taken, htaken, hresample⟩ := resample_of_leadsTo hlength haxes hsizes' hsource hone hleads
    rw [hresample, Except.ok.injEq] at hsample
    exact ⟨taken, htaken, hsample ▸ hget⟩
  · intro hnowhere
    rw [resample_of_leads_nowhere hlength haxes hsizes' hnowhere, Except.ok.injEq] at hsample
    rw [hget, hsample]

def plainParameters : Parameters where
  offsets := [0.5, -0.5]
  size := none
  spacing := none
  origin := none
  direction := none
  background := 9.0
  elementType := none
  format := Parameters.defaultFormat

def sixPixels : Image :=
  ⟨.ofSize [3, 2] .uchar, [1.0, 2.0, 3.0, 4.0, 5.0, 6.0]⟩

/-- Parameters with more pixels on two axes than can be counted. -/
def largeParameters : Parameters :=
  { plainParameters with size := some [4294967296, 4294967296] }

/-- Halves go away from zero: a step of half a pixel forward leads to the next column, and one backward to the row
before. -/
theorem displaceImage_exact_half :
    (∃ result, displaceImage plainParameters [0.5, -0.5] sixPixels = .ok result ∧
      displaceImageSized plainParameters [0.5, -0.5] sixPixels = .ok result ∧
      result.get [0, 1] = .ok (some 5.0) ∧ result.get [1, 0] = .ok (some 9.0)) ∧
    displaceImageSized largeParameters [0.5, -0.5] sixPixels = .error .overflow := by
  have hsource : sixPixels.WellFormed :=
    ⟨⟨by decide, rfl, rfl, rfl, by decide +kernel, by decide⟩, rfl⟩
  have hsizes : ∀ size ∈ sixPixels.descriptor.size, size < sizeLimit := by decide
  have hplain : plainParameters.HasAxes 2 := by constructor <;> simp [plainParameters]
  have hlarge : largeParameters.HasAxes 2 := by constructor <;> simp [largeParameters, plainParameters]
  refine ⟨?_, ?_⟩
  · obtain ⟨result, hresult, -, hsized, -, hdescriptor, -, -, hpixels⟩ :=
      displaceImage_exact plainParameters [0.5, -0.5] sixPixels hsource rfl hsizes hplain rfl
    have hgrid : result.descriptor = sixPixels.descriptor := hdescriptor
    have hleads : ∀ {index place : List Nat}, index.length = 2 →
        (LeadsTo result.descriptor sixPixels.descriptor [0.5, -0.5] index place ↔
          sourceIndex (axes sixPixels.descriptor sixPixels.descriptor [0.5, -0.5]) index = .ok (some place)) := by
      intro index place hindex
      rw [hgrid]
      exact (sourceIndex_axes hindex rfl fun size hsize => Nat.le_of_lt (hsizes size hsize)).symm
    have hon : ∀ {i j : Nat}, i < 3 → j < 2 → result.descriptor.OnGrid [i, j] := by
      intro i j hi hj
      rw [hgrid]
      exact (Descriptor.onGrid_iff rfl).mpr (.cons hi (.cons hj .nil))
    have haddressable : result.descriptor.Addressable := by
      rw [hgrid, Descriptor.Addressable]
      decide
    refine ⟨result, hresult, (hsized haddressable (by decide)).1, ?_, ?_⟩
    · obtain ⟨sample, hsample, hget⟩ :=
        (hpixels [0, 1] (hon (by decide) (by decide))).1 [1, 1] ((hleads rfl).mpr (by decide +kernel))
      rw [hget, ← hsample]
      rfl
    · refine (hpixels [1, 0] (hon (by decide) (by decide))).2 fun place h => ?_
      have hnone : sourceIndex (axes sixPixels.descriptor sixPixels.descriptor [0.5, -0.5]) [1, 0] = .ok none := by
        decide +kernel
      rw [hleads rfl, hnone] at h
      cases h
  · obtain ⟨result, -, -, -, hoverflow, hdescriptor, -⟩ :=
      displaceImage_exact largeParameters [0.5, -0.5] sixPixels hsource rfl hsizes hlarge rfl
    apply hoverflow
    rw [hdescriptor]
    exact fun h => absurd (h 2 (Nat.le_refl 2)) (by decide)

end Images

end Assay.Displacement
