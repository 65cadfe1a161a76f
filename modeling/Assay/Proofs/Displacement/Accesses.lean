import Assay.Proofs.Displacement.BreakOff
import Assay.Proofs.Image.Matrix

namespace Assay

namespace Guarded

section Lists

variable {α β : Type} {xs : List α}

theorem index_error {place : Nat} (h : xs.length ≤ place) : index xs place = .error .index := by
  rw [index, List.getElem?_eq_none h]

theorem index_eq_ok {place : Nat} {x : α} : index xs place = .ok x ↔ xs[place]? = some x := by
  refine ⟨fun h => ?_, index_ok⟩
  cases hx : xs[place]? with
  | none => simp [index, hx] at h
  | some y => rwa [index_ok hx, Except.ok.injEq, ← Option.some_inj] at h

theorem mapM_ok {f : α → Guarded β} {result : α → β} (h : ∀ x ∈ xs, f x = .ok (result x)) :
    xs.mapM f = .ok (xs.map result) := by
  rw [Displacement.mapM_eq_ok, List.forall₂_map_right_iff, List.forall₂_same]
  exact h

theorem foldlM_append {f g : List α → Nat → Guarded (List α)} {places : List Nat} {t t' : List α}
    (last : List α) (step : ∀ k t t', f t k = .ok t' → g (t ++ last) k = .ok (t' ++ last))
    (h : places.foldlM f t = .ok t') : places.foldlM g (t ++ last) = .ok (t' ++ last) := by
  induction places generalizing t with
  | nil =>
    cases h
    rfl
  | cons k rest ih =>
    obtain ⟨next, hnext, hrest⟩ := Image.bind_eq_ok.mp (List.foldlM_cons (m := Guarded) ▸ h)
    rw [List.foldlM_cons, step k t next hnext]
    exact ih hrest

theorem foldlM_error {f : α → Nat → Guarded α} {places : List Nat} {k : Nat} (hk : k ∈ places)
    (step : ∀ s, ∃ trap, f s k = .error trap) (s : α) : ∃ trap, places.foldlM f s = .error trap := by
  induction places generalizing s with
  | nil => cases hk
  | cons first rest ih =>
    rw [List.foldlM_cons]
    cases hfirst : f s first with
    | error trap => exact ⟨trap, rfl⟩
    | ok next =>
      rcases List.mem_cons.mp hk with rfl | hk
      · obtain ⟨trap, htrap⟩ := step s
        rw [hfirst] at htrap
        cases htrap
      · exact ih hk next

end Lists

end Guarded

/-- A computation with places to stop at, and one without: they succeed together, with the same result. -/
def Guarded.Matches {α ε : Type} (x : Guarded α) (y : Except ε α) : Prop :=
  ∀ a, x = .ok a ↔ y = .ok a

namespace Guarded.Matches

variable {α β ε : Type} {x : Guarded α} {y : Except ε α}

theorem ok (a : α) : Matches (.ok a) (.ok a : Except ε α) := fun _ => by simp

theorem error (trap : Trap) (e : ε) : Matches (.error trap : Guarded α) (.error e) := fun _ => by simp

theorem bind {f : α → Guarded β} {g : α → Except ε β} (h : Matches x y)
    (hf : ∀ a, y = .ok a → Matches (f a) (g a)) : Matches (x >>= f) (y >>= g) := by
  intro b
  rw [Image.bind_eq_ok, Image.bind_eq_ok]
  constructor
  · rintro ⟨a, hx, hb⟩
    exact ⟨a, (h a).mp hx, (hf a ((h a).mp hx) b).mp hb⟩
  · rintro ⟨a, hy, hb⟩
    exact ⟨a, (h a).mpr hy, (hf a hy b).mpr hb⟩

theorem map (h : Matches x y) (f : α → β) : Matches (x.map f) (y.map f) := by
  rcases x with trap | a
  · rcases y with e | b
    · exact .error trap e
    · exact absurd ((h b).mpr rfl) nofun
  · rw [(h a).mp rfl]
    exact .ok (f a)

theorem mapM {f : α → Guarded β} {g : α → Except ε β} {xs : List α}
    (h : ∀ x ∈ xs, Matches (f x) (g x)) : Matches (xs.mapM f) (xs.mapM g) := by
  induction xs with
  | nil => exact .ok []
  | cons x rest ih =>
    obtain ⟨hx, hrest⟩ := List.forall_mem_cons.mp h
    rw [List.mapM_cons, List.mapM_cons]
    exact hx.bind fun y _ => (ih hrest).bind fun ys _ => .ok (y :: ys)

/-- One stops exactly when the other fails. -/
theorem error_iff (h : Matches x y) : (∃ trap, x = .error trap) ↔ ∃ e, y = .error e := by
  cases x with
  | error trap =>
    cases y with
    | error e => simp
    | ok a => exact absurd ((h a).mpr rfl) nofun
  | ok a =>
    cases y with
    | error e => exact absurd ((h a).mp rfl) nofun
    | ok b => simp

end Guarded.Matches

namespace Image

variable {n : Nat} {m : List Float}

/-- Cells behind the matrix stay out of the way of a cell that is exchanged. -/
theorem transposeCell_append {r c : Nat} {t t' : List Float} (rest last : List Float)
    (h : transposeCell n m r t c = .ok t') :
    transposeCell n (m ++ rest) r (t ++ last) c = .ok (t' ++ last) := by
  simp only [transposeCell, bind_eq_ok, Guarded.index_eq_ok] at h ⊢
  obtain ⟨a, ha, place, hplace, x, hx, b, hb, target, htarget, hset⟩ := h
  refine ⟨a, ha, place, hplace, x, ?_, b, hb, target, htarget, ?_⟩
  · obtain ⟨hlt, -⟩ := List.getElem?_eq_some_iff.mp hx
    rw [List.getElem?_append_left hlt, hx]
  · rw [Guarded.assign] at hset
    split_ifs at hset with hlt
    cases hset
    rw [Guarded.assign_ok (by rw [List.length_append]; omega), List.set_append_left _ _ hlt]

theorem transpose_append {rest : List Float} (h : m.length = n * n) :
    transpose n (m ++ rest) = transpose n m ++ List.replicate rest.length 0.0 := by
  have hlength : (m ++ rest).length - n * n = rest.length := by
    rw [List.length_append, h, Nat.add_sub_cancel_left]
  rw [transpose, transpose, hlength, h, Nat.sub_self, List.replicate_zero, List.append_nil]
  congr 1
  apply List.flatMap_congr
  intro c hc
  apply List.map_congr_left
  intro r hr
  rw [List.getD_append _ _ _ _ (h ▸ place_lt (List.mem_range.mp hr) (List.mem_range.mp hc))]

theorem transposeInPlace_long (h : n * n ≤ m.length) (fits : n * n < Decimal.sizeLimit) :
    transposeInPlace n m = .ok (transpose n m) := by
  have hfront : (m.take (n * n)).length = n * n := List.length_take_of_le h
  have hbuffer : List.replicate m.length (0.0 : Float) =
      List.replicate (m.take (n * n)).length 0.0 ++ List.replicate (m.drop (n * n)).length 0.0 := by
    rw [← List.replicate_add, ← List.length_append, List.take_append_drop]
  have hrun := transposeInPlace_ok hfront fits
  rw [← List.take_append_drop (n * n) m, transpose_append hfront, transposeInPlace,
    List.take_append_drop, hbuffer]
  refine Guarded.foldlM_append _ (fun r t t' hrow => ?_) hrun
  have hcells := Guarded.foldlM_append (List.replicate (m.drop (n * n)).length 0.0)
    (fun c t t' hcell => transposeCell_append (m.drop (n * n)) _ hcell) hrow
  rwa [List.take_append_drop] at hcells

/-- The exchange of rows and columns meets a cell that is not there exactly when the matrix is too short. -/
theorem transposeInPlace_stops (fits : n * n < Decimal.sizeLimit) :
    (∃ trap, transposeInPlace n m = .error trap) ↔ m.length < n * n := by
  constructor
  · rintro ⟨trap, htrap⟩
    by_contra hlong
    rw [transposeInPlace_long (Nat.le_of_not_lt hlong) fits] at htrap
    cases htrap
  · intro hshort
    obtain ⟨k, rfl⟩ : ∃ k, n = k + 1 := Nat.exists_eq_succ_of_ne_zero (by rintro rfl; simp at hshort)
    -- the last cell of the matrix is read, whatever was written before
    have hplace : k * (k + 1) + k < (k + 1) * (k + 1) := place_lt (Nat.lt_succ_self k) (Nat.lt_succ_self k)
    have hlast : m.length ≤ k * (k + 1) + k := by
      rw [Nat.succ_mul] at hshort
      omega
    have hk : k ∈ List.range (k + 1) := List.mem_range.mpr (Nat.lt_succ_self k)
    refine Guarded.foldlM_error hk (fun t => Guarded.foldlM_error hk (fun t => ⟨.index, ?_⟩) t) _
    simp only [transposeCell, Guarded.mul_ok (Nat.lt_of_le_of_lt (Nat.le_add_right _ k) (hplace.trans fits)),
      Guarded.ok_bind, Guarded.add_ok (hplace.trans fits), Guarded.index_error hlast]
    rfl

/-- The writer has the direction matrix that it needs exactly when its loops stay inside it. -/
theorem hasDirection_iff {d : Descriptor} (fits : d.dimension * d.dimension < Decimal.sizeLimit) :
    hasDirection d = true ↔
      transposeInPlace d.dimension d.direction = .ok (transpose d.dimension d.direction) := by
  rw [hasDirection, decide_eq_true_iff]
  refine ⟨fun h => transposeInPlace_long h fits, fun h => Nat.le_of_not_lt fun hshort => ?_⟩
  obtain ⟨trap, htrap⟩ := (transposeInPlace_stops fits).mpr hshort
  rw [h] at htrap
  cases htrap

end Image

namespace Displacement

open Guarded (Matches)
open Image (Descriptor)

section Axes

variable {α β : Type} {origin spacing : List Float} {xs : List α}

def indexBoth (xs : List α) (ys : List β) (place : Nat) : Guarded (α × β) := do
  let x ← Guarded.index xs place
  let y ← Guarded.index ys place
  pure (x, y)

theorem indexBoth_ok {ys : List β} {place : Nat} {pair : α × β} (h : (xs.zip ys)[place]? = some pair) :
    indexBoth xs ys place = .ok pair := by
  obtain ⟨hx, hy⟩ := List.getElem?_zip_eq_some.mp h
  rw [indexBoth, Guarded.index_ok hx, Guarded.ok_bind, Guarded.index_ok hy]
  rfl

theorem indexBoth_error {ys : List β} {place : Nat} (h : (xs.zip ys).length ≤ place) :
    ∃ trap, indexBoth xs ys place = .error trap := by
  rw [List.length_zip] at h
  cases hx : Guarded.index xs place with
  | error trap => exact ⟨trap, by rw [indexBoth, hx]; rfl⟩
  | ok x =>
    obtain ⟨hlong, -⟩ := List.getElem?_eq_some_iff.mp (Guarded.index_eq_ok.mp hx)
    have hy : ys.length ≤ place := by omega
    exact ⟨.index, by rw [indexBoth, hx, Guarded.ok_bind, Guarded.index_error hy]; rfl⟩

/-- Does something along each axis of a grid, whose origin and spacing are looked up. -/
def alongAxes (origin spacing : List Float) (f : Float × Float → α → β) (xs : List α) : Guarded (List β) :=
  xs.zipIdx.mapM fun entry => do
    let axis ← indexBoth origin spacing entry.2
    pure (f axis entry.1)

/-- A grid with enough axes has no look-up that fails. -/
theorem alongAxes_ok (f : Float × Float → α → β) (h : xs.length ≤ (origin.zip spacing).length) :
    alongAxes origin spacing f xs = .ok (((origin.zip spacing).zip xs).map fun entry => f entry.1 entry.2) := by
  have hlook : ∀ entry ∈ xs.zipIdx, (do
      let axis ← indexBoth origin spacing entry.2
      pure (f axis entry.1) : Guarded β) =
        .ok (f ((origin.zip spacing)[entry.2]?.getD (0.0, 1.0)) entry.1) := by
    rintro ⟨x, place⟩ hm
    have hplace : place < (origin.zip spacing).length := by
      obtain ⟨hlt, -⟩ := List.getElem?_eq_some_iff.mp (List.mk_mem_zipIdx_iff_getElem?.mp hm)
      exact Nat.lt_of_lt_of_le hlt h
    rw [indexBoth_ok (List.getElem?_eq_getElem hplace), List.getElem?_eq_getElem hplace]
    rfl
  rw [alongAxes, Guarded.mapM_ok hlook]
  congr 1
  apply List.ext_getElem
  · rw [List.length_map, List.length_map, List.length_zipIdx, List.length_zip, Nat.min_eq_right h]
  · intro i hi hi'
    have hplace : i < (origin.zip spacing).length := by
      rw [List.length_map, List.length_zipIdx] at hi
      exact Nat.lt_of_lt_of_le hi h
    simp only [List.getElem_map, List.getElem_zipIdx, List.getElem_zip (l := origin.zip spacing), Nat.zero_add,
      List.getElem?_eq_getElem hplace, Option.getD_some]

/-- A grid with too few axes has one. -/
theorem alongAxes_error (f : Float × Float → α → β) (h : (origin.zip spacing).length < xs.length) :
    ∃ trap, alongAxes origin spacing f xs = .error trap := by
  obtain ⟨trap, htrap⟩ := indexBoth_error (Nat.le_refl (origin.zip spacing).length)
  refine mapM_error.mpr ⟨(xs[(origin.zip spacing).length], (origin.zip spacing).length), ?_, trap, ?_⟩
  · exact List.mk_mem_zipIdx_iff_getElem?.mpr (List.getElem?_eq_getElem h)
  · rw [htrap]
    rfl

end Axes

section Points

variable {origin spacing offsets given : List Float} {p : Parameters} {points : PointList}

def nearestAlong (axis : Float × Float) (x : Float) : Int :=
  Decimal.nearestTo (-(Decimal.signedLimit : Int)) ((Decimal.signedLimit : Int) - 1) ((x - axis.1) / axis.2)

/-- The point that a file gives, by its place on the grid or by itself. -/
def inputGuarded (origin spacing : List Float) (areIndices : Bool) (given : List Float) : Guarded (List Float) :=
  if areIndices then alongAxes origin spacing (fun axis i => axis.1 + axis.2 * i) given else .ok given

def lineGuarded (origin spacing offsets : List Float) (areIndices : Bool) (given : List Float) (n : Nat) :
    Guarded String := do
  let input ← inputGuarded origin spacing areIndices given
  let output := (input.zip offsets).map fun pair => pair.1 + pair.2
  let inputIndex ← alongAxes origin spacing nearestAlong input
  let outputIndex ← alongAxes origin spacing nearestAlong output
  pure (s!"Point\t{n}\t; InputIndex = " ++ integersText inputIndex ++
    "\t; InputPoint = " ++ realsText input ++
    "\t; OutputIndexFixed = " ++ integersText outputIndex ++
    "\t; OutputPoint = " ++ realsText output ++
    "\t; Deformation = " ++ realsText (MovedPoint.deformation ⟨input, output⟩) ++ "\n")

def displacePointsGuarded (p : Parameters) (offsets : List Float) (points : PointList) : Guarded String := do
  let origin := p.origin.getD (List.replicate offsets.length 0.0)
  let spacing := p.spacing.getD (List.replicate offsets.length 1.0)
  let cut ← Guarded.chunks offsets.length points.coordinates
  let lines ← cut.zipIdx.mapM fun entry =>
    lineGuarded origin spacing offsets points.areIndices entry.1 entry.2
  pure (String.join lines)

theorem lineGuarded_ok (areIndices : Bool) (n : Nat) (hgiven : given.length = offsets.length)
    (h : offsets.length ≤ (origin.zip spacing).length) :
    lineGuarded origin spacing offsets areIndices given n =
      .ok ((movePoint ⟨origin.zip spacing⟩ offsets areIndices given).line ⟨origin.zip spacing⟩ n) := by
  have hinput : inputGuarded origin spacing areIndices given =
      .ok (movePoint ⟨origin.zip spacing⟩ offsets areIndices given).input := by
    cases areIndices with
    | false => rfl
    | true =>
      rw [inputGuarded, if_pos rfl]
      exact alongAxes_ok _ (by rwa [hgiven])
  have hlength : (movePoint ⟨origin.zip spacing⟩ offsets areIndices given).input.length = offsets.length := by
    cases areIndices with
    | false => exact hgiven
    | true =>
      simp only [movePoint, Grid.pointAt, if_true, List.length_map, List.length_zip] at h ⊢
      omega
  rw [lineGuarded, hinput, Guarded.ok_bind, alongAxes_ok nearestAlong (by rwa [hlength]), Guarded.ok_bind,
    alongAxes_ok nearestAlong (by simpa [hlength] using h)]
  rfl

theorem lineGuarded_error (areIndices : Bool) (n : Nat) (h : (origin.zip spacing).length < given.length) :
    ∃ trap, lineGuarded origin spacing offsets areIndices given n = .error trap := by
  cases areIndices with
  | false =>
    obtain ⟨trap, htrap⟩ := alongAxes_error nearestAlong h
    refine ⟨trap, ?_⟩
    change alongAxes origin spacing nearestAlong given >>= _ = _
    rw [htrap]
    rfl
  | true =>
    obtain ⟨trap, htrap⟩ := alongAxes_error (fun axis i => axis.1 + axis.2 * i) h
    refine ⟨trap, ?_⟩
    rw [lineGuarded, inputGuarded, if_pos rfl, htrap]
    rfl

theorem pieces_eq_groups {α : Type} (width count : Nat) (xs : List α) :
    Guarded.pieces width count xs = groups width count xs := by
  induction count generalizing xs with
  | zero => rfl
  | succ count ih => rw [Guarded.pieces, groups, ih]

theorem length_of_mem_groups {α : Type} {width count : Nat} {xs group : List α}
    (h : xs.length = count * width) (hm : group ∈ groups width count xs) : group.length = width := by
  induction count generalizing xs with
  | zero => cases hm
  | succ count ih =>
    rw [Nat.succ_mul] at h
    rcases List.mem_cons.mp hm with rfl | hm
    · rw [List.length_take]
      omega
    · apply ih _ hm
      rw [List.length_drop]
      omega

/-- The points of a file are moved without a look-up that fails exactly when they fit the grid. -/
theorem displacePoints_matches (h : points.coordinates.length = points.count * offsets.length) :
    (displacePointsGuarded p offsets points).Matches (displacePoints p offsets points) := by
  rw [displacePointsGuarded, displacePoints, pointLines, Grid.ofParameters]
  generalize p.origin.getD (List.replicate offsets.length 0.0) = origin
  generalize p.spacing.getD (List.replicate offsets.length 1.0) = spacing
  dsimp only
  by_cases hempty : offsets.isEmpty = true
  · rw [if_pos hempty, Guarded.chunks, if_pos (List.length_eq_zero_iff.mpr (List.isEmpty_iff.mp hempty))]
    exact .error Trap.chunk Defect.noAxes
  rw [if_neg hempty]
  have hpos : 0 < offsets.length := List.length_pos_iff.mpr (mt List.isEmpty_iff.mpr hempty)
  rw [Guarded.chunks_ok hpos, Guarded.ok_bind, h, Nat.mul_div_cancel _ hpos, pieces_eq_groups]
  split_ifs with hshort
  · -- the first point meets an axis that the grid does not have
    obtain ⟨count, hcount⟩ := Nat.exists_eq_succ_of_ne_zero (Nat.ne_of_gt hshort.1)
    obtain ⟨trap, htrap⟩ : ∃ trap, (groups offsets.length points.count points.coordinates).zipIdx.mapM
        (m := Guarded) (fun entry =>
          lineGuarded origin spacing offsets points.areIndices entry.1 entry.2) = .error trap := by
      refine mapM_error.mpr ⟨(points.coordinates.take offsets.length, 0), ?_, ?_⟩
      · rw [hcount, groups, List.zipIdx_cons]
        exact List.mem_cons_self
      · apply lineGuarded_error
        rw [length_of_mem_groups h (by rw [hcount, groups]; exact List.mem_cons_self)]
        exact hshort.2
    rw [htrap]
    exact .error trap Defect.tooFewAxes
  · have hlines : ∀ entry ∈ (groups offsets.length points.count points.coordinates).zipIdx,
        lineGuarded origin spacing offsets points.areIndices entry.1 entry.2 =
          .ok ((movePoint ⟨origin.zip spacing⟩ offsets points.areIndices entry.1).line
            ⟨origin.zip spacing⟩ entry.2) := by
      rintro ⟨group, n⟩ hm
      have hgroup : group ∈ groups offsets.length points.count points.coordinates :=
        List.mem_of_getElem? (List.mk_mem_zipIdx_iff_getElem?.mp hm)
      have hsome : 0 < points.count := by
        by_contra hnone
        rw [Nat.eq_zero_of_not_pos hnone] at hgroup
        cases hgroup
      apply lineGuarded_ok
      · exact length_of_mem_groups h hgroup
      · exact Nat.le_of_not_lt fun hlt => hshort ⟨hsome, hlt⟩
    rw [Guarded.mapM_ok hlines]
    exact .ok _

/-- A look-up for points of a file fails, or they cannot be cut, exactly when they do not fit the grid. -/
theorem displacePoints_stops (h : points.coordinates.length = points.count * offsets.length) :
    (∃ trap, displacePointsGuarded p offsets points = .error trap) ↔ PointsMisfit p offsets points :=
  (displacePoints_matches h).error_iff.trans displacePoints_error

end Points

section Resampling

variable {result source : Descriptor} {offsets : List Float} {index : List Nat} {axis i : Nat} {x : Float}

def positionGuarded (result source : Descriptor) (offsets : List Float) (axis i : Nat) : Guarded Float := do
  let origin ← Guarded.index result.origin axis
  let spacing ← Guarded.index result.spacing axis
  let offset ← Guarded.index offsets axis
  let sourceOrigin ← Guarded.index source.origin axis
  let sourceSpacing ← Guarded.index source.spacing axis
  pure ((origin + spacing * Decimal.ofInt i + offset - sourceOrigin) / sourceSpacing)

/-- The place along an axis that is nearest to a position. The size is only looked up for a position that does
not lie before the first place. -/
def nearestGuarded (source : Descriptor) (axis : Nat) (x : Float) : Guarded (Option Nat) :=
  let place := Decimal.nearestTo (-1) Decimal.sizeLimit x
  if x.isNaN ∨ place < 0 then .ok none
  else do
    let size ← Guarded.index source.size axis
    pure (if place < size then some place.toNat else none)

/-- The source pixel of a pixel of the result, from one axis on. -/
def sourceIndexGuarded (result source : Descriptor) (offsets : List Float) :
    Nat → List Nat → Guarded (Option (List Nat))
  | _, [] => .ok (some [])
  | axis, i :: index => do
    let x ← positionGuarded result source offsets axis i
    match ← nearestGuarded source axis x with
    | none => pure none
    | some place =>
      let rest ← sourceIndexGuarded result source offsets (axis + 1) index
      pure (rest.map (place :: ·))

def resampleGuarded (result : Descriptor) (offsets : List Float) (source : Image) (background : Float)
    (index : List Nat) : Guarded Float := do
  match ← sourceIndexGuarded result source.descriptor offsets 0 index with
  | none => pure background
  | some place =>
    match source.placeOf? place with
    | none => pure background
    | some inBuffer => Guarded.index source.pixels inBuffer

def displaceImageGuarded (p : Parameters) (offsets : List Float) (source : Image) : Guarded Image := do
  let d := resultDescriptor p source.descriptor
  let pixels ← (List.range d.pixelCount).mapM fun place =>
    resampleGuarded d offsets source p.background (d.gridIndex place)
  pure ⟨d, pixels⟩

theorem getElem?_axes {a : Axis} (h : (axes result source offsets)[axis]? = some a) :
    positionGuarded result source offsets axis i = .ok (a.position i) ∧
      source.size[axis]? = some a.sourceSize := by
  obtain ⟨⟨⟨⟨origin, spacing⟩, offset⟩, ⟨sourceOrigin, sourceSpacing⟩, sourceSize⟩, hzip, rfl⟩ :=
    Option.map_eq_some_iff.mp (List.getElem?_map ▸ h)
  simp only [List.getElem?_zip_eq_some] at hzip
  obtain ⟨⟨⟨horigin, hspacing⟩, hoffset⟩, ⟨hsourceOrigin, hsourceSpacing⟩, hsize⟩ := hzip
  refine ⟨?_, hsize⟩
  simp only [positionGuarded, Guarded.index_ok horigin, Guarded.index_ok hspacing, Guarded.index_ok hoffset,
    Guarded.index_ok hsourceOrigin, Guarded.index_ok hsourceSpacing, Guarded.ok_bind]
  rfl

/-- A position can only be looked up along an axis that all lists have. -/
theorem lt_of_positionGuarded (hsize : source.size.length = source.origin.length)
    (h : positionGuarded result source offsets axis i = .ok x) : axis < (axes result source offsets).length := by
  simp only [positionGuarded, Image.bind_eq_ok, Guarded.index_eq_ok, List.getElem?_eq_some_iff] at h
  obtain ⟨-, ⟨horigin, -⟩, -, ⟨hspacing, -⟩, -, ⟨hoffset, -⟩, -, ⟨hsourceOrigin, -⟩, -, ⟨hsourceSpacing, -⟩,
    -⟩ := h
  simp only [axes, List.length_map, List.length_zip]
  omega

theorem nearestGuarded_ok {size : Nat} (h : source.size[axis]? = some size) (x : Float) :
    nearestGuarded source axis x = .ok (Axis.nearest? size x) := by
  rw [nearestGuarded, Axis.nearest?, Guarded.index_ok h]
  dsimp only
  by_cases hnan : x.isNaN = true
  · rw [if_pos (.inl hnan), if_pos hnan]
  by_cases hbefore : Decimal.nearestTo (-1) Decimal.sizeLimit x < 0
  · rw [if_pos (.inr hbefore), if_neg hnan, if_neg fun hin => Int.not_le_of_gt hbefore hin.1]
  · rw [if_neg (not_or.mpr ⟨hnan, hbefore⟩), if_neg hnan]
    simp only [Int.not_lt.mp hbefore, true_and]
    rfl

/-- Following the axes from one on, no look-up fails but where there are too few axes. -/
theorem sourceIndex_matches (hsize : source.size.length = source.origin.length) :
    (sourceIndexGuarded result source offsets axis index).Matches
      (sourceIndex ((axes result source offsets).drop axis) index) := by
  induction index generalizing axis with
  | nil =>
    rw [sourceIndex, sourceIndexGuarded]
    exact .ok (some [])
  | cons i index ih =>
    cases ha : (axes result source offsets)[axis]? with
    | none =>
      have hend := List.getElem?_eq_none_iff.mp ha
      rw [List.drop_eq_nil_of_le hend, sourceIndex, sourceIndexGuarded]
      cases hx : positionGuarded result source offsets axis i with
      | error trap => exact .error trap Defect.tooFewAxes
      | ok x => exact absurd (lt_of_positionGuarded hsize hx) (Nat.not_lt.mpr hend)
    | some a =>
      obtain ⟨hposition, hsourceSize⟩ := getElem?_axes ha
      obtain ⟨hlt, hget⟩ := List.getElem?_eq_some_iff.mp ha
      rw [List.drop_eq_getElem_cons hlt, hget, sourceIndex, sourceIndexGuarded, hposition, Guarded.ok_bind,
        nearestGuarded_ok hsourceSize, Guarded.ok_bind, Axis.source?]
      cases Axis.nearest? a.sourceSize (a.position i) with
      | none => exact .ok none
      | some place => exact ih.map fun rest => rest.map (place :: ·)

theorem get_matches (image : Image) (index : List Nat) (background : Float) :
    (match image.placeOf? index with
      | none => pure background
      | some inBuffer => Guarded.index image.pixels inBuffer : Guarded Float).Matches
      (match image.get index with
        | .error d => .error (Defect.image d)
        | .ok x => .ok (x.getD background)) := by
  rw [Image.get]
  cases image.placeOf? index with
  | none => exact .ok background
  | some inBuffer =>
    dsimp only
    cases hx : image.pixels[inBuffer]? with
    | none =>
      rw [Guarded.index_error (List.getElem?_eq_none_iff.mp hx)]
      exact .error Trap.index (Defect.image .shortBuffer)
    | some x =>
      rw [Guarded.index_ok hx]
      exact .ok x

theorem resample_matches {source : Image} (hsize : source.descriptor.size.length = source.descriptor.origin.length)
    (background : Float) (index : List Nat) :
    (resampleGuarded result offsets source background index).Matches
      (resample source (axes result source.descriptor offsets) background index) := by
  have hbind : resample source (axes result source.descriptor offsets) background index =
      sourceIndex (axes result source.descriptor offsets) index >>= fun found =>
        match found with
        | none => .ok background
        | some place =>
          match source.get place with
          | .error d => .error (.image d)
          | .ok x => .ok (x.getD background) := by
    rw [resample]
    rcases sourceIndex (axes result source.descriptor offsets) index with d | found | place <;> rfl
  rw [hbind]
  apply Matches.bind (sourceIndex_matches hsize)
  rintro (_ | place) -
  · exact .ok background
  · exact get_matches source place background

/-- An image is moved without a look-up that fails exactly when no pixel of it has too many axes. -/
theorem displaceImage_matches {p : Parameters} {source : Image}
    (hsize : source.descriptor.size.length = source.descriptor.origin.length) :
    (displaceImageGuarded p offsets source).Matches (displaceImage p offsets source) :=
  (Matches.mapM fun _ _ => resample_matches hsize _ _).map _

/-- A look-up for an image fails exactly when a pixel has more axes than there are lists for. -/
theorem displaceImage_stops {p : Parameters} {source : Image} (h : source.WellFormed) :
    (∃ trap, displaceImageGuarded p offsets source = .error trap) ↔
      ∃ place < (resultDescriptor p source.descriptor).pixelCount,
        Uncovered (axes (resultDescriptor p source.descriptor) source.descriptor offsets)
          ((resultDescriptor p source.descriptor).gridIndex place) :=
  (displaceImage_matches (h.shaped.size_length.trans h.shaped.origin_length.symm)).error_iff.trans
    (displaceImage_error h)

end Resampling

end Displacement

end Assay
