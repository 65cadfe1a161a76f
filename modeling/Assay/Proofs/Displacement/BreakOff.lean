import Assay.Proofs.Displacement.Calls
import Assay.Proofs.Displacement.Resampling

namespace Assay.Displacement

open Work
open Image (Descriptor)

/-- What of an image cannot be transformed: a pixel of the result with more axes than there are lists for, or a
direction matrix that is too short to be written. -/
inductive ImageMisfit (p : Parameters) (offsets : List Float) (source : Image) (path : Path) : Prop where
  | pixel {place : Nat} (inside : place < (resultDescriptor p source.descriptor).pixelCount)
    (uncovered : Uncovered (axes (resultDescriptor p source.descriptor) source.descriptor offsets)
      ((resultDescriptor p source.descriptor).gridIndex place)) : ImageMisfit p offsets source path
  | direction (named : (path.withExtension Image.dataExtension).fileName? ≠ none)
    (short : (resultDescriptor p source.descriptor).direction.length <
      source.descriptor.dimension * source.descriptor.dimension) : ImageMisfit p offsets source path

/-- What of a list of points cannot be transformed: points without axes, or with more axes than the grid. -/
inductive PointsMisfit (p : Parameters) (offsets : List Float) (points : PointList) : Prop where
  | noAxes (none : offsets = []) : PointsMisfit p offsets points
  | grid (some : 0 < points.count) (short : (Grid.ofParameters p offsets.length).axes.length < offsets.length) :
    PointsMisfit p offsets points

variable {flaw : Option Flaw} {args : List String} {t there : FileTree} {o : Options} {out input : Path}
  {p : Parameters} {offsets : List Float}

section Steps

def storeImage (path : Path) (result : Image) : Work Unit := do
  match Image.write (← get) path result with
  | .error defect => throw (.broken (.image defect))
  | .ok (written, outcome) =>
    set written
    match outcome with
    | .error failure => refuse (.image failure)
    | .ok () => pure ()

def storePoints (out : Path) (bytes : Bytes) : Work Unit := do
  match (← get).write (out.join ⟨Catalog.outputPoints⟩) bytes with
  | .error cause => refuse (.unwritablePoints cause)
  | .ok written => set written

theorem workOnImage_eq (out : Path) (p : Parameters) (offsets : List Float) (input : Path) :
    workOnImage out p offsets input = get >>= fun t =>
      Work.ofExcept ((Image.read t input).mapError .image) >>= fun source =>
        demand (source.descriptor.dimension = offsets.length)
            (.wrongDimension offsets.length source.descriptor.dimension) >>= fun _ =>
          Work.ofParts (displaceImage p offsets source) >>= storeImage (out.join ⟨"result." ++ p.format⟩) := by
  unfold workOnImage
  congr 1
  funext t
  cases Image.read t input with
  | error failure => rfl
  | ok source =>
    change _ = demand (source.descriptor.dimension = offsets.length) _ >>= _
    rw [demand_bind]
    by_cases hdimension : source.descriptor.dimension = offsets.length
    · rw [if_pos hdimension]
      exact if_neg (not_not.mpr hdimension)
    · rw [if_neg hdimension]
      exact if_pos hdimension

theorem workOnPoints_eq (flaw : Option Flaw) (out : Path) (p : Parameters) (offsets : List Float)
    (input : Path) :
    workOnPoints flaw out p offsets input = get >>= fun t =>
      Work.ofExcept ((t.readText input).mapError (.unreadablePoints input)) >>= fun text =>
        Work.ofExcept (PointList.read offsets.length text) >>= fun points =>
          Work.ofParts (displacePoints p offsets points) >>= fun result =>
            storePoints out (Text.Utf8.ofString (pointsText flaw result)) := by
  unfold workOnPoints
  congr 1
  funext t
  cases t.readText input <;> rfl

theorem breaks_storeImage {path : Path} {result : Image} :
    Breaks (storeImage path result) t ↔ ∃ defect, Image.write t path result = .error defect := by
  unfold storeImage
  rw [breaks_get_bind]
  cases Image.write t path result with
  | error defect => simp
  | ok ended =>
    obtain ⟨written, outcome⟩ := ended
    cases outcome <;> simp [breaks_bind]

theorem not_breaks_storePoints (out : Path) (bytes : Bytes) (t : FileTree) :
    ¬Breaks (storePoints out bytes) t := by
  unfold storePoints
  rw [breaks_get_bind]
  cases t.write (out.join ⟨Catalog.outputPoints⟩) bytes <;> simp

end Steps

section Misfits

theorem mapError_ok_iff {ε δ α : Type} {m : ε → δ} {r : Except ε α} {a : α} :
    r.mapError m = .ok a ↔ r = .ok a := by
  cases r <;> simp [Except.mapError]

theorem breaks_workOnImage :
    Breaks (workOnImage out p offsets input) t ↔
      ∃ source, Image.read t input = .ok source ∧ source.descriptor.dimension = offsets.length ∧
        ImageMisfit p offsets source (out.join ⟨"result." ++ p.format⟩) := by
  rw [workOnImage_eq]
  simp only [breaks_get_bind, breaks_ofExcept_bind, breaks_demand_bind, breaks_ofParts_bind,
    breaks_storeImage, mapError_ok_iff]
  refine exists_congr fun source => and_congr_right fun hread => and_congr_right fun _ => ?_
  have hformed := Image.wellFormed_of_read hread
  constructor
  · rintro (hdefect | ⟨result, hresult, hwrite⟩)
    · obtain ⟨place, hplace, huncovered⟩ := (displaceImage_error hformed).mp hdefect
      exact .pixel hplace huncovered
    · obtain ⟨-, hnamed, hshort⟩ := Image.write_error.mp hwrite
      rw [(displaceImage_ok hresult).1] at hshort
      exact .direction hnamed hshort
  · intro hmisfit
    cases hresult : displaceImage p offsets source with
    | error defect => exact .inl ⟨defect, rfl⟩
    | ok result =>
      obtain ⟨hdescriptor, hlength⟩ := displaceImage_ok hresult
      refine .inr ⟨result, rfl, Image.write_error.mpr ⟨hlength, ?_⟩⟩
      cases hmisfit with
      | pixel hplace huncovered =>
        obtain ⟨defect, hdefect⟩ := (displaceImage_error hformed).mpr ⟨_, hplace, huncovered⟩
        rw [hresult] at hdefect
        cases hdefect
      | direction hnamed hshort =>
        rw [hdescriptor]
        exact ⟨hnamed, hshort⟩

theorem displacePoints_error {points : PointList} :
    (∃ defect, displacePoints p offsets points = .error defect) ↔ PointsMisfit p offsets points := by
  rw [displacePoints]
  split_ifs with hempty hshort
  · exact iff_of_true ⟨_, rfl⟩ (.noAxes (List.isEmpty_iff.mp hempty))
  · exact iff_of_true ⟨_, rfl⟩ (.grid hshort.1 hshort.2)
  · refine iff_of_false nofun ?_
    rintro (rfl | ⟨hsome, hgrid⟩)
    · exact hempty rfl
    · exact hshort ⟨hsome, hgrid⟩

theorem breaks_workOnPoints :
    Breaks (workOnPoints flaw out p offsets input) t ↔
      ∃ text points, t.readText input = .ok text ∧ PointList.read offsets.length text = .ok points ∧
        PointsMisfit p offsets points := by
  rw [workOnPoints_eq]
  simp only [breaks_get_bind, breaks_ofExcept_bind, breaks_ofParts_bind, mapError_ok_iff,
    displacePoints_error, not_breaks_storePoints, and_false, exists_false, or_false, exists_and_left]

/-- The lists of a parameter file fit each other: none is too short for the axes of the displacement, and the
grid has no more axes than that. -/
structure Parameters.Fits (p : Parameters) : Prop where
  offsets : p.offsets ≠ []
  size : ∀ sizes, p.size = some sizes → sizes.length ≤ p.offsets.length
  spacing : ∀ xs, p.spacing = some xs → p.offsets.length ≤ xs.length
  origin : ∀ xs, p.origin = some xs → p.offsets.length ≤ xs.length
  direction : ∀ xs, p.direction = some xs → p.offsets.length * p.offsets.length ≤ xs.length

theorem length_appliedOffsets (h : appliedOffsets flaw p.offsets = .ok offsets) :
    offsets.length = p.offsets.length := by
  unfold appliedOffsets at h
  split_ifs at h
  · cases hp : p.offsets with
    | nil => simp [hp] at h
    | cons x rest =>
      simp only [hp, Except.ok.injEq] at h
      rw [← h, List.length_cons, List.length_cons]
  · cases h
    rfl

theorem appliedOffsets_error :
    (∃ defect, appliedOffsets flaw offsets = .error defect) ↔ flaw = some .shift ∧ offsets = [] := by
  unfold appliedOffsets
  split_ifs with hshift
  · cases offsets <;> simp [hshift]
  · simp [hshift]

/-- What a parameter file says, or else what the source says, for a list that is long enough in either. -/
theorem le_length_getD {α : Type} {own : Option (List α)} {other : List α} {n : Nat}
    (hown : ∀ xs, own = some xs → n ≤ xs.length) (hother : n ≤ other.length) :
    n ≤ (own.getD other).length := by
  cases own with
  | none => exact hother
  | some xs => exact hown xs rfl

theorem Parameters.Fits.not_imageMisfit (h : p.Fits) (hoffsets : offsets.length = p.offsets.length)
    {source : Image} (hsource : source.descriptor.Shaped)
    (hdimension : source.descriptor.dimension = offsets.length) (path : Path) :
    ¬ImageMisfit p offsets source path := by
  have hn : source.descriptor.dimension = p.offsets.length := hdimension.trans hoffsets
  rintro (⟨-, ⟨hshort, -⟩⟩ | ⟨-, hshort⟩)
  · -- no list ends before the axes of the displacement, and no pixel has more axes
    apply Nat.not_le_of_lt hshort
    have horigin : p.offsets.length ≤ (p.origin.getD source.descriptor.origin).length :=
      le_length_getD h.origin (by rw [hsource.origin_length, hn])
    have hspacing : p.offsets.length ≤ (p.spacing.getD source.descriptor.spacing).length :=
      le_length_getD h.spacing (by rw [hsource.spacing_length, hn])
    have hsize : (p.size.getD source.descriptor.size).length ≤ p.offsets.length := by
      cases hs : p.size with
      | none => rw [Option.getD_none, hsource.size_length, hn]
      | some sizes => exact h.size sizes hs
    simp only [Descriptor.gridIndex, Descriptor.length_gridFrom, Displacement.axes, resultDescriptor,
      List.length_map, List.length_zip, hsource.origin_length, hsource.spacing_length,
      hsource.size_length, hn, hoffsets]
    omega
  · apply Nat.not_le_of_lt hshort
    rw [hn]
    apply le_length_getD h.direction
    rw [hsource.direction_length, hn]

/-- What parameters say about a grid reaches a number of axes. -/
structure Parameters.Covers (p : Parameters) (axes : Nat) : Prop where
  origin : ∀ xs, p.origin = some xs → axes ≤ xs.length
  spacing : ∀ xs, p.spacing = some xs → axes ≤ xs.length

theorem Parameters.Covers.not_pointsMisfit (h : p.Covers offsets.length) (hoffsets : offsets ≠ [])
    (points : PointList) : ¬PointsMisfit p offsets points := by
  rintro (hnone | ⟨-, hshort⟩)
  · exact hoffsets hnone
  · apply Nat.not_le_of_lt hshort
    rw [Grid.ofParameters, List.length_zip]
    apply Nat.le_min_of_le_of_le
    · exact le_length_getD h.origin (by simp)
    · exact le_length_getD h.spacing (by simp)

theorem Parameters.Fits.not_pointsMisfit (h : p.Fits) (hoffsets : offsets.length = p.offsets.length)
    (points : PointList) : ¬PointsMisfit p offsets points := by
  have hcovers : p.Covers offsets.length := by
    rw [hoffsets]
    exact ⟨h.origin, h.spacing⟩
  refine hcovers.not_pointsMisfit ?_ points
  rintro rfl
  exact h.offsets (List.eq_nil_of_length_eq_zero hoffsets.symm)

end Misfits

section Calls

/-- A call that got as far as its parameters: it asks for more than a text, its options name an output directory
that is there, and its parameter file can be read. -/
structure Called (flaw : Option Flaw) (args : List String) (t : FileTree) (o : Options)
    (places : Options.Places) (p : Parameters) : Prop where
  noBanner : banner? flaw args = none
  options : Options.read args = .ok o
  named : o.places = .ok places
  noCrash : flaw ≠ some .crash
  there : t.hasDirectory places.out = true
  parameters : Parameters.load t places.parameters = .ok p

/-- What does not fit together in a call: a displacement without the axis that is to be shifted, an image, or
the points that are read once the image is written. -/
inductive Misfit (flaw : Option Flaw) (t : FileTree) (o : Options) (out : Path) (p : Parameters) : Prop where
  | shift (flawed : flaw = some .shift) (none : p.offsets = []) : Misfit flaw t o out p
  | image {offsets : List Float} {input : String} {source : Image}
    (applied : appliedOffsets flaw p.offsets = .ok offsets) (given : o.get? "-in" = some input)
    (read : Image.read t ⟨input⟩ = .ok source) (dimension : source.descriptor.dimension = offsets.length)
    (misfit : ImageMisfit p offsets source (out.join ⟨"result." ++ p.format⟩)) : Misfit flaw t o out p
  | points {offsets : List Float} {there : FileTree} {input text : String} {points : PointList}
    (applied : appliedOffsets flaw p.offsets = .ok offsets)
    (written : onTree (optionally (o.get? "-in") (workOnImage out p offsets)) t = (.ok (), there))
    (given : o.get? "-def" = some input) (read : there.readText ⟨input⟩ = .ok text)
    (listed : PointList.read offsets.length text = .ok points) (misfit : PointsMisfit p offsets points) :
    Misfit flaw t o out p

variable {places : Options.Places}

theorem breaks_workOn :
    Breaks (workOn flaw o out p offsets) t ↔
      (∃ input, o.get? "-in" = some input ∧ Breaks (workOnImage out p offsets ⟨input⟩) t) ∨
        ∃ there, onTree (optionally (o.get? "-in") (workOnImage out p offsets)) t = (.ok (), there) ∧
          ∃ input, o.get? "-def" = some input ∧ Breaks (workOnPoints flaw out p offsets ⟨input⟩) there := by
  have hanswer : ∀ there, ¬Breaks (if (o.has "-jac" || o.has "-jacmat") = true then
      pure (linesText ["Jacobian of a translation is the identity"]) else pure "") there := by
    intro there
    split_ifs <;> simp
  rw [workOn_eq, breaks_bind, breaks_optionally]
  refine or_congr_right ⟨?_, ?_⟩
  · rintro ⟨_, there, hthere, hpoints⟩
    rw [breaks_bind, breaks_optionally] at hpoints
    obtain hpoints | ⟨_, left, -, hlast⟩ := hpoints
    · exact ⟨there, hthere, hpoints⟩
    · exact absurd hlast (hanswer left)
  · rintro ⟨there, hthere, hpoints⟩
    refine ⟨(), there, hthere, ?_⟩
    rw [breaks_bind, breaks_optionally]
    exact .inl hpoints

theorem misfit_iff :
    Misfit flaw t o out p ↔ (flaw = some .shift ∧ p.offsets = []) ∨
      ∃ offsets, appliedOffsets flaw p.offsets = .ok offsets ∧ Breaks (workOn flaw o out p offsets) t := by
  simp only [breaks_workOn, breaks_workOnImage, breaks_workOnPoints]
  constructor
  · rintro (⟨hflaw, hnone⟩ | ⟨happlied, hgiven, hread, hdimension, hmisfit⟩ |
      ⟨happlied, hwritten, hgiven, hread, hlisted, hmisfit⟩)
    · exact .inl ⟨hflaw, hnone⟩
    · exact .inr ⟨_, happlied, .inl ⟨_, hgiven, _, hread, hdimension, hmisfit⟩⟩
    · exact .inr ⟨_, happlied, .inr ⟨_, hwritten, _, hgiven, _, _, hread, hlisted, hmisfit⟩⟩
  · rintro (⟨hflaw, hnone⟩ | ⟨_, happlied, (⟨_, hgiven, _, hread, hdimension, hmisfit⟩ |
      ⟨_, hwritten, _, hgiven, _, _, hread, hlisted, hmisfit⟩)⟩)
    · exact .shift hflaw hnone
    · exact .image happlied hgiven hread hdimension hmisfit
    · exact .points happlied hwritten hgiven hread hlisted hmisfit

theorem breaks_work :
    banner? flaw args = none ∧ Breaks (work flaw args) t ↔
      ∃ o places p, Called flaw args t o places p ∧ Misfit flaw t o places.out p := by
  rw [work_eq]
  simp only [workWith_eq, breaks_ofExcept_bind, breaks_demand_bind, breaks_get_bind, breaks_ofParts_bind,
    appliedOffsets_error, ← misfit_iff]
  constructor
  · rintro ⟨hbanner, o, hread, places, hplaces, hcrash, hthere, p, hload, hmisfit⟩
    exact ⟨o, places, p, ⟨hbanner, hread, hplaces, hcrash, hthere, hload⟩, hmisfit⟩
  · rintro ⟨o, places, p, ⟨hbanner, hread, hplaces, hcrash, hthere, hload⟩, hmisfit⟩
    exact ⟨hbanner, o, hread, places, hplaces, hcrash, hthere, p, hload, hmisfit⟩

/-- Lists that fit each other fit every image and all points that a call accepts. -/
theorem Parameters.Fits.not_misfit (h : p.Fits) : ¬Misfit flaw t o out p := by
  rintro (⟨-, hnone⟩ | ⟨happlied, -, hread, hdimension, hmisfit⟩ | ⟨happlied, -, -, -, -, hmisfit⟩)
  · exact h.offsets hnone
  · exact h.not_imageMisfit (length_appliedOffsets happlied) (Image.wellFormed_of_read hread).shaped
      hdimension _ hmisfit
  · exact h.not_pointsMisfit (length_appliedOffsets happlied) _ hmisfit

theorem Called.parameters_unique {o' : Options} {places' : Options.Places} {p' : Parameters}
    (h : Called flaw args t o places p) (h' : Called flaw args t o' places' p') : p' = p := by
  obtain rfl : o = o' := Except.ok.inj (h.options.symm.trans h'.options)
  obtain rfl : places = places' := Except.ok.inj (h.named.symm.trans h'.named)
  exact Except.ok.inj (h'.parameters.symm.trans h.parameters)

theorem exit_ended (front : String) (r : Except Stop String) :
    (ended front r).exit = .code brokenCode ↔ ∃ defect, r = .error (.broken defect) := by
  rcases r with (refusal | defect) | printed <;> simp [ended, brokenCode, refusedCode]

theorem exit_program :
    (program flaw args t).1.exit = .code brokenCode ↔
      banner? flaw args = none ∧ Breaks (work flaw args) t := by
  rw [program_eq]
  cases banner? flaw args with
  | some printed => simp [exit_ended]
  | none => simp [exit_ended, Breaks]

/-- A call breaks off exactly when its lists do not fit together with what is to be transformed, and never when
the lists of its parameter file fit each other. In all other cases it succeeds, or it is refused with an error
code and a message. -/
theorem breaks_off_iff (flaw : Option Flaw) (args : List String) (t : FileTree) :
    ((program flaw args t).1.exit = .code brokenCode ↔
      ∃ o places p, Called flaw args t o places p ∧ Misfit flaw t o places.out p) ∧
    (∀ o places p, Called flaw args t o places p → p.Fits →
      (program flaw args t).1.exit ≠ .code brokenCode) ∧
    ((program flaw args t).1.exit ≠ .code brokenCode →
      (program flaw args t).1.exit = .code 0 ∨
        ∃ r : Refusal, (program flaw args t).1 =
          ⟨.code refusedCode, [], Text.Utf8.ofString (warning flaw ++ linesText [r.message])⟩) := by
  refine ⟨exit_program.trans breaks_work, ?_, ?_⟩
  · intro o places p hcalled hfits hbroken
    obtain ⟨o', places', p', hcalled', hmisfit⟩ := breaks_work.mp (exit_program.mp hbroken)
    rw [hcalled.parameters_unique hcalled'] at hmisfit
    exact hfits.not_misfit hmisfit
  · rw [program_eq]
    cases banner? flaw args with
    | some printed => exact fun _ => .inl rfl
    | none =>
      dsimp only
      rcases (onTree (work flaw args) t).1 with (r | defect) | printed
      · exact fun _ => .inr ⟨r, rfl⟩
      · exact fun h => absurd rfl h
      · exact fun _ => .inl rfl

def callTree (parameters input : String) : FileTree where
  entries := [(["out"], .directory),
    (["p.txt"], .file (Text.Utf8.ofString ("(Transform \"TranslationTransform\")\n" ++ parameters)) 0o644),
    (["input"], .file (Text.Utf8.ofString input) 0o644)]
  workingDirectory := []

def pixelText : String :=
  "NDims = 2\nDimSize = 1 1\nBinaryData = False\nElementType = MET_UCHAR\nElementDataFile = LOCAL\n7\n"

/-- Calls break off for a displacement without axes, whether its first axis is to be shifted or it is given
points, for a point with more axes than the origin, for a grid with more axes than the image, and for a direction
matrix that is too short. -/
theorem lists_break_off :
    (program none ["-out", "out", "-tp", "p.txt", "-def", "input"]
      (callTree "(TransformParameters)" "point\n0\n")).1.exit = .code brokenCode ∧
    (program (some .shift) ["-out", "out", "-tp", "p.txt", "-jac", "all"]
      (callTree "(TransformParameters)" "")).1.exit = .code brokenCode ∧
    (program none ["-out", "out", "-tp", "p.txt", "-def", "input"]
      (callTree "(TransformParameters 1 2)\n(Origin 0)" "point\n1\n3 4\n")).1.exit = .code brokenCode ∧
    (program none ["-out", "out", "-tp", "p.txt", "-in", "input"]
      (callTree "(TransformParameters 0 0)\n(Size 1 1 1)" pixelText)).1.exit = .code brokenCode ∧
    (program none ["-out", "out", "-tp", "p.txt", "-in", "input"]
      (callTree "(TransformParameters 0 0)\n(Direction 1 0 0)" pixelText)).1.exit = .code brokenCode := by
  refine ⟨?_, ?_, ?_, ?_, ?_⟩ <;> decide +kernel

end Calls

end Assay.Displacement
