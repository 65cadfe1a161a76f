import Mathlib
import Assay.Comparison.Images
import Assay.Proofs.Decimal.Equality

namespace Assay.Image

inductive Field where
  | dimension
  | size
  | spacing
  | origin
  | direction
  | elementType
  | components
  deriving DecidableEq, Repr

namespace Field

def all : List Field :=
  [dimension, size, spacing, origin, direction, elementType, components]

theorem mem_all (f : Field) : f ∈ all := by
  cases f <;> decide

/-- Whether two descriptors are equal in a field. Real numbers are equal one by one. -/
def Same (a b : Descriptor) : Field → Prop
  | dimension => a.dimension = b.dimension
  | size => a.size = b.size
  | spacing => List.Forall₂ Decimal.Equal a.spacing b.spacing
  | origin => List.Forall₂ Decimal.Equal a.origin b.origin
  | direction => List.Forall₂ Decimal.Equal a.direction b.direction
  | elementType => a.elementType = b.elementType
  | components => a.components = b.components

def label : Field → String
  | dimension => "dimension"
  | size => "size"
  | spacing => "spacing"
  | origin => "origin"
  | direction => "direction"
  | elementType => "pixel type"
  | components => "components"

def text (d : Descriptor) : Field → String
  | dimension => toString d.dimension
  | size => Descriptor.sizesText d.size
  | spacing => Descriptor.realsText d.spacing
  | origin => Descriptor.realsText d.origin
  | direction => Descriptor.realsText d.direction
  | elementType => d.elementType.name
  | components => toString d.components

/-- What a report says of a field in which two descriptors are not equal. -/
def entry (a b : Descriptor) (f : Field) : String :=
  f.label ++ ": " ++ f.text a ++ " vs " ++ f.text b

end Field

theorem reals_beq_iff {xs ys : List Float} : (xs == ys) = true ↔ List.Forall₂ Decimal.Equal xs ys := by
  induction xs generalizing ys with
  | nil =>
    cases ys with
    | nil => exact iff_of_true rfl .nil
    | cons y rest => exact iff_of_false Bool.false_ne_true nofun
  | cons x others ih =>
    cases ys with
    | nil => exact iff_of_false Bool.false_ne_true nofun
    | cons y rest => rw [List.cons_beq_cons, Bool.and_eq_true, ih, Decimal.beq_iff, List.forall₂_cons]

/-- Real numbers are equal to themselves unless one of them is no number. -/
theorem reals_self {xs : List Float} : List.Forall₂ Decimal.Equal xs xs ↔ ∀ x ∈ xs, x.isNaN = false := by
  rw [List.forall₂_same]
  exact forall₂_congr fun x _ => Decimal.equal_self

namespace Field

/-- Whether two descriptors are found equal in a field. -/
def agrees (a b : Descriptor) : Field → Bool
  | dimension => a.dimension == b.dimension
  | size => a.size == b.size
  | spacing => a.spacing == b.spacing
  | origin => a.origin == b.origin
  | direction => a.direction == b.direction
  | elementType => a.elementType == b.elementType
  | components => a.components == b.components

theorem agrees_iff {a b : Descriptor} {f : Field} : f.agrees a b = true ↔ f.Same a b := by
  cases f with
  | spacing | origin | direction => exact reals_beq_iff
  | dimension | size | elementType | components => exact beq_iff_eq

instance (a b : Descriptor) (f : Field) : Decidable (f.Same a b) :=
  decidable_of_iff (f.agrees a b = true) agrees_iff

theorem forall_iff {P : Field → Prop} :
    (∀ f, P f) ↔ P dimension ∧ P size ∧ P spacing ∧ P origin ∧ P direction ∧ P elementType ∧
      P components := by
  constructor
  · intro h
    exact ⟨h _, h _, h _, h _, h _, h _, h _⟩
  · rintro ⟨hd, hs, hp, ho, hr, ht, hc⟩ f
    cases f <;> assumption

end Field

namespace Descriptor

variable (a b : Descriptor)

theorem beq_iff : (a == b) = true ↔ ∀ f : Field, f.Same a b := by
  have hbeq : (a == b) = (Field.dimension.agrees a b && Field.size.agrees a b &&
    Field.spacing.agrees a b && Field.origin.agrees a b && Field.direction.agrees a b &&
    Field.elementType.agrees a b && Field.components.agrees a b) := rfl
  simp only [hbeq, Bool.and_eq_true, Field.agrees_iff, Field.forall_iff, and_assoc]

/-- The fields in which two descriptors are not equal, in the order of their declaration. -/
def differing : List Field :=
  Field.all.filter fun f => ¬f.Same a b

theorem mem_differing {f : Field} : f ∈ differing a b ↔ ¬f.Same a b := by
  simp [differing, Field.mem_all]

theorem differing_eq_nil : differing a b = [] ↔ ∀ f : Field, f.Same a b := by
  simp [List.eq_nil_iff_forall_not_mem, mem_differing]

/-- The differences are the entries of the fields in which two descriptors are not equal. -/
theorem differences_eq : a.differences b = (differing a b).map (Field.entry a b) := by
  have hfield : ∀ f : Field, (if f.agrees a b then [] else [f.entry a b]) =
      ([f].filter fun f => ¬f.Same a b).map (Field.entry a b) := by
    intro f
    by_cases h : f.Same a b
    · simp [Field.agrees_iff.mpr h, h]
    · simp [Field.agrees_iff, h]
  have hsplit : a.differences b =
      Field.all.flatMap fun f => if f.agrees a b then [] else [f.entry a b] := by
    simp only [Field.all, List.flatMap_cons, List.flatMap_nil, List.append_nil, ← List.append_assoc]
    rfl
  -- what is left holds of every list of fields
  rw [hsplit, differing]
  induction Field.all with
  | nil => rfl
  | cons f rest ih =>
    rw [List.flatMap_cons, ih, hfield, ← List.map_append, ← List.filter_append, List.singleton_append]

end Descriptor

end Assay.Image

namespace Assay.Comparison

open Image

/-- No pair of samples deviates exactly when all pairs at the same place agree. -/
theorem deviations_eq_nil {tolerance : Float} {xs ys : List Float} :
    deviations tolerance xs ys = [] ↔
      ∀ (i : Nat) x y, xs[i]? = some x → ys[i]? = some y → within tolerance x y = true := by
  have hmem : ∀ (i : Nat) x y, ((x, y), i) ∈ (xs.zip ys).zipIdx ↔ xs[i]? = some x ∧ ys[i]? = some y := by
    intro i x y
    rw [List.mem_zipIdx_iff_getElem?, List.getElem?_zip_eq_some]
  rw [deviations, List.filterMap_eq_nil_iff]
  constructor
  · intro h i x y hx hy
    by_contra hn
    simpa [hn] using h _ ((hmem i x y).mpr ⟨hx, hy⟩)
  · rintro h ⟨⟨x, y⟩, i⟩ hm
    obtain ⟨hx, hy⟩ := (hmem i x y).mp hm
    exact if_pos (h i x y hx hy)

/-- A sample agrees with itself exactly when it is a number, whatever the tolerance. -/
theorem within_self {tolerance x : Float} : within tolerance x x = true ↔ x.isNaN = false := by
  rw [within, Bool.or_eq_true, decide_eq_true_eq, Decimal.beq_iff, Decimal.equal_self]
  -- a distance that is no number is within no tolerance, so only the equality counts
  refine or_iff_left_of_imp fun hle => ?_
  by_contra hn
  exact Decimal.not_distance_le (Bool.not_eq_false _ ▸ hn) x tolerance hle

structure Agree (tolerance : Float) (a b : Image) : Prop where
  fields : ∀ f : Field, f.Same a.descriptor b.descriptor
  length : a.pixels.length = b.pixels.length
  samples : ∀ (i : Nat) x y, a.pixels[i]? = some x → b.pixels[i]? = some y → within tolerance x y = true

variable {check : String} {a b : Image} {tolerance : Float}

/-- Images with different descriptors are told by the fields that differ, whatever their samples are. -/
theorem sameImages_of_differing (h : ¬∀ f : Field, f.Same a.descriptor b.descriptor) :
    sameImages check a b tolerance = .fail ⟨check, "image information differs: " ++
      String.intercalate "; "
        ((a.descriptor.differing b.descriptor).map (Field.entry a.descriptor b.descriptor))⟩ := by
  have hne : (a.descriptor.differences b.descriptor).isEmpty = false := by
    rw [Descriptor.differences_eq, List.isEmpty_eq_false_iff, ne_eq, List.map_eq_nil_iff,
      Descriptor.differing_eq_nil]
    exact h
  rw [sameImages, hne, Descriptor.differences_eq]
  rfl

theorem sameImages_eq_pass : sameImages check a b tolerance = .pass ↔ Agree tolerance a b := by
  by_cases hf : ∀ f : Field, f.Same a.descriptor b.descriptor
  · have hnil : a.descriptor.differences b.descriptor = [] := by
      rw [Descriptor.differences_eq, (Descriptor.differing_eq_nil _ _).mpr hf, List.map_nil]
    have hchecks : sameImages check a b tolerance = .pass ↔
        a.pixels.length = b.pixels.length ∧ deviations tolerance a.pixels b.pixels = [] := by
      rw [sameImages, hnil]
      by_cases hl : a.pixels.length = b.pixels.length
      · cases deviations tolerance a.pixels b.pixels <;> simp [hl]
      · simp [hl]
    rw [hchecks, deviations_eq_nil]
    exact ⟨fun h => ⟨hf, h.1, h.2⟩, fun h => ⟨h.length, h.samples⟩⟩
  · rw [sameImages_of_differing hf]
    exact iff_of_false nofun fun h => hf h.fields

structure AllNumbers (a : Image) : Prop where
  spacing : ∀ x ∈ a.descriptor.spacing, x.isNaN = false
  origin : ∀ x ∈ a.descriptor.origin, x.isNaN = false
  direction : ∀ x ∈ a.descriptor.direction, x.isNaN = false
  pixels : ∀ x ∈ a.pixels, x.isNaN = false

theorem agree_self : Agree tolerance a a ↔ AllNumbers a := by
  have hfields : (∀ f : Field, f.Same a.descriptor a.descriptor) ↔
      (∀ x ∈ a.descriptor.spacing, x.isNaN = false) ∧ (∀ x ∈ a.descriptor.origin, x.isNaN = false) ∧
        ∀ x ∈ a.descriptor.direction, x.isNaN = false := by
    simp only [Field.forall_iff, Field.Same, reals_self, true_and, and_true]
  constructor
  · intro h
    obtain ⟨hs, ho, hd⟩ := hfields.mp h.fields
    refine ⟨hs, ho, hd, fun x hx => ?_⟩
    obtain ⟨i, hi⟩ := List.mem_iff_getElem?.mp hx
    exact within_self.mp (h.samples i x x hi hi)
  · intro h
    refine ⟨hfields.mpr ⟨h.spacing, h.origin, h.direction⟩, rfl, fun i x y hx hy => ?_⟩
    obtain rfl : x = y := Option.some.inj (hx.symm.trans hy)
    exact within_self.mpr (h.pixels x (List.mem_of_getElem? hx))

/-- Image equivalence is decided exactly. Two images compare as equal when they agree; descriptors are
equal in all fields when they have no differences and when they are found equal; a mismatch of descriptors
lists the fields that differ; and an image compares as equal to itself when all its values are numbers. -/
theorem sameImages_exact (check : String) (a b : Image) (tolerance : Float) :
    (sameImages check a b tolerance = .pass ↔ Agree tolerance a b) ∧
    ((∀ f : Field, f.Same a.descriptor b.descriptor) ↔
      a.descriptor.differences b.descriptor = []) ∧
    ((∀ f : Field, f.Same a.descriptor b.descriptor) ↔
      (a.descriptor == b.descriptor) = true) ∧
    (∀ f : Field, ¬f.Same a.descriptor b.descriptor →
      sameImages check a b tolerance = .fail ⟨check, "image information differs: " ++
        String.intercalate "; " ((a.descriptor.differing b.descriptor).map
          (Field.entry a.descriptor b.descriptor))⟩) ∧
    (sameImages check a a tolerance = .pass ↔ AllNumbers a) := by
  refine ⟨sameImages_eq_pass, ?_, (Descriptor.beq_iff _ _).symm, ?_, ?_⟩
  · rw [Descriptor.differences_eq, List.map_eq_nil_iff, Descriptor.differing_eq_nil]
  · intro f hf
    exact sameImages_of_differing fun h => hf (h f)
  · rw [sameImages_eq_pass, agree_self]

/-- A row of two pixels whose values are those that equality treats in its own way. -/
def oddRow (origin spacing : Float) (components : Nat) : Image where
  descriptor := { Descriptor.ofSize [2] .double with
    spacing := [spacing], origin := [origin], components := components }
  pixels := [1.0 / 0.0, 0.0]

theorem sameImages_exact_oddRow :
    sameImages "row" (oddRow (-0.0) 1.0 1) (oddRow 0.0 1.0 1) 0.0 = .pass ∧
    sameImages "row" (oddRow 0.0 (0.0 / 0.0) 1) (oddRow 0.0 (0.0 / 0.0) 2) 0.5 =
      .fail ⟨"row", "image information differs: spacing: [NaN] vs [NaN]; components: 1 vs 2"⟩ ∧
    sameImages "row" (oddRow 0.0 (0.0 / 0.0) 1) (oddRow 0.0 (0.0 / 0.0) 1) 0.5 ≠ .pass := by
  refine ⟨?_, ?_, ?_⟩
  · have hsame := (sameImages_exact "row" (oddRow (-0.0) 1.0 1) (oddRow 0.0 1.0 1) 0.0).2.2.1
    refine (sameImages_exact _ _ _ _).1.mpr ⟨hsame.mpr (by decide +kernel), rfl, ?_⟩
    intro i x y hx hy
    obtain rfl : x = y := Option.some.inj (hx.symm.trans hy)
    have hnumbers : ∀ z ∈ [(1.0 / 0.0 : Float), 0.0], z.isNaN = false := by
      simp only [List.forall_mem_cons]
      exact ⟨by decide +kernel, by decide +kernel, nofun⟩
    exact within_self.mpr (hnumbers x (List.mem_of_getElem? hx))
  · rw [(sameImages_exact _ _ _ _).2.2.2.1 .components (by decide +kernel)]
    decide +kernel
  · rw [ne_eq, (sameImages_exact _ _ (oddRow 0.0 1.0 1) _).2.2.2.2]
    intro h
    have hnan : (0.0 / 0.0 : Float).isNaN = true := by decide +kernel
    rw [h.spacing _ (List.mem_singleton_self _)] at hnan
    cases hnan

end Assay.Comparison
