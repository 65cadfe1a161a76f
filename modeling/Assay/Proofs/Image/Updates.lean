import Assay.Image.Basic
import Assay.Proofs.Image.Grid

namespace Assay.Image

structure Scalar (image : Image) : Prop where
  axes : image.descriptor.size.length = image.descriptor.dimension
  single : image.descriptor.components = 1
  full : image.pixels.length = image.descriptor.pixelCount

structure Request where
  index : List Nat
  sample : Float

/-- Whether a request is granted, and the image that it leaves. -/
def answer (image : Image) (request : Request) : Except Defect (Bool × Image) :=
  (image.set request.index request.sample).map fun changed => (changed.isSome, changed.getD image)

/-- The answers to requests that are made one after another, and the image that they leave. -/
def answers (image : Image) : List Request → Except Defect (List Bool × Image)
  | [] => .ok ([], image)
  | request :: rest => do
    let (granted, next) ← image.answer request
    let (others, left) ← next.answers rest
    pure (granted :: others, left)

def lastGranted (index : List Nat) (log : List (Request × Bool)) : Option Float :=
  (log.reverse.find? fun entry => entry.2 && entry.1.index == index).map fun entry => entry.1.sample

theorem lastGranted_cons (index : List Nat) (request : Request) (granted : Bool)
    (log : List (Request × Bool)) :
    lastGranted index ((request, granted) :: log) =
      (lastGranted index log).or
        (if granted = true ∧ request.index = index then some request.sample else none) := by
  rw [lastGranted, List.reverse_cons, List.find?_append, Option.map_or, ← lastGranted]
  by_cases h : granted = true ∧ request.index = index <;> simp [h]

variable {image : Image} {index : List Nat}

/-- A request that is refused changes nothing. -/
theorem answer_refused {left : Image} {request : Request} (h : image.answer request = .ok (false, left)) :
    left = image := by
  rw [answer] at h
  cases hset : image.set request.index request.sample with
  | error defect =>
    rw [hset] at h
    cases h
  | ok changed =>
    rw [hset] at h
    cases changed with
    | none =>
      cases h
      rfl
    | some changed => cases h

theorem placeOf?_of_single (single : image.descriptor.components = 1) (index : List Nat) :
    image.placeOf? index = image.descriptor.linearIndex index :=
  if_pos single

theorem placeOf?_of_not_single (h : image.descriptor.components ≠ 1) (index : List Nat) :
    image.placeOf? index = none :=
  if_neg h

namespace Scalar

theorem exists_place (h : image.Scalar) (hindex : image.descriptor.OnGrid index) :
    ∃ place < image.pixels.length, image.placeOf? index = some place := by
  obtain ⟨place, hlt, hplace, -⟩ := hindex.exists_place h.axes
  exact ⟨place, h.full ▸ hlt, (placeOf?_of_single h.single index).trans hplace⟩

theorem placeOf?_eq_none (h : image.Scalar) (hindex : ¬image.descriptor.OnGrid index) :
    image.placeOf? index = none := by
  rw [placeOf?_of_single h.single, Option.eq_none_iff_forall_ne_some]
  intro place hplace
  exact hindex ((Descriptor.onGrid_iff h.axes).mpr ((Descriptor.linearIndex_eq_some h.axes).mp hplace).1)

/-- Every position on the grid has a sample. -/
theorem get_onGrid (h : image.Scalar) (hindex : image.descriptor.OnGrid index) :
    ∃ sample, image.get index = .ok (some sample) := by
  obtain ⟨place, hlt, hplace⟩ := h.exists_place hindex
  exact ⟨image.pixels[place], by simp [get, hplace, hlt]⟩

theorem get_elsewhere (h : image.Scalar) (hindex : ¬image.descriptor.OnGrid index) :
    image.get index = .ok none := by
  rw [get, h.placeOf?_eq_none hindex]

theorem set_elsewhere (h : image.Scalar) (hindex : ¬image.descriptor.OnGrid index) (x : Float) :
    image.set index x = .ok none := by
  rw [set, h.placeOf?_eq_none hindex]

/-- A sample that is set on the grid is found at its position, and all others stay. -/
theorem set_onGrid (h : image.Scalar) (hindex : image.descriptor.OnGrid index) (x : Float) :
    ∃ changed, image.set index x = .ok (some changed) ∧ changed.descriptor = image.descriptor ∧
      changed.pixels.length = image.pixels.length ∧
      ∀ other, changed.get other = if index = other then .ok (some x) else image.get other := by
  obtain ⟨place, hlt, hplace⟩ := h.exists_place hindex
  have hset : image.set index x = .ok (some { image with pixels := image.pixels.set place x }) := by
    simp [set, hplace, hlt]
  obtain ⟨hdescriptor, hlength⟩ := set_keeps hset
  refine ⟨_, hset, hdescriptor, hlength, fun other => ?_⟩
  split_ifs with hsame
  · subst hsame
    have hfound : placeOf? { image with pixels := image.pixels.set place x } index = some place := hplace
    simp [get, hfound, hlt]
  · have hkept : placeOf? { image with pixels := image.pixels.set place x } other = image.placeOf? other := rfl
    rw [get, get, hkept]
    cases hother : image.placeOf? other with
    | none => rfl
    | some place' =>
      -- the buffer changed at one place only, which is not the one of the other position
      rw [placeOf?_of_single h.single] at hplace hother
      have hne : place ≠ place' := by
        rintro rfl
        exact hsame (Descriptor.linearIndex_injective h.axes hplace hother)
      simp only [List.getElem?_set_ne hne]

/-- An image that has the descriptor of a scalar one and as many samples is scalar too. -/
theorem congr (h : image.Scalar) {left : Image} (hdescriptor : left.descriptor = image.descriptor)
    (hlength : left.pixels.length = image.pixels.length) : left.Scalar where
  axes := hdescriptor ▸ h.axes
  single := hdescriptor ▸ h.single
  full := by rw [hlength, h.full, hdescriptor]

/-- What a request does: it is granted for the positions on the grid, and what is found changes there only. -/
theorem answer_ok (h : image.Scalar) (request : Request) :
    ∃ granted left, image.answer request = .ok (granted, left) ∧
      (granted = true ↔ image.descriptor.OnGrid request.index) ∧
      left.descriptor = image.descriptor ∧ left.pixels.length = image.pixels.length ∧
      ∀ index, left.get index =
        if granted = true ∧ request.index = index then .ok (some request.sample) else image.get index := by
  by_cases hindex : image.descriptor.OnGrid request.index
  · obtain ⟨changed, hset, hdescriptor, hlength, hget⟩ := h.set_onGrid hindex request.sample
    have hanswer : image.answer request = .ok (true, changed) := by
      rw [answer, hset]
      rfl
    refine ⟨true, changed, hanswer, by simp [hindex], hdescriptor, hlength, fun other => ?_⟩
    simp [hget]
  · have hanswer : image.answer request = .ok (false, image) := by
      rw [answer, h.set_elsewhere hindex]
      rfl
    exact ⟨false, image, hanswer, by simp [hindex], rfl, rfl, by simp⟩

/-- What a sequence of requests leaves, by induction from what each of them does. -/
theorem answers_ok (h : image.Scalar) (requests : List Request) :
    ∃ granted left, image.answers requests = .ok (granted, left) ∧
      List.Forall₂ (fun request grant => grant = true ↔ image.descriptor.OnGrid request.index) requests
        granted ∧
      left.descriptor = image.descriptor ∧ left.pixels.length = image.pixels.length ∧
      ∀ index, left.get index =
        ((lastGranted index (requests.zip granted)).map fun x => .ok (some x)).getD (image.get index) := by
  induction requests generalizing image with
  | nil => exact ⟨[], image, rfl, .nil, rfl, rfl, fun _ => rfl⟩
  | cons request rest ih =>
    obtain ⟨first, next, hfirst, hgrid, hdescriptor, hlength, hget⟩ := h.answer_ok request
    obtain ⟨others, left, hothers, hgrids, hdescriptor', hlength', hget'⟩ := ih (h.congr hdescriptor hlength)
    refine ⟨first :: others, left, ?_, .cons hgrid (hdescriptor ▸ hgrids), hdescriptor'.trans hdescriptor,
      hlength'.trans hlength, fun index => ?_⟩
    · rw [answers, hfirst]
      change (next.answers rest >>= _) = _
      rw [hothers]
      rfl
    · -- what a later request gave goes before what this one gave
      rw [List.zip_cons_cons, lastGranted_cons, hget', hget]
      cases lastGranted index (rest.zip others) with
      | some x => rfl
      | none => split_ifs <;> rfl

end Scalar

theorem scalar_zeros {d : Descriptor} (axes : d.size.length = d.dimension) (single : d.components = 1) :
    (zeros d).Scalar where
  axes := axes
  single := single
  full := by rw [length_pixels_zeros, Descriptor.sampleCount, single, Nat.mul_one]; rfl

theorem answers_of_not_single (h : image.descriptor.components ≠ 1) (requests : List Request) :
    image.answers requests = .ok (requests.map fun _ => false, image) := by
  induction requests with
  | nil => rfl
  | cons request rest ih =>
    have hrefused : image.answer request = .ok (false, image) := by
      rw [answer, set, placeOf?_of_not_single h]
      rfl
    rw [answers, hrefused]
    change (image.answers rest >>= _) = _
    rw [ih]
    rfl

/-- An image is a map from the positions on its grid to samples. A request is granted for the positions on the
grid and no others, and changes neither the descriptor nor the number of samples, and nothing at all if it is
refused. After any sequence of requests a position on the grid has the sample that the last granted request for
this very position gave, or else the one it had at first; no other position has one. An image with another
number of samples in a pixel grants nothing and shows nothing. -/
theorem requests_exact (image : Image) (requests : List Request) :
    (image.Scalar → ∃ granted left, image.answers requests = .ok (granted, left) ∧
      List.Forall₂ (fun request grant => grant = true ↔ image.descriptor.OnGrid request.index) requests
        granted ∧
      left.descriptor = image.descriptor ∧ left.pixels.length = image.pixels.length ∧
      (∀ index, image.descriptor.OnGrid index → ∃ original, image.get index = .ok (some original) ∧
        left.get index = .ok (some ((lastGranted index (requests.zip granted)).getD original))) ∧
      (∀ index, ¬image.descriptor.OnGrid index → left.get index = .ok none) ∧
      ∀ request next, left.answer request = .ok (false, next) → next = left) ∧
    (image.descriptor.components ≠ 1 →
      image.answers requests = .ok (requests.map fun _ => false, image) ∧
        ∀ index, image.get index = .ok none) := by
  refine ⟨fun h => ?_, fun h => ⟨answers_of_not_single h requests, fun index => ?_⟩⟩
  · obtain ⟨granted, left, hanswers, hgrid, hdescriptor, hlength, hget⟩ := h.answers_ok requests
    refine ⟨granted, left, hanswers, hgrid, hdescriptor, hlength, fun index hindex => ?_, fun index hindex => ?_,
      fun request next hrefused => answer_refused hrefused⟩
    · obtain ⟨original, horiginal⟩ := h.get_onGrid hindex
      refine ⟨original, horiginal, ?_⟩
      rw [hget, horiginal]
      cases lastGranted index (requests.zip granted) <;> rfl
    · exact (h.congr hdescriptor hlength).get_elsewhere (hdescriptor ▸ hindex)
  · rw [get, placeOf?_of_not_single h]

def nineZeros : Image :=
  zeros (.ofSize [3, 3] .float)

def ninePairs : Image :=
  zeros { Descriptor.ofSize [3, 3] .float with components := 2 }

/-- Requests for two positions, one of them twice, and for two positions that are not on the grid. -/
def fiveRequests : List Request :=
  [⟨[1, 2], 4.0⟩, ⟨[3, 0], 1.0⟩, ⟨[0, 2], 2.0⟩, ⟨[1, 2], 5.0⟩, ⟨[1], 6.0⟩]

theorem requests_exact_nine :
    ∃ left, nineZeros.answers fiveRequests = .ok ([true, false, true, true, false], left) ∧
      left.get [1, 2] = .ok (some 5.0) ∧ left.get [0, 2] = .ok (some 2.0) ∧
      left.get [2, 1] = .ok (some 0.0) ∧ left.get [3, 0] = .ok none ∧
      ninePairs.answers fiveRequests = .ok ([false, false, false, false, false], ninePairs) := by
  have hscalar : nineZeros.Scalar := scalar_zeros rfl rfl
  obtain ⟨granted, left, hanswers, -, -, -, hon, hoff, -⟩ :=
    (requests_exact nineZeros fiveRequests).1 hscalar
  have hrun : (nineZeros.answers fiveRequests).map Prod.fst = .ok [true, false, true, true, false] := rfl
  rw [hanswers] at hrun
  cases hrun
  have hgrid : ∀ {i j : Nat}, i < 3 → j < 3 → nineZeros.descriptor.OnGrid [i, j] := fun hi hj =>
    (Descriptor.onGrid_iff rfl).mpr (.cons hi (.cons hj .nil))
  refine ⟨left, hanswers, ?_, ?_, ?_, ?_, ((requests_exact ninePairs fiveRequests).2 (by decide)).1⟩
  · obtain ⟨_, -, hget⟩ := hon [1, 2] (hgrid (by decide) (by decide))
    exact hget
  · obtain ⟨_, -, hget⟩ := hon [0, 2] (hgrid (by decide) (by decide))
    exact hget
  · obtain ⟨original, horiginal, hget⟩ := hon [2, 1] (hgrid (by decide) (by decide))
    cases horiginal
    exact hget
  · refine hoff [3, 0] fun hindex => ?_
    exact absurd (hindex.inside 0 3 3 rfl rfl) (by decide)

end Assay.Image
