import Assay.Image.Descriptor

namespace Assay

/-- An image: its descriptor, and its samples with the first axis running fastest and the samples of
one pixel next to each other. A buffer may be shorter than the descriptor says; an access beyond its
end is a defect of the image and no answer. -/
structure Image where
  descriptor : Image.Descriptor
  pixels : List Float

namespace Image

inductive Defect where
  | shortBuffer
  | shortDirection
  deriving DecidableEq, Repr

def zeros (d : Descriptor) : Image :=
  ⟨d, List.replicate d.sampleCount 0.0⟩

/-- The place of a pixel in the buffer; only an image with one sample in a pixel has places. -/
def placeOf? (image : Image) (index : List Nat) : Option Nat :=
  if image.descriptor.components = 1 then image.descriptor.linearIndex index else none

def get (image : Image) (index : List Nat) : Except Defect (Option Float) :=
  match image.placeOf? index with
  | none => .ok none
  | some i =>
    match image.pixels[i]? with
    | none => .error .shortBuffer
    | some x => .ok (some x)

/-- The image with another sample for a pixel, or nothing for a position that is not on the grid. -/
def set (image : Image) (index : List Nat) (x : Float) : Except Defect (Option Image) :=
  match image.placeOf? index with
  | none => .ok none
  | some i =>
    if i < image.pixels.length then .ok (some { image with pixels := image.pixels.set i x })
    else .error .shortBuffer

@[simp] theorem length_pixels_zeros (d : Descriptor) :
    (zeros d).pixels.length = d.sampleCount := by
  simp [zeros]

/-- Setting a sample changes neither the descriptor nor the length of the buffer. -/
theorem set_keeps {image changed : Image} {index : List Nat} {x : Float}
    (h : image.set index x = .ok (some changed)) :
    changed.descriptor = image.descriptor ∧ changed.pixels.length = image.pixels.length := by
  unfold set at h
  split at h
  · simp at h
  · split at h
    · simp only [Except.ok.injEq, Option.some.injEq] at h
      subst h
      simp
    · simp at h

end Image

end Assay
