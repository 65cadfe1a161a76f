import Mathlib.Data.List.Perm.Subperm
import Assay.Proofs.Image.Flaws
import Assay.Proofs.Image.Matrix

namespace Assay.Image

section Matrices

variable {n : Nat} {m : List Float}

/-- The cell in a column and a row of the exchanged matrix is there, and it is the one in that row and column. -/
theorem getElem?_transpose {r c : Nat} (h : m.length = n * n) (hr : r < n) (hc : c < n) :
    (transpose n m)[c * n + r]? = m[r * n + c]? := by
  rw [transpose_eq h, getElem?_exchanged h hr hc, List.getElem?_map, List.getElem?_range (place_lt hc hr),
    Option.map_some]

theorem getElem?_identity {r c : Nat} (hr : r < n) (hc : c < n) :
    (identity n)[r * n + c]? = some (if r = c then 1.0 else 0.0) := by
  rw [identity_eq, diagonal, List.getElem?_map, List.getElem?_range (place_lt hr hc), Option.map_some,
    place_div hc, place_mod hc]
  simp only [hr, and_true]

/-- A buffer with the places that were written, in the order in which they were. -/
structure Recorded where
  buffer : List Float
  places : List Nat

def Recorded.assign (t : Recorded) (place : Nat) (x : Float) : Guarded Recorded := do
  let buffer ← Guarded.assign t.buffer place x
  pure ⟨buffer, t.places ++ [place]⟩

def recordCell (n : Nat) (m : List Float) (r : Nat) (t : Recorded) (c : Nat) : Guarded Recorded := do
  let x ← Guarded.index m (r * n + c)
  t.assign (c * n + r) x

def recordRow (n : Nat) (m : List Float) (t : Recorded) (r : Nat) : Guarded Recorded :=
  (List.range n).foldlM (recordCell n m r) t

/-- Writes the rows of a matrix into the columns of a buffer of its length and records every place. -/
def transposeRecorded (n : Nat) (m : List Float) : Guarded Recorded :=
  (List.range n).foldlM (recordRow n m) ⟨List.replicate m.length 0.0, []⟩

/-- The places of some cells of a row in the exchanged matrix. -/
def columnPlaces (n r c : Nat) : List Nat :=
  (List.range c).map fun c => c * n + r

/-- The places of the cells of some rows in the exchanged matrix. -/
def placesBefore (n r : Nat) : List Nat :=
  (List.range r).flatMap fun r => columnPlaces n r n

/-- What is recorded when some rows, and some cells of the next one, are written. -/
def recorded (n : Nat) (m : List Float) (r c : Nat) : Recorded :=
  ⟨written n m r c, placesBefore n r ++ columnPlaces n r c⟩

theorem recordCell_ok {r c : Nat} (h : m.length = n * n) (hr : r < n) (hc : c < n) :
    recordCell n m r (recorded n m r c) c = .ok (recorded n m r (c + 1)) := by
  have hassign : Guarded.assign (written n m r c) (c * n + r) (exchanged n m (c * n + r)) =
      .ok (written n m r (c + 1)) := by
    rw [Guarded.assign_ok ((place_lt hc hr).trans_eq (length_written r c).symm), set_written hr]
  have hplaces : placesBefore n r ++ columnPlaces n r c ++ [c * n + r] =
      placesBefore n r ++ columnPlaces n r (c + 1) := by
    rw [List.append_assoc, columnPlaces, columnPlaces, List.range_succ, List.map_append, List.map_singleton]
  rw [recordCell, Guarded.index_ok (getElem?_exchanged h hr hc), Guarded.ok_bind, Recorded.assign, recorded,
    hassign, Guarded.ok_bind, hplaces]
  rfl

theorem recordRow_ok {r : Nat} (h : m.length = n * n) (hr : r < n) :
    recordRow n m (recorded n m r 0) r = .ok (recorded n m (r + 1) 0) := by
  have hnext : recorded n m (r + 1) 0 = recorded n m r n := by
    rw [recorded, written_next, placesBefore, List.range_succ, List.flatMap_append]
    simp [recorded, placesBefore, columnPlaces]
  rw [recordRow, hnext]
  exact foldlM_range (recorded n m r) fun c hc => recordCell_ok h hr hc

theorem transposeRecorded_ok (h : m.length = n * n) :
    transposeRecorded n m = .ok ⟨transpose n m, placesBefore n n⟩ := by
  have hfirst : (⟨List.replicate m.length 0.0, []⟩ : Recorded) = recorded n m 0 0 := by
    rw [written_first h]
    rfl
  have hlast : recorded n m n 0 = ⟨transpose n m, placesBefore n n⟩ := by
    rw [recorded, written_last h]
    simp [columnPlaces]
  rw [transposeRecorded, hfirst, ← hlast]
  exact foldlM_range (fun r => recorded n m r 0) fun r hr => recordRow_ok h hr

def mirrored (n place : Nat) : Nat :=
  place % n * n + place / n

theorem mirrored_lt {place : Nat} (h : place < n * n) : mirrored n place < n * n :=
  place_lt (column_lt h) (row_lt h)

theorem mirrored_mirrored {place : Nat} (h : place < n * n) : mirrored n (mirrored n place) = place := by
  rw [mirrored, mirrored, place_mod (row_lt h), place_div (row_lt h), Nat.div_add_mod']

theorem placesBefore_eq (n : Nat) : placesBefore n n = (List.range (n * n)).map (mirrored n) := by
  rw [← flatMap_range_map, placesBefore]
  refine List.flatMap_congr fun r _ => List.map_congr_left fun c hc => ?_
  rw [mirrored, place_mod (List.mem_range.mp hc), place_div (List.mem_range.mp hc)]

/-- The loops write every place once: mirroring takes no two places to one. -/
theorem placesBefore_perm (n : Nat) : (placesBefore n n).Perm (List.range (n * n)) := by
  rw [placesBefore_eq]
  have hnodup : ((List.range (n * n)).map (mirrored n)).Nodup := by
    refine List.nodup_range.map_on fun i hi j hj hsame => ?_
    rw [← mirrored_mirrored (List.mem_range.mp hi), hsame, mirrored_mirrored (List.mem_range.mp hj)]
  have hsubset : (List.range (n * n)).map (mirrored n) ⊆ List.range (n * n) := by
    intro place hm
    obtain ⟨i, hi, rfl⟩ := List.mem_map.mp hm
    exact List.mem_range.mpr (mirrored_lt (List.mem_range.mp hi))
  refine (List.subperm_of_subset hnodup hsubset).perm_of_length_le ?_
  rw [List.length_map]

end Matrices

section Headers

def Header.directionKeys : List String :=
  ["TransformMatrix", "Rotation", "Orientation"]

/-- The value of the line that holds the direction matrix: the one of the first key that the header has. -/
inductive Header.GivesDirection (h : Header) : String → Prop where
  | transformMatrix {value : String} (given : h.get? "TransformMatrix" = some value) : h.GivesDirection value
  | rotation {value : String} (noMatrix : h.get? "TransformMatrix" = none)
      (given : h.get? "Rotation" = some value) : h.GivesDirection value
  | orientation {value : String} (noMatrix : h.get? "TransformMatrix" = none)
      (noRotation : h.get? "Rotation" = none) (given : h.get? "Orientation" = some value) :
      h.GivesDirection value

/-- A square matrix in which the cell in a row and a column is the number that a list of words has in that
column and row. -/
structure Mirrors (n : Nat) (words : List (List Char)) (matrix : List Float) : Prop where
  length_words : words.length = n * n
  length_matrix : matrix.length = n * n
  cell : ∀ r < n, ∀ c < n, ∃ word x, words[c * n + r]? = some word ∧ Decimal.real? word = some x ∧
    matrix[r * n + c]? = some x

variable {h : Header} {n : Nat} {value : String} {m : List Float}

theorem Mirrors.cell_eq {words : List (List Char)} (h : Mirrors n words m) {r c : Nat} (hr : r < n) (hc : c < n)
    {word : List Char} {x : Float} (hword : words[c * n + r]? = some word) (hx : Decimal.real? word = some x) :
    m[r * n + c]? = some x := by
  obtain ⟨word', x', hword', hx', hcell⟩ := h.cell r hr c hc
  obtain rfl : word = word' := Option.some.inj (hword.symm.trans hword')
  rwa [hx.symm.trans hx']

theorem Header.GivesDirection.firstOf? (given : h.GivesDirection value) :
    ∃ key, h.firstOf? directionKeys = some (key, value) := by
  cases given with
  | transformMatrix given => exact ⟨"TransformMatrix", by simp [Header.firstOf?, directionKeys, given]⟩
  | rotation noMatrix given => exact ⟨"Rotation", by simp [Header.firstOf?, directionKeys, noMatrix, given]⟩
  | orientation noMatrix noRotation given =>
    exact ⟨"Orientation", by simp [Header.firstOf?, directionKeys, noMatrix, noRotation, given]⟩

/-- The direction matrix is the one that the header holds, with rows and columns exchanged. -/
theorem Header.GivesDirection.mirrors (given : h.GivesDirection value) (hm : h.direction n = .ok m) :
    Mirrors n (Text.words value.toList) m := by
  obtain ⟨key, hfirst⟩ := given.firstOf?
  rw [directionKeys] at hfirst
  rw [direction, hfirst] at hm
  dsimp only at hm
  cases hcounted : countedItems Decimal.real? key value (n * n) with
  | error fault =>
    rw [hcounted] at hm
    cases hm
  | ok stored =>
    rw [hcounted] at hm
    cases hm
    obtain ⟨hitems, hlength⟩ := countedItems_ok.mp hcounted
    have hwords : (Text.words value.toList).length = n * n := (length_items hitems).symm.trans hlength
    refine ⟨hwords, length_transpose hlength, fun r hr c hc => ?_⟩
    have hplace : c * n + r < n * n := place_lt hc hr
    have hread := congrArg (·[c * n + r]?) (items_ok.mp hitems)
    simp only [List.getElem?_map, List.getElem?_eq_getElem (hplace.trans_eq hwords.symm),
      List.getElem?_eq_getElem (hplace.trans_eq hlength.symm), Option.map_some, Option.some.injEq] at hread
    refine ⟨_, _, List.getElem?_eq_getElem (hplace.trans_eq hwords.symm), hread, ?_⟩
    rw [getElem?_transpose hlength hc hr, List.getElem?_eq_getElem]

theorem Header.direction_of_none (hnone : ∀ key ∈ directionKeys, h.get? key = none)
    (hm : h.direction n = .ok m) : m = identity n := by
  have hfirst : h.firstOf? directionKeys = none := by
    rw [Header.firstOf?, List.findSome?_eq_none_iff]
    intro key hkey
    rw [hnone key hkey, Option.map_none]
  rw [directionKeys] at hfirst
  rw [direction, hfirst] at hm
  cases hm
  rfl

end Headers

/-- The direction matrix is the exact transpose of the stored one. For every square matrix the loops find each
cell of it, write each cell of the other one once, and take the cell in a row and a column to that column and
row; exchanging twice gives the matrix back. So every image that is read has the matrix of its header line with
rows and columns exchanged, and without such a line the one with ones on the diagonal and zeros elsewhere. -/
theorem direction_exact :
    (∀ (n : Nat) (m : List Float), m.length = n * n →
      (transpose n m).length = n * n ∧
      (∀ r < n, ∀ c < n, ∃ x, m[r * n + c]? = some x ∧ (transpose n m)[c * n + r]? = some x) ∧
      (∃ places, transposeRecorded n m = .ok ⟨transpose n m, places⟩ ∧ places.Perm (List.range (n * n))) ∧
      (n * n < Decimal.sizeLimit → transposeInPlace n m = .ok (transpose n m)) ∧
      transpose n (transpose n m) = m) ∧
    ∀ (t : FileTree) (path : Path) (image : Image), read t path = .ok image →
      ∃ h, Headed t path h ∧
        (∀ value, h.GivesDirection value →
          Mirrors image.descriptor.dimension (Text.words value.toList) image.descriptor.direction) ∧
        ((∀ key ∈ Header.directionKeys, h.get? key = none) →
          image.descriptor.direction = identity image.descriptor.dimension ∧
          ∀ r < image.descriptor.dimension, ∀ c < image.descriptor.dimension,
            image.descriptor.direction[r * image.descriptor.dimension + c]? =
              some (if r = c then 1.0 else 0.0)) := by
  constructor
  · intro n m hm
    refine ⟨length_transpose hm, fun r hr c hc => ?_, ⟨_, transposeRecorded_ok hm, placesBefore_perm n⟩,
      transposeInPlace_ok hm, transpose_transpose hm⟩
    exact ⟨_, getElem?_exchanged hm hr hc, (getElem?_transpose hm hr hc).trans (getElem?_exchanged hm hr hc)⟩
  · intro t path image hr
    obtain ⟨h, -, hheaded, hdescriptor, -⟩ := parts_of_read hr
    obtain ⟨-, -, -, -, hdirection, -⟩ := Header.imageDescriptor_ok.mp (Header.descriptor_ok.mp hdescriptor).2
    refine ⟨h, hheaded, fun value given => given.mirrors hdirection, fun hnone => ?_⟩
    have hidentity := Header.direction_of_none hnone hdirection
    refine ⟨hidentity, fun r hr c hc => ?_⟩
    rw [hidentity, getElem?_identity hr hc]

def turnedBytes : Bytes :=
  Text.Utf8.ofString ("NDims = 2\nDimSize = 2 2\nTransformMatrix = 0 1 -1 0\n" ++
    "ElementType = MET_UCHAR\nElementDataFile = LOCAL\n") ++ [1, 2, 3, 4]

def turnedTree : FileTree where
  entries := [(["turned.mha"], .file turnedBytes 0o644)]
  workingDirectory := []

theorem direction_exact_turned :
    transpose 2 [0.0, 1.0, -1.0, 0.0] = [0.0, -1.0, 1.0, 0.0] ∧
      transpose 2 (transpose 2 [0.0, 1.0, -1.0, 0.0]) = [0.0, 1.0, -1.0, 0.0] ∧
      ∃ image, read turnedTree ⟨"turned.mha"⟩ = .ok image ∧
        image.descriptor.direction[1]? = some (-1.0) ∧ image.descriptor.direction[2]? = some 1.0 := by
  obtain ⟨hmatrices, himages⟩ := direction_exact
  obtain ⟨-, -, -, -, htwice⟩ := hmatrices 2 [0.0, 1.0, -1.0, 0.0] rfl
  refine ⟨rfl, htwice, ?_⟩
  have hdimension : (read turnedTree ⟨"turned.mha"⟩).toOption.map (·.descriptor.dimension) = some 2 := by
    decide +kernel
  cases hr : read turnedTree ⟨"turned.mha"⟩ with
  | error failure =>
    rw [hr] at hdimension
    cases hdimension
  | ok image =>
    rw [hr, Except.toOption, Option.map_some, Option.some.injEq] at hdimension
    obtain ⟨h, ⟨bytes, hbytes, hh⟩, hmirrors, -⟩ := himages _ _ _ hr
    have hfile : turnedTree.read ⟨"turned.mha"⟩ = .ok turnedBytes := by decide +kernel
    obtain rfl : turnedBytes = bytes := Except.ok.inj (hfile.symm.trans hbytes)
    have hgiven : (Header.read turnedBytes).toOption.bind (·.get? "TransformMatrix") = some "0 1 -1 0" := by
      decide +kernel
    rw [hh] at hgiven
    have hmirror := hmirrors _ (.transformMatrix hgiven)
    rw [hdimension] at hmirror
    have hthird : (Text.words "0 1 -1 0".toList)[1 * 2 + 0]? = some "-1".toList := by decide
    have hsecond : (Text.words "0 1 -1 0".toList)[0 * 2 + 1]? = some "1".toList := by decide
    have hminus : Decimal.real? "-1".toList = some (-1.0) := by decide +kernel
    have hplus : Decimal.real? "1".toList = some 1.0 := by decide +kernel
    exact ⟨image, rfl, hmirror.cell_eq (by decide) (by decide) hthird hminus,
      hmirror.cell_eq (by decide) (by decide) hsecond hplus⟩

end Assay.Image
