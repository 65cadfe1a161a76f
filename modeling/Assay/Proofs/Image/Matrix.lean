import Mathlib.Data.List.GetD
import Mathlib.Data.List.Range
import Assay.Image.Descriptor
import Assay.Proofs.Guarded

namespace Assay.Image

theorem flatMap_range_map {α : Type} (f : Nat → α) (rows n : Nat) :
    ((List.range rows).flatMap fun a => (List.range n).map fun b => f (a * n + b)) =
      (List.range (rows * n)).map f := by
  induction rows with
  | zero => simp
  | succ rows ih =>
    rw [List.range_succ, List.flatMap_append, ih, Nat.succ_mul, List.range_add, List.map_append]
    simp

theorem place_lt {n r c : Nat} (hr : r < n) (hc : c < n) : r * n + c < n * n :=
  calc
    r * n + c < r * n + n := Nat.add_lt_add_left hc _
    _ = (r + 1) * n := (Nat.succ_mul r n).symm
    _ ≤ n * n := Nat.mul_le_mul_right n hr

theorem place_div {n r c : Nat} (hc : c < n) : (r * n + c) / n = r := by
  rw [Nat.add_comm, Nat.add_mul_div_right _ _ (by omega), Nat.div_eq_of_lt hc, Nat.zero_add]

theorem place_mod {n r c : Nat} (hc : c < n) : (r * n + c) % n = c := by
  rw [Nat.add_comm, Nat.add_mul_mod_self_right, Nat.mod_eq_of_lt hc]

theorem row_lt {n i : Nat} (h : i < n * n) : i / n < n :=
  Nat.div_lt_of_lt_mul h

theorem column_lt {n i : Nat} (h : i < n * n) : i % n < n := by
  refine Nat.mod_lt _ (Nat.pos_of_ne_zero ?_)
  rintro rfl
  simp at h

/-- The value that a place of the exchanged matrix takes from the matrix. -/
def exchanged (n : Nat) (m : List Float) (place : Nat) : Float :=
  m.getD (place % n * n + place / n) 0.0

/-- The exchanged matrix, cell by cell. -/
theorem transpose_eq {n : Nat} {m : List Float} (h : m.length = n * n) :
    transpose n m = (List.range (n * n)).map (exchanged n m) := by
  rw [transpose, h, Nat.sub_self, List.replicate_zero, List.append_nil,
    ← flatMap_range_map (exchanged n m) n n]
  congr 1
  funext c
  apply List.map_congr_left
  intro r hr
  have hr : r < n := List.mem_range.mp hr
  rw [exchanged, place_mod hr, place_div hr]

@[simp] theorem length_transpose {n : Nat} {m : List Float} (h : m.length = n * n) :
    (transpose n m).length = n * n := by
  rw [transpose_eq h, List.length_map, List.length_range]

/-- The cell in a column and a row of the exchanged matrix is the one in that row and column of the
matrix. -/
theorem getD_transpose {n r c : Nat} {m : List Float} (h : m.length = n * n) (hr : r < n) (hc : c < n) :
    (transpose n m).getD (c * n + r) 0.0 = m.getD (r * n + c) 0.0 := by
  have hlt : c * n + r < n * n := place_lt hc hr
  rw [transpose_eq h, List.getD_eq_getElem _ _ (by simpa using hlt), List.getElem_map,
    List.getElem_range, exchanged, place_mod hr, place_div hr]

theorem transpose_transpose {n : Nat} {m : List Float} (h : m.length = n * n) :
    transpose n (transpose n m) = m := by
  rw [transpose_eq (length_transpose h)]
  apply List.ext_getElem
  · rw [List.length_map, List.length_range, h]
  · intro i hi hm
    have hlt : i < n * n := by rwa [h] at hm
    rw [List.getElem_map, List.getElem_range, exchanged,
      getD_transpose h (row_lt hlt) (column_lt hlt), Nat.div_add_mod', List.getD_eq_getElem _ _ hm]

/-- Every cell of the exchanged matrix is one of the matrix. -/
theorem exchanged_eq {n place : Nat} {m : List Float} (h : m.length = n * n) (hp : place < n * n) :
    ∃ x ∈ m, exchanged n m place = x ∧
      ∀ f : Float → Float, exchanged n (m.map f) place = f x := by
  have hlt : place % n * n + place / n < m.length := by
    rw [h]
    exact place_lt (column_lt hp) (row_lt hp)
  refine ⟨m[place % n * n + place / n], List.getElem_mem hlt, ?_, fun f => ?_⟩
  · rw [exchanged, List.getD_eq_getElem _ _ hlt]
  · rw [exchanged, List.getD_eq_getElem _ _ (by rwa [List.length_map]), List.getElem_map]

theorem mem_of_mem_transpose {n : Nat} {m : List Float} (h : m.length = n * n) {x : Float}
    (hx : x ∈ transpose n m) : x ∈ m := by
  rw [transpose_eq h] at hx
  obtain ⟨place, hp, rfl⟩ := List.mem_map.mp hx
  obtain ⟨y, hy, he, _⟩ := exchanged_eq h (List.mem_range.mp hp)
  rw [he]
  exact hy

/-- A change of each cell does not depend on the order of the cells. -/
theorem transpose_map {n : Nat} {m : List Float} (h : m.length = n * n) (f : Float → Float) :
    transpose n (m.map f) = (transpose n m).map f := by
  rw [transpose_eq h, transpose_eq (by rwa [List.length_map]), List.map_map]
  apply List.map_congr_left
  intro place hp
  obtain ⟨x, _, he, hf⟩ := exchanged_eq h (List.mem_range.mp hp)
  rw [Function.comp_apply, he, hf]

@[simp] theorem length_identity (n : Nat) : (identity n).length = n * n := by
  simp [identity]

section Loops

/-- A loop that takes one state to the next passes through all of them. -/
theorem foldlM_range {α : Type} {f : α → Nat → Guarded α} {n : Nat} (state : Nat → α)
    (step : ∀ k < n, f (state k) k = .ok (state (k + 1))) :
    (List.range n).foldlM f (state 0) = .ok (state n) := by
  induction n with
  | zero => rfl
  | succ n ih =>
    rw [List.range_succ, List.foldlM_append, ih fun k hk => step k (Nat.lt_succ_of_lt hk)]
    simp only [List.foldlM_cons, List.foldlM_nil]
    change f (state n) n >>= pure = _
    rw [step n (Nat.lt_succ_self n)]
    rfl

/-- A cell set among values that are given place by place. -/
theorem set_map_range {α : Type} {f g : Nat → α} {size place : Nat} {x : α} (hx : g place = x)
    (hg : ∀ i, i ≠ place → g i = f i) :
    ((List.range size).map f).set place x = (List.range size).map g := by
  apply List.ext_getElem
  · simp
  · intro i hi hi'
    rw [List.getElem_set, List.getElem_map, List.getElem_map, List.getElem_range]
    split
    · rename_i he
      rw [← he, hx]
    · rename_i hne
      rw [hg i (Ne.symm hne)]

def transposeCell (n : Nat) (m : List Float) (r : Nat) (t : List Float) (c : Nat) :
    Guarded (List Float) := do
  let x ← Guarded.index m (← Guarded.add (← Guarded.mul r n) c)
  Guarded.assign t (← Guarded.add (← Guarded.mul c n) r) x

def transposeRow (n : Nat) (m t : List Float) (r : Nat) : Guarded (List Float) :=
  (List.range n).foldlM (transposeCell n m r) t

/-- Writes the rows of a matrix into the columns of a buffer of its length. -/
def transposeInPlace (n : Nat) (m : List Float) : Guarded (List Float) :=
  (List.range n).foldlM (transposeRow n m) (List.replicate m.length 0.0)

def written (n : Nat) (m : List Float) (r c : Nat) : List Float :=
  (List.range (n * n)).map fun i =>
    if i % n < r ∨ i % n = r ∧ i / n < c then exchanged n m i else 0.0

variable {n : Nat} {m : List Float}

@[simp] theorem length_written (r c : Nat) : (written n m r c).length = n * n := by
  simp [written]

/-- The next cell that the loops write takes its value from the matrix. -/
theorem getElem?_exchanged {r c : Nat} (h : m.length = n * n) (hr : r < n) (hc : c < n) :
    m[r * n + c]? = some (exchanged n m (c * n + r)) := by
  have hfrom : r * n + c < m.length := h ▸ place_lt hr hc
  rw [exchanged, place_mod hr, place_div hr, List.getD_eq_getElem _ _ hfrom, List.getElem?_eq_getElem]

theorem set_written {r c : Nat} (hr : r < n) :
    (written n m r c).set (c * n + r) (exchanged n m (c * n + r)) = written n m r (c + 1) := by
  apply set_map_range
  · rw [place_mod hr, place_div hr, if_pos (.inr ⟨rfl, Nat.lt_succ_self c⟩)]
  · intro i hne
    have hiff : (i % n < r ∨ i % n = r ∧ i / n < c + 1) ↔ i % n < r ∨ i % n = r ∧ i / n < c := by
      refine or_congr_right (and_congr_right fun hmod => ?_)
      have hdiv : i / n ≠ c := by
        rintro rfl
        exact hne (by rw [← hmod, Nat.div_add_mod'])
      omega
    simp only [hiff]

/-- When all cells of a row are written, the next row is to come. -/
theorem written_next (r : Nat) : written n m (r + 1) 0 = written n m r n := by
  apply List.map_congr_left
  intro i hi
  have hdiv : i / n < n := row_lt (List.mem_range.mp hi)
  have hiff : (i % n < r + 1 ∨ i % n = r + 1 ∧ i / n < 0) ↔ i % n < r ∨ i % n = r ∧ i / n < n := by
    simp only [Nat.not_lt_zero, and_false, or_false, hdiv, and_true]
    omega
  simp only [hiff]

theorem written_first (h : m.length = n * n) : List.replicate m.length 0.0 = written n m 0 0 := by
  rw [h, written]
  simp

theorem written_last (h : m.length = n * n) : written n m n 0 = transpose n m := by
  rw [transpose_eq h]
  apply List.map_congr_left
  intro i hi
  rw [if_pos (.inl (column_lt (List.mem_range.mp hi)))]

theorem transposeCell_ok {r c : Nat} (h : m.length = n * n) (fits : n * n < Decimal.sizeLimit)
    (hr : r < n) (hc : c < n) :
    transposeCell n m r (written n m r c) c = .ok (written n m r (c + 1)) := by
  have hfrom : r * n + c < n * n := place_lt hr hc
  have hto : c * n + r < n * n := place_lt hc hr
  simp only [transposeCell, Guarded.mul_ok (Nat.lt_of_le_of_lt (Nat.le_add_right _ c) (hfrom.trans fits)),
    Guarded.mul_ok (Nat.lt_of_le_of_lt (Nat.le_add_right _ r) (hto.trans fits)),
    Guarded.ok_bind, Guarded.add_ok (hfrom.trans fits), Guarded.add_ok (hto.trans fits),
    Guarded.index_ok (getElem?_exchanged h hr hc), Guarded.assign_ok (hto.trans_eq (length_written r c).symm),
    set_written hr]

theorem transposeRow_ok {r : Nat} (h : m.length = n * n) (fits : n * n < Decimal.sizeLimit)
    (hr : r < n) :
    transposeRow n m (written n m r 0) r = .ok (written n m (r + 1) 0) := by
  rw [transposeRow, written_next]
  exact foldlM_range (written n m r) fun c hc => transposeCell_ok h fits hr hc

/-- The loops stay inside their buffers and compute the exchanged matrix. -/
theorem transposeInPlace_ok (h : m.length = n * n) (fits : n * n < Decimal.sizeLimit) :
    transposeInPlace n m = .ok (transpose n m) := by
  rw [transposeInPlace, written_first h, ← written_last h]
  exact foldlM_range (fun r => written n m r 0) fun r hr => transposeRow_ok h fits hr

def identityInPlace (n : Nat) : Guarded (List Float) := do
  let cells ← Guarded.mul n n
  (List.range n).foldlM (fun t i => do
    Guarded.assign t (← Guarded.add (← Guarded.mul i n) i) 1.0) (List.replicate cells 0.0)

def diagonal (n k : Nat) : List Float :=
  (List.range (n * n)).map fun i => if i / n = i % n ∧ i / n < k then 1.0 else 0.0

theorem identity_eq (n : Nat) : identity n = diagonal n n := by
  rw [identity, diagonal, ← flatMap_range_map]
  apply List.flatMap_congr
  intro r hr
  apply List.map_congr_left
  intro c hc
  have hr : r < n := List.mem_range.mp hr
  rw [place_div (List.mem_range.mp hc), place_mod (List.mem_range.mp hc)]
  simp only [hr, and_true]

/-- The loop stays inside its buffer and computes the matrix that changes nothing. -/
theorem identityInPlace_ok (fits : n * n < Decimal.sizeLimit) :
    identityInPlace n = .ok (identity n) := by
  have hfirst : List.replicate (n * n) 0.0 = diagonal n 0 := by
    rw [diagonal]
    simp
  simp only [identityInPlace, Guarded.mul_ok fits, Guarded.ok_bind]
  rw [hfirst, identity_eq]
  refine foldlM_range (diagonal n) fun k hk => ?_
  have hplace : k * n + k < n * n := place_lt hk hk
  have hset : (diagonal n k).set (k * n + k) 1.0 = diagonal n (k + 1) := by
    apply set_map_range
    · rw [place_div hk, place_mod hk, if_pos ⟨rfl, Nat.lt_succ_self k⟩]
    · intro i hne
      have hiff : (i / n = i % n ∧ i / n < k + 1) ↔ i / n = i % n ∧ i / n < k := by
        refine and_congr_right fun hmod => ?_
        have hdiv : i / n ≠ k := by
          intro hd
          apply hne
          rw [← Nat.div_add_mod' i n, ← hmod, hd]
        omega
      simp only [hiff]
  have hlen : k * n + k < (diagonal n k).length := by
    simpa [diagonal] using hplace
  simp only [Guarded.mul_ok (Nat.lt_of_le_of_lt (Nat.le_add_right _ k) (hplace.trans fits)),
    Guarded.ok_bind, Guarded.add_ok (hplace.trans fits), Guarded.assign_ok hlen, hset]

end Loops

end Assay.Image
