import Assay.Proofs.Comparison.Reports

namespace Assay.Comparison

open Image Decimal

section Exchanged

variable {tolerance : Float} {a b : Image} {xs ys : List Float}

theorem within_comm (tolerance x y : Float) : within tolerance x y = within tolerance y x := by
  rw [within, within, real_beq_comm, distance_comm]

def Deviation.exchanged (d : Deviation) : Deviation :=
  ⟨d.place, d.expected, d.actual⟩

theorem size_exchanged (d : Deviation) : d.exchanged.size = d.size :=
  distance_comm _ _

theorem deviations_comm (tolerance : Float) (xs ys : List Float) :
    deviations tolerance ys xs = (deviations tolerance xs ys).map Deviation.exchanged := by
  rw [deviations, deviations, ← List.zip_swap, List.zipIdx_map, List.filterMap_map, List.map_filterMap]
  congr 1
  funext entry
  obtain ⟨⟨x, y⟩, place⟩ := entry
  simp only [Function.comp_apply, Prod.map_apply, Prod.swap, within_comm tolerance y x]
  cases within tolerance x y <;> rfl

theorem largest_exchanged (ds : List Deviation) : largest (ds.map Deviation.exchanged) = largest ds := by
  rw [largest, List.foldl_map]
  simp only [size_exchanged]
  rfl

theorem equal_symm {x y : Float} (h : Equal x y) : Equal y x := by
  rw [← beq_iff, real_beq_comm, beq_iff]
  exact h

theorem same_symm {a b : Descriptor} {f : Field} (h : f.Same a b) : f.Same b a := by
  cases f with
  | spacing | origin | direction => exact h.flip.imp fun _ _ => equal_symm
  | dimension | size | elementType | components => exact Eq.symm h

theorem Comparable.symm (h : Comparable a b) : Comparable b a :=
  ⟨fun f => same_symm (h.fields f), h.length.symm⟩

def Report.exchanged (r : Report) : Report :=
  { r with actual := r.expected, expected := r.actual }

/-- The report on exchanged images tells the same count, the same largest distance and the same position. -/
theorem report_exchanged (h : Comparable a b) (tolerance : Float) (first : Deviation)
    (all : List Deviation) :
    report b tolerance first.exchanged (all.map Deviation.exchanged) =
      (report a tolerance first all).exchanged := by
  have hsize : a.descriptor.size = b.descriptor.size := h.fields .size
  have hcomponents : a.descriptor.components = b.descriptor.components := h.fields .components
  rw [report, report, Report.exchanged, List.length_map, largest_exchanged, ← h.length,
    Descriptor.gridIndex, Descriptor.gridIndex, hsize, hcomponents]
  rfl

theorem agree_symm (h : Agree tolerance a b) : Agree tolerance b a where
  fields f := same_symm (h.fields f)
  length := h.length.symm
  samples i x y hx hy := within_comm tolerance y x ▸ h.samples i y x hy hx

theorem sameImages_comm {check : String} :
    sameImages check a b tolerance = .pass ↔ sameImages check b a tolerance = .pass := by
  rw [sameImages_eq_pass, sameImages_eq_pass]
  exact ⟨agree_symm, agree_symm⟩

end Exchanged

section Tolerances

variable {narrow broad : Float} {a b : Image} {xs ys : List Float}

theorem within_of_le (h : narrow ≤ broad) {x y : Float} (hw : within narrow x y = true) :
    within broad x y = true := by
  rw [within, Bool.or_eq_true, decide_eq_true_eq] at hw ⊢
  exact hw.imp_right fun hle => real_le_trans hle h

/-- Buffers deviate within the narrower tolerance wherever they do within the wider one. -/
theorem deviates_of_le (h : narrow ≤ broad) {place : Nat} (hd : deviates broad xs ys place = true) :
    deviates narrow xs ys place = true := by
  obtain ⟨x, y, hx, hy, hw⟩ := deviates_iff.mp hd
  refine deviates_iff.mpr ⟨x, y, hx, hy, ?_⟩
  rw [← Bool.not_eq_true] at hw ⊢
  exact fun hnarrow => hw (within_of_le h hnarrow)

theorem length_deviations_le (h : narrow ≤ broad) (hlength : xs.length = ys.length) :
    (deviations broad xs ys).length ≤ (deviations narrow xs ys).length := by
  rw [length_deviations hlength, length_deviations hlength]
  exact List.countP_mono_left fun _ _ => deviates_of_le h

theorem agree_of_le (h : narrow ≤ broad) (hagree : Agree narrow a b) : Agree broad a b where
  fields := hagree.fields
  length := hagree.length
  samples i x y hx hy := within_of_le h (hagree.samples i x y hx hy)

end Tolerances

/-- Comparable images that are told apart have deviations, which are reported. -/
theorem exists_report {check : String} {a b : Image} {tolerance : Float} (h : Comparable a b)
    (hreject : sameImages check a b tolerance ≠ .pass) :
    ∃ first rest, deviations tolerance a.pixels b.pixels = first :: rest ∧
      sameImages check a b tolerance =
        .fail ⟨check, (report a tolerance first (first :: rest)).text⟩ := by
  have heq := @sameImages_of_comparable check a b tolerance h
  cases hd : deviations tolerance a.pixels b.pixels with
  | nil =>
    rw [hd] at heq
    exact absurd heq hreject
  | cons first rest =>
    rw [hd] at heq
    exact ⟨first, rest, rfl, heq⟩

/-- Comparing images is symmetric, and monotone in the tolerance. Exchanged images are accepted alike, and
where they are told apart by their samples the reports differ only in that the samples are exchanged. What is
accepted within a tolerance is accepted within a wider one, and where both reject the wider one counts no more
places. -/
theorem sameImages_symmetric_monotone (check : String) (a b : Image) (tolerance : Float) :
    (sameImages check a b tolerance = .pass ↔ sameImages check b a tolerance = .pass) ∧
    (Comparable a b → sameImages check a b tolerance ≠ .pass →
      ∃ r : Report, sameImages check a b tolerance = .fail ⟨check, r.text⟩ ∧
        sameImages check b a tolerance = .fail ⟨check, r.exchanged.text⟩) ∧
    ∀ broad, tolerance ≤ broad →
      (sameImages check a b tolerance = .pass → sameImages check a b broad = .pass) ∧
      (Comparable a b → sameImages check a b broad ≠ .pass →
        ∃ r s : Report, sameImages check a b tolerance = .fail ⟨check, r.text⟩ ∧
          sameImages check a b broad = .fail ⟨check, s.text⟩ ∧ s.count ≤ r.count) := by
  refine ⟨sameImages_comm, fun hc hreject => ?_, fun broad hle => ?_⟩
  · obtain ⟨first, rest, hd, htext⟩ := exists_report hc hreject
    refine ⟨_, htext, ?_⟩
    rw [sameImages_of_comparable hc.symm, deviations_comm, hd, ← report_exchanged hc]
    rfl
  · have hwider : sameImages check a b tolerance = .pass → sameImages check a b broad = .pass := by
      rw [sameImages_eq_pass, sameImages_eq_pass]
      exact agree_of_le hle
    refine ⟨hwider, fun hc hreject => ?_⟩
    obtain ⟨first, rest, hd, htext⟩ := exists_report hc (mt hwider hreject)
    obtain ⟨first', rest', hd', htext'⟩ := exists_report hc hreject
    refine ⟨_, _, htext, htext', ?_⟩
    have hcount := length_deviations_le hle hc.length
    rwa [hd, hd'] at hcount

/-- Three samples are apart, one of them by an infinite distance, and a wider tolerance forgives one. -/
theorem sameImages_symmetric_monotone_pairs :
    (∃ r : Report,
      sameImages "pairs" (pairs [0, 0, 1, 0, 1.0 / 0.0, 0, 0, 9]) (pairs [0, 0, 0, 0, 7, 0, 0, 0]) 0.5 =
          .fail ⟨"pairs", r.text⟩ ∧
        sameImages "pairs" (pairs [0, 0, 0, 0, 7, 0, 0, 0]) (pairs [0, 0, 1, 0, 1.0 / 0.0, 0, 0, 9]) 0.5 =
          .fail ⟨"pairs", r.exchanged.text⟩) ∧
    ∃ r s : Report,
      sameImages "pairs" (pairs [0, 0, 1, 0, 1.0 / 0.0, 0, 0, 9]) (pairs [0, 0, 0, 0, 7, 0, 0, 0]) 0.5 =
          .fail ⟨"pairs", r.text⟩ ∧
        sameImages "pairs" (pairs [0, 0, 1, 0, 1.0 / 0.0, 0, 0, 9]) (pairs [0, 0, 0, 0, 7, 0, 0, 0]) 4.0 =
          .fail ⟨"pairs", s.text⟩ ∧ s.count ≤ r.count := by
  obtain ⟨-, hexchanged, hwider⟩ := sameImages_symmetric_monotone "pairs"
    (pairs [0, 0, 1, 0, 1.0 / 0.0, 0, 0, 9]) (pairs [0, 0, 0, 0, 7, 0, 0, 0]) 0.5
  have hcomparable : Comparable (pairs [0, 0, 1, 0, 1.0 / 0.0, 0, 0, 9]) (pairs [0, 0, 0, 0, 7, 0, 0, 0]) :=
    ⟨(Descriptor.beq_iff _ _).mp (by decide +kernel), rfl⟩
  exact ⟨hexchanged hcomparable (by decide +kernel),
    (hwider 4.0 (by decide +kernel)).2 hcomparable (by decide +kernel)⟩

end Assay.Comparison
