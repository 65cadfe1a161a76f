import Assay.Proofs.Comparison.Blame
import Assay.Proofs.Decimal.Integers
import Assay.Proofs.Image.Reading

namespace Assay.Image

open Decimal

def ElementType.IsInteger (t : ElementType) : Prop :=
  t.coding = .unsigned ∨ t.coding = .signed

/-- The value of stored bytes to the base 256. -/
def valueOf (highFirst : Bool) (bytes : Bytes) : Nat :=
  ofLowBytes (if highFirst then bytes.reverse else bytes)

/-- The whole number that stored bytes stand for. In a type with a sign the upper half of their values stands
for the negative numbers. -/
def storedInteger (t : ElementType) (highFirst : Bool) (bytes : Bytes) : Int :=
  match t.coding with
  | .signed => (valueOf highFirst bytes : Int).bmod (256 ^ t.size)
  | .unsigned | .real _ => valueOf highFirst bytes

def Header.integerAt (h : Header) (d : Descriptor) (data : Bytes) (place : Nat) : Int :=
  storedInteger d.elementType (h.flag ["BinaryDataByteOrderMSB", "ElementByteOrderMSB"])
    ((data.drop (place * d.elementType.size)).take d.elementType.size)

section Integers

variable {t : ElementType} {bytes data : Bytes} {count place : Nat}

theorem span_eq (count : Nat) : span count = 256 ^ count := by
  induction count with
  | zero => rfl
  | succ count ih => rw [span, ih, pow_succ']

theorem ofLowBytes_lt (bytes : Bytes) : ofLowBytes bytes < 256 ^ bytes.length := by
  induction bytes with
  | nil => exact Nat.one_pos
  | cons b rest ih =>
    have hb := b.toNat_lt
    rw [ofLowBytes, List.length_cons, pow_succ']
    omega

theorem valueOf_lt (highFirst : Bool) (bytes : Bytes) : valueOf highFirst bytes < 256 ^ bytes.length := by
  cases highFirst with
  | false => exact ofLowBytes_lt bytes
  | true =>
    have hlt := ofLowBytes_lt bytes.reverse
    rwa [List.length_reverse] at hlt

/-- Read as a number with a sign, a value of the upper half is negative. -/
theorem storedInteger_of_signed (hc : t.coding = .signed) (highFirst : Bool) (hlen : bytes.length = t.size) :
    storedInteger t highFirst bytes =
      if 2 * valueOf highFirst bytes < 256 ^ t.size then (valueOf highFirst bytes : Int)
      else valueOf highFirst bytes - (256 ^ t.size : Nat) := by
  have heven := span_even t
  have hlt := valueOf_lt highFirst bytes
  rw [span_eq] at heven
  rw [hlen] at hlt
  rw [storedInteger, hc]
  dsimp only
  rw [Int.bmod_def, Int.emod_eq_of_lt (Int.natCast_nonneg _) (by exact_mod_cast hlt)]
  split_ifs <;> omega

/-- The sample of some bytes is the whole number that they stand for, widened. -/
theorem decodeSample_integer (ht : t.IsInteger) (highFirst : Bool) (hlen : bytes.length = t.size) :
    decodeSample t highFirst bytes = ofInt (storedInteger t highFirst bytes) := by
  change decodeBits t (valueOf highFirst bytes) = _
  rcases ht with hc | hc
  · rw [decodeBits, storedInteger, hc]
  · rw [storedInteger_of_signed hc highFirst hlen, decodeBits, hc]
    dsimp only
    rw [span_eq]
    split_ifs <;> rfl

/-- The whole numbers of a type fit its width. -/
theorem natAbs_storedInteger (t : ElementType) (highFirst : Bool) (hlen : bytes.length = t.size) :
    (storedInteger t highFirst bytes).natAbs < 256 ^ t.size := by
  have hlt := valueOf_lt highFirst bytes
  rw [hlen] at hlt
  cases hc : t.coding with
  | signed =>
    rw [storedInteger_of_signed hc highFirst hlen]
    split_ifs <;> omega
  | unsigned | real _ =>
    rw [storedInteger, hc]
    exact hlt

theorem getElem?_decodeSamples (t : ElementType) (highFirst : Bool) (h : place < count) :
    (decodeSamples t highFirst count data)[place]? =
      some (decodeSample t highFirst ((data.drop (place * t.size)).take t.size)) := by
  induction count generalizing place data with
  | zero => omega
  | succ count ih =>
    cases place with
    | zero => simp [decodeSamples]
    | succ place =>
      rw [decodeSamples, List.getElem?_cons_succ, ih (by omega), List.drop_drop, Nat.succ_mul, Nat.add_comm]

end Integers

section Files

/-- A header of an image of whole numbers that are stored as they stand, with a geometry of numbers. -/
structure Integral (h : Header) (d : Descriptor) : Prop where
  descriptor : h.descriptor = .ok d
  binary : isBinary h = true
  whole : h.flag ["CompressedData"] = false
  atFront : h.get? "HeaderSize" = none
  integers : d.elementType.IsInteger
  spacing : ∀ x ∈ d.spacing, x.isNaN = false
  origin : ∀ x ∈ d.origin, x.isNaN = false
  direction : ∀ x ∈ d.direction, x.isNaN = false

/-- A file with the fields of a header whose samples are stored in some bytes, behind the header or in a
file that it names. -/
def Carries (t : FileTree) (path : Path) (h : Header) (data : Bytes) : Prop :=
  ∃ bytes rest, t.read path = .ok bytes ∧ Header.read bytes = .ok ⟨h.fields, rest⟩ ∧
    readStored t path ⟨h.fields, rest⟩ = .ok data

variable {t : FileTree} {path : Path} {h : Header} {d : Descriptor} {data : Bytes} {place : Nat}

/-- The samples of a file are decoded from its bytes in the order that the header tells. -/
theorem Integral.read (integral : Integral h d) (carries : Carries t path h data)
    (hlen : data.length = d.sampleCount * d.elementType.size) :
    read t path = .ok ⟨d, decodeSamples d.elementType
      (h.flag ["BinaryDataByteOrderMSB", "ElementByteOrderMSB"]) d.sampleCount data⟩ := by
  obtain ⟨bytes, rest, hfile, hheader, hstored⟩ := carries
  have hdescriptor : Header.descriptor ⟨h.fields, rest⟩ = .ok d :=
    (Header.descriptor_congr fun _ _ => rfl).trans integral.descriptor
  have hbinary := readBinary_of_skip path (skipFront_none integral.atFront _ data) hlen
  have hsamples : readSamples path ⟨h.fields, rest⟩ d data = .ok (decodeSamples d.elementType
      (h.flag ["BinaryDataByteOrderMSB", "ElementByteOrderMSB"]) d.sampleCount data) := by
    rw [@readSamples_congr h ⟨h.fields, rest⟩ (fun _ _ => rfl), readSamples, integral.binary, integral.whole]
    exact hbinary
  rw [Image.read, hfile]
  change (Header.read bytes).mapError _ >>= _ = _
  rw [hheader]
  change (Header.descriptor ⟨h.fields, rest⟩).mapError _ >>= _ = _
  rw [hdescriptor]
  change readStored t path ⟨h.fields, rest⟩ >>= _ = _
  rw [hstored]
  change readSamples path ⟨h.fields, rest⟩ d data >>= _ = _
  rw [hsamples]
  rfl

theorem length_sample (hlen : data.length = d.sampleCount * d.elementType.size)
    (hplace : place < d.sampleCount) :
    ((data.drop (place * d.elementType.size)).take d.elementType.size).length = d.elementType.size := by
  have hle : (place + 1) * d.elementType.size ≤ data.length := hlen ▸ Nat.mul_le_mul_right _ hplace
  rw [Nat.succ_mul] at hle
  rw [List.length_take, List.length_drop]
  omega

theorem natAbs_integerAt (h : Header) (hlen : data.length = d.sampleCount * d.elementType.size)
    (hplace : place < d.sampleCount) : (h.integerAt d data place).natAbs < 256 ^ d.elementType.size :=
  natAbs_storedInteger d.elementType _ (length_sample hlen hplace)

theorem natAbs_integerAt_lt (h : Header) (hlen : data.length = d.sampleCount * d.elementType.size)
    (hplace : place < d.sampleCount) : (h.integerAt d data place).natAbs < 2 ^ 64 := by
  have hsize : 256 ^ d.elementType.size ≤ 2 ^ 64 := by
    cases d.elementType <;> decide
  exact (natAbs_integerAt h hlen hplace).trans_le hsize

/-- The samples that are decoded have the values of the stored integers, widened. -/
theorem Integral.sample (integral : Integral h d)
    (hlen : data.length = d.sampleCount * d.elementType.size) (hplace : place < d.sampleCount) :
    ∃ x, (decodeSamples d.elementType (h.flag ["BinaryDataByteOrderMSB", "ElementByteOrderMSB"])
        d.sampleCount data)[place]? = some x ∧
      value? x = some (widened (h.integerAt d data place) : ℚ) := by
  refine ⟨_, getElem?_decodeSamples d.elementType _ hplace, ?_⟩
  rw [decodeSample_integer integral.integers _ (length_sample hlen hplace)]
  exact value?_ofInt (natAbs_integerAt_lt h hlen hplace)

end Files

end Assay.Image

namespace Assay.Comparison

open Decimal Image

/-- Without tolerance, finite samples agree when their values are the same. -/
theorem within_zero {x y : Float} {p q : ℚ} (hx : value? x = some p) (hy : value? y = some q) :
    within 0.0 x y = true ↔ p = q := by
  rw [within, Bool.or_eq_true, decide_eq_true_eq, beq_iff_value hx hy]
  refine or_iff_left_of_imp fun hle => ?_
  by_contra hne
  exact not_distance_le_zero hx hy hne hle

variable {t : FileTree} {actual expected : Path} {h : Header} {d : Descriptor} {data reference : Bytes}

/-- Two files of whole numbers are equal when the samples at every place are widened to the same number. -/
theorem sameImageFiles_widened (integral : Integral h d) (hactual : Carries t actual h data)
    (hexpected : Carries t expected h reference)
    (hlen : data.length = d.sampleCount * d.elementType.size)
    (hlen' : reference.length = d.sampleCount * d.elementType.size) :
    ∃ v, sameImageFiles t actual expected 0.0 = .ok v ∧
      (v = .pass ↔ ∀ i < d.sampleCount,
        widened (h.integerAt d data i) = widened (h.integerAt d reference i)) := by
  obtain ⟨v, hv, hpass⟩ :=
    sameImageFiles_of_reference (integral.read hexpected hlen') actual 0.0
  refine ⟨v, hv, hpass.trans ?_⟩
  rw [integral.read hactual hlen]
  simp only [Except.ok.injEq, exists_eq_left']
  constructor
  · intro hagree i hi
    obtain ⟨x, hx, hvalue⟩ := integral.sample hlen hi
    obtain ⟨y, hy, hvalue'⟩ := integral.sample hlen' hi
    exact_mod_cast (within_zero hvalue hvalue').mp (hagree.samples i x y hx hy)
  · intro hsame
    refine ⟨?_, ?_, ?_⟩
    · simp only [Field.forall_iff, Field.Same, reals_self, true_and, and_true]
      exact ⟨integral.spacing, integral.origin, integral.direction⟩
    · rw [length_decodeSamples, length_decodeSamples]
    · intro i x y hx hy
      have hi : i < d.sampleCount := by
        have hlt := (List.getElem?_eq_some_iff.mp hx).1
        rwa [length_decodeSamples] at hlt
      obtain ⟨x', hx', hvalue⟩ := integral.sample hlen hi
      obtain ⟨y', hy', hvalue'⟩ := integral.sample hlen' hi
      obtain rfl : x' = x := Option.some.inj (hx'.symm.trans hx)
      obtain rfl : y' = y := Option.some.inj (hy'.symm.trans hy)
      exact (within_zero hvalue hvalue').mpr (congrArg _ (hsame i hi))

/-- Without tolerance, two files of whole numbers with the same header are found equal exactly when the
integers at every place are widened to the same number. For integers of up to four bytes these are the
same integers; of eight bytes different ones pass only beyond the room of the mantissa and near each other. -/
theorem sameImageFiles_integers (integral : Integral h d) (hactual : Carries t actual h data)
    (hexpected : Carries t expected h reference)
    (hlen : data.length = d.sampleCount * d.elementType.size)
    (hlen' : reference.length = d.sampleCount * d.elementType.size) :
    ∃ v, sameImageFiles t actual expected 0.0 = .ok v ∧
      (v = .pass ↔ ∀ i < d.sampleCount,
        widened (h.integerAt d data i) = widened (h.integerAt d reference i)) ∧
      (d.elementType.size ≤ 4 →
        (v = .pass ↔ ∀ i < d.sampleCount, h.integerAt d data i = h.integerAt d reference i)) ∧
      (v = .pass → ∀ i < d.sampleCount, h.integerAt d data i ≠ h.integerAt d reference i →
        2 ^ 53 ≤ (h.integerAt d data i).natAbs ∧ 2 ^ 53 ≤ (h.integerAt d reference i).natAbs ∧
          (h.integerAt d data i - h.integerAt d reference i).natAbs ≤ 2048) := by
  obtain ⟨v, hv, hpass⟩ := sameImageFiles_widened integral hactual hexpected hlen hlen'
  have hapart : v = .pass → ∀ i < d.sampleCount, h.integerAt d data i ≠ h.integerAt d reference i →
      2 ^ 53 ≤ (h.integerAt d data i).natAbs ∧ 2 ^ 53 ≤ (h.integerAt d reference i).natAbs ∧
        (h.integerAt d data i - h.integerAt d reference i).natAbs ≤ 2048 := fun hp i hi hne =>
    apart_of_widened_eq (natAbs_integerAt_lt h hlen hi) (natAbs_integerAt_lt h hlen' hi) hne
      (hpass.mp hp i hi)
  refine ⟨v, hv, hpass, fun hshort => ⟨fun hp i hi => ?_, fun hsame => ?_⟩, hapart⟩
  · by_contra hne
    obtain ⟨hlarge, -⟩ := hapart hp i hi hne
    have hfits := natAbs_integerAt h hlen hi
    have hroom : 256 ^ d.elementType.size ≤ 256 ^ 4 := Nat.pow_le_pow_right (by norm_num) hshort
    omega
  · exact hpass.mpr fun i hi => congrArg widened (hsame i hi)

def wideFields : List (String × String) :=
  [("ElementDataFile", "LOCAL"), ("ElementType", "MET_ULONG_LONG"), ("DimSize", "1"), ("NDims", "1")]

def wideDescriptor : Descriptor :=
  ⟨1, [1], [1.0], [0.0], [1.0], .ulongLong, 1⟩

def wideFile (data : Bytes) : Bytes :=
  Text.Utf8.ofString "NDims = 1\nDimSize = 1\nElementType = MET_ULONG_LONG\nElementDataFile = LOCAL\n" ++ data

/-- Two files that hold the first integer whose successor has no number of its own, and its successor. -/
def wideTree : FileTree where
  entries := [(["a.mha"], .file (wideFile [1, 0, 0, 0, 0, 0, 0x20, 0]) 0o644),
    (["b.mha"], .file (wideFile [0, 0, 0, 0, 0, 0, 0x20, 0]) 0o644),
    (["c.mha"], .file (wideFile [0, 0, 0, 0, 0, 0, 0x10, 0]) 0o644)]
  workingDirectory := []

theorem integral_wide : Integral ⟨wideFields, []⟩ wideDescriptor where
  descriptor := by
    rw [Header.descriptor_ok, Header.imageDescriptor_ok]
    refine ⟨?_, rfl, ⟨_, rfl, rfl⟩, rfl, rfl, rfl, rfl, rfl, by decide +kernel⟩
    intro value hv
    cases hv
  binary := rfl
  whole := rfl
  atFront := rfl
  integers := .inl rfl
  spacing := by decide +kernel
  origin := by decide +kernel
  direction := by decide +kernel

theorem carries_wide {path : Path} {data : Bytes} (hfile : wideTree.read path = .ok (wideFile data))
    (hparts : (Header.read (wideFile data)).toOption.map (fun h => (h.fields, h.rest)) =
      some (wideFields, data)) : Carries wideTree path ⟨wideFields, []⟩ data := by
  cases hr : Header.read (wideFile data) with
  | error fault =>
    rw [hr] at hparts
    cases hparts
  | ok h =>
    obtain ⟨fields, rest⟩ := h
    rw [hr] at hparts
    obtain ⟨rfl, rfl⟩ := Prod.mk.inj (Option.some.inj hparts)
    exact ⟨_, _, hfile, hr, rfl⟩

theorem carries_a : Carries wideTree ⟨"a.mha"⟩ ⟨wideFields, []⟩ [1, 0, 0, 0, 0, 0, 0x20, 0] :=
  carries_wide (by decide +kernel) (by decide +kernel)

theorem carries_b : Carries wideTree ⟨"b.mha"⟩ ⟨wideFields, []⟩ [0, 0, 0, 0, 0, 0, 0x20, 0] :=
  carries_wide (by decide +kernel) (by decide +kernel)

theorem carries_c : Carries wideTree ⟨"c.mha"⟩ ⟨wideFields, []⟩ [0, 0, 0, 0, 0, 0, 0x10, 0] :=
  carries_wide (by decide +kernel) (by decide +kernel)

/-- An integer within the room of the mantissa is told from one beyond it. -/
theorem sameImageFiles_integers_wide :
    ∃ v, sameImageFiles wideTree ⟨"a.mha"⟩ ⟨"c.mha"⟩ 0.0 = .ok v ∧ v ≠ .pass := by
  obtain ⟨v, hv, -, -, hapart⟩ := sameImageFiles_integers integral_wide carries_a carries_c rfl rfl
  refine ⟨v, hv, fun hp => ?_⟩
  obtain ⟨-, hlarge, -⟩ := hapart hp 0 (by decide) (by decide +kernel)
  exact absurd hlarge (by decide +kernel)

/-- Not every stored integer is seen: two that follow each other are found equal when they are widened to
the same number. -/
theorem integers_collapse :
    (Integral ⟨wideFields, []⟩ wideDescriptor ∧
      Carries wideTree ⟨"a.mha"⟩ ⟨wideFields, []⟩ [1, 0, 0, 0, 0, 0, 0x20, 0] ∧
      Carries wideTree ⟨"b.mha"⟩ ⟨wideFields, []⟩ [0, 0, 0, 0, 0, 0, 0x20, 0]) ∧
    sameImageFiles wideTree ⟨"a.mha"⟩ ⟨"b.mha"⟩ 0.0 = .ok .pass ∧
    Header.integerAt ⟨wideFields, []⟩ wideDescriptor [1, 0, 0, 0, 0, 0, 0x20, 0] 0 = 9007199254740993 ∧
    Header.integerAt ⟨wideFields, []⟩ wideDescriptor [0, 0, 0, 0, 0, 0, 0x20, 0] 0 = 9007199254740992 := by
  refine ⟨⟨integral_wide, carries_a, carries_b⟩, ?_, by decide +kernel, by decide +kernel⟩
  obtain ⟨v, hv, hpass⟩ := sameImageFiles_widened integral_wide carries_a carries_b rfl rfl
  obtain rfl := hpass.mpr (by decide +kernel)
  exact hv

end Assay.Comparison
