import Mathlib.Algebra.Group.Nat.Defs
import Mathlib.Data.List.Infix
import Mathlib.Data.List.TakeWhile
import Mathlib.Data.List.Forall2
import Assay.Image.Header
import Assay.Proofs.Image.Matrix
import Assay.Proofs.Text.Blank
import Assay.Proofs.Text.Utf8

namespace Assay.Image

theorem bind_eq_ok {ε α β : Type} {x : Except ε α} {f : α → Except ε β} {b : β} :
    x >>= f = .ok b ↔ ∃ a, x = .ok a ∧ f a = .ok b := by
  cases x with
  | error e =>
    constructor
    · intro h
      cases h
    · rintro ⟨a, h, _⟩
      cases h
  | ok a =>
    constructor
    · intro h
      exact ⟨a, rfl, h⟩
    · rintro ⟨a', h, hf⟩
      cases h
      exact hf

namespace Header

section Lines

def firstField? (bytes : Bytes) : Except HeaderFault (Option (String × String)) :=
  match Text.Utf8.decode? (bytes.takeWhile (· ≠ lineFeed)) with
  | none => .error .notText
  | some line => field? line

/-- What the first line means for the reading of a header. -/
theorem readFrom_step (fields : List (String × String)) {bytes : Bytes} (h : bytes ≠ []) :
    readFrom fields bytes =
      match firstField? bytes with
      | .error fault => .error fault
      | .ok none => readFrom fields (afterLine bytes)
      | .ok (some (key, value)) =>
        if key = dataFileKey then .ok ⟨(key, value) :: fields, afterLine bytes⟩
        else readFrom ((key, value) :: fields) (afterLine bytes) := by
  rw [readFrom, dif_neg h, firstField?]
  cases Text.Utf8.decode? (bytes.takeWhile (· ≠ lineFeed)) <;> rfl

theorem takeWhile_line {line : Bytes} (h : lineFeed ∉ line) (rest : Bytes) :
    (line ++ lineFeed :: rest).takeWhile (· ≠ lineFeed) = line := by
  rw [List.takeWhile_append_of_pos]
  · simp
  · intro b hb
    have hne : b ≠ lineFeed := fun he => h (he ▸ hb)
    simpa using hne

theorem afterLine_line {line : Bytes} (h : lineFeed ∉ line) (rest : Bytes) :
    afterLine (line ++ lineFeed :: rest) = rest := by
  rw [afterLine, List.dropWhile_append_of_pos]
  · simp
  · intro b hb
    have hne : b ≠ lineFeed := fun he => h (he ▸ hb)
    simpa using hne

theorem takeWhile_last {bytes : Bytes} (h : lineFeed ∉ bytes) :
    bytes.takeWhile (· ≠ lineFeed) = bytes := by
  rw [List.takeWhile_eq_self_iff]
  intro b hb
  have hne : b ≠ lineFeed := fun he => h (he ▸ hb)
  simpa using hne

theorem firstField?_encode {text : List Char} (h : '\n' ∉ text) :
    firstField? (Text.Utf8.encode text) = field? text := by
  rw [firstField?, takeWhile_last (Text.Utf8.lineFeed_notMem_encode h), Text.Utf8.decode?_encode]

/-- A line is cut at its first mark, and what stands on either side is trimmed. -/
theorem field?_cut {front : List Char} (h : '=' ∉ front) (back : List Char) :
    field? (front ++ '=' :: back) =
      .ok (some (String.ofList (Text.trim front), String.ofList (Text.trim back))) := by
  have hmark : '=' ∉ Text.trimStart front := fun hm => h ((List.dropWhile_sublist _).mem hm)
  rw [field?, Text.trim_append_cons (by decide), if_neg (by simp)]
  simp only [Text.cutAt_append hmark, Text.trim_trimStart, Text.trim_trimEnd]

theorem afterLine_last {bytes : Bytes} (h : lineFeed ∉ bytes) : afterLine bytes = [] := by
  have hd : bytes.dropWhile (· ≠ lineFeed) = [] := by
    rw [List.dropWhile_eq_nil_iff]
    intro b hb
    have hne : b ≠ lineFeed := fun he => h (he ▸ hb)
    simpa using hne
  rw [afterLine, hd]
  rfl

theorem afterLine_suffix (bytes : Bytes) : afterLine bytes <:+ bytes :=
  (List.drop_suffix _ _).trans (List.dropWhile_suffix _)

/-- A header that is read goes on behind a blank line or a field, or ends at the field of the data
file. -/
theorem readFrom_cases {fields : List (String × String)} {bytes : Bytes} {h : Header}
    (hr : readFrom fields bytes = .ok h) :
    bytes ≠ [] ∧
      (firstField? bytes = .ok none ∧ readFrom fields (afterLine bytes) = .ok h ∨
        ∃ key value, firstField? bytes = .ok (some (key, value)) ∧
          (key = dataFileKey ∧ h = ⟨(key, value) :: fields, afterLine bytes⟩ ∨
            key ≠ dataFileKey ∧ readFrom ((key, value) :: fields) (afterLine bytes) = .ok h)) := by
  by_cases hne : bytes = []
  · rw [readFrom, dif_pos hne] at hr
    cases hr
  · refine ⟨hne, ?_⟩
    rw [readFrom_step fields hne] at hr
    cases hf : firstField? bytes with
    | error fault => simp [hf] at hr
    | ok read =>
      cases read with
      | none =>
        simp only [hf] at hr
        exact .inl ⟨rfl, hr⟩
      | some field =>
        obtain ⟨key, value⟩ := field
        simp only [hf] at hr
        refine .inr ⟨key, value, rfl, ?_⟩
        split_ifs at hr with hkey
        · cases hr
          exact .inl ⟨hkey, rfl⟩
        · exact .inr ⟨hkey, hr⟩

/-- The bytes behind a header are the end of the file. -/
theorem rest_suffix {fields : List (String × String)} {bytes : Bytes} {h : Header}
    (hr : readFrom fields bytes = .ok h) : h.rest <:+ bytes := by
  induction hn : bytes.length using Nat.strongRecOn generalizing fields bytes with
  | ind n ih =>
    obtain ⟨hne, hcases⟩ := readFrom_cases hr
    have hlt : (afterLine bytes).length < n := hn ▸ length_afterLine_lt hne
    rcases hcases with ⟨_, hrest⟩ | ⟨key, value, _, ⟨_, rfl⟩ | ⟨_, hrest⟩⟩
    · exact (ih _ hlt hrest rfl).trans (afterLine_suffix bytes)
    · exact afterLine_suffix bytes
    · exact (ih _ hlt hrest rfl).trans (afterLine_suffix bytes)

theorem length_value_le {line : List Char} {key value : String}
    (h : field? line = .ok (some (key, value))) : value.toList.length ≤ line.length := by
  rw [field?] at h
  split at h
  · cases h
  · cases hc : Text.cutAt '=' (Text.trim line) with
    | none => simp [hc] at h
    | some parts =>
      simp only [hc, Except.ok.injEq, Option.some.injEq, Prod.mk.injEq] at h
      obtain ⟨_, rfl⟩ := h
      have hcut := congrArg List.length (@Text.eq_of_cutAt _ _ parts.1 parts.2 hc).1
      have hline := Text.length_trim_le line
      have hvalue := Text.length_trim_le parts.2
      rw [String.toList_ofList]
      simp only [List.length_append, List.length_cons] at hcut
      omega

theorem length_firstField_le {bytes : Bytes} {key value : String}
    (h : firstField? bytes = .ok (some (key, value))) : value.toList.length ≤ bytes.length := by
  rw [firstField?] at h
  cases hd : Text.Utf8.decode? (bytes.takeWhile (· ≠ lineFeed)) with
  | none =>
    rw [hd] at h
    cases h
  | some line =>
    rw [hd] at h
    have hvalue := length_value_le h
    have hline := Text.Utf8.length_decode_le hd
    have htake : (bytes.takeWhile (· ≠ lineFeed)).length ≤ bytes.length :=
      (List.takeWhile_sublist _).length_le
    omega

/-- No value of a header is longer than the file. -/
theorem length_field_le {fields : List (String × String)} {bytes : Bytes} {h : Header} {limit : Nat}
    (hr : readFrom fields bytes = .ok h) (hb : bytes.length ≤ limit)
    (hf : ∀ f ∈ fields, f.2.toList.length ≤ limit) :
    ∀ f ∈ h.fields, f.2.toList.length ≤ limit := by
  induction hn : bytes.length using Nat.strongRecOn generalizing fields bytes with
  | ind n ih =>
    obtain ⟨hne, hcases⟩ := readFrom_cases hr
    have hlt : (afterLine bytes).length < n := hn ▸ length_afterLine_lt hne
    have hlimit : (afterLine bytes).length ≤ limit := by omega
    rcases hcases with ⟨_, hrest⟩ | ⟨key, value, hfirst, hcases⟩
    · exact ih _ hlt hrest hlimit hf rfl
    · have hcons : ∀ f ∈ (key, value) :: fields, f.2.toList.length ≤ limit := by
        intro f hm
        rcases List.mem_cons.mp hm with rfl | hm
        · exact Nat.le_trans (length_firstField_le hfirst) hb
        · exact hf f hm
      rcases hcases with ⟨_, rfl⟩ | ⟨_, hrest⟩
      · exact hcons
      · exact ih _ hlt hrest hlimit hcons rfl

theorem mem_of_get? {h : Header} {key value : String} (hg : h.get? key = some value) :
    (key, value) ∈ h.fields := by
  obtain ⟨front, back, he, _⟩ := List.lookup_eq_some_iff.mp hg
  rw [he]
  exact List.mem_append_right front List.mem_cons_self

end Lines

section Values

variable {α : Type} {parse : List Char → Option α} {key : String}

/-- A list of items is read when every word of the value is one. -/
theorem items_ok {value : List Char} {xs : List α} :
    items parse key value = .ok xs ↔ (Text.words value).map parse = xs.map some := by
  rw [items]
  induction Text.words value generalizing xs with
  | nil =>
    constructor
    · intro h
      cases h
      rfl
    · intro h
      rw [List.map_nil, eq_comm, List.map_eq_nil_iff] at h
      rw [h]
      rfl
  | cons w rest ih =>
    rw [List.mapM_cons, List.map_cons]
    cases hw : parse w with
    | none =>
      constructor
      · intro h
        cases h
      · intro h
        cases xs <;> cases h
    | some x =>
      rw [bind_eq_ok]
      constructor
      · rintro ⟨_, hx, h⟩
        cases hx
        obtain ⟨ys, hys, h⟩ := bind_eq_ok.mp h
        cases h
        rw [List.map_cons, ih.mp hys]
      · intro h
        cases xs with
        | nil => cases h
        | cons y ys =>
          rw [List.map_cons, List.cons.injEq, Option.some.injEq] at h
          obtain ⟨rfl, h⟩ := h
          exact ⟨x, rfl, bind_eq_ok.mpr ⟨ys, ih.mpr h, rfl⟩⟩

theorem length_items {value : List Char} {xs : List α} (h : items parse key value = .ok xs) :
    xs.length = (Text.words value).length := by
  have hlen := congrArg List.length (items_ok.mp h)
  rwa [List.length_map, List.length_map, eq_comm] at hlen

theorem countedItems_ok {value : String} {n : Nat} {xs : List α} :
    countedItems parse key value n = .ok xs ↔
      items parse key value.toList = .ok xs ∧ xs.length = n := by
  rw [countedItems]
  cases items parse key value.toList with
  | error fault => simp
  | ok ys =>
    simp only [counted]
    split_ifs with hlen
    · simp only [Except.ok.injEq]
      constructor
      · rintro rfl
        exact ⟨rfl, hlen⟩
      · exact And.left
    · simp only [Except.ok.injEq, false_iff, not_and]
      rintro rfl
      exact hlen

end Values

section Descriptor

theorem length_reals {h : Header} {keys : List String} {n : Nat} {default xs : List Float}
    (hd : default.length = n) (hr : h.reals keys n default = .ok xs) : xs.length = n := by
  rw [reals] at hr
  split at hr
  · cases hr
    exact hd
  · exact (countedItems_ok.mp hr).2

theorem length_direction {h : Header} {n : Nat} {m : List Float} (hr : h.direction n = .ok m) :
    m.length = n * n := by
  rw [direction] at hr
  split at hr
  · cases hr
    exact length_identity n
  · split at hr
    · cases hr
    · rename_i ht
      cases hr
      exact length_transpose (countedItems_ok.mp ht).2

theorem dimension_pos {h : Header} {n : Nat} (hr : h.dimension = .ok n) : 0 < n := by
  obtain ⟨value, _, hr⟩ := bind_eq_ok.mp hr
  cases hs : Decimal.size? value.toList with
  | none => simp [hs, throw, throwThe, MonadExceptOf.throw] at hr
  | some k =>
    cases k with
    | zero => simp [hs, throw, throwThe, MonadExceptOf.throw] at hr
    | succ k =>
      simp only [hs] at hr
      cases hr
      exact Nat.succ_pos k

theorem components_pos {h : Header} {n : Nat} (hr : h.components = .ok n) : 0 < n := by
  rw [components] at hr
  split at hr
  · cases hr
    exact Nat.one_pos
  · split at hr
    · cases hr
    · cases hr
    · rename_i hne _
      cases hr
      exact Nat.pos_of_ne_zero fun h0 => hne (h0 ▸ rfl)

/-- The descriptor that the fields hold, whatever they say that the object is. -/
def imageDescriptor (h : Header) : Except HeaderFault Descriptor := do
  let n ← h.dimension
  let size ← countedItems Decimal.size? "DimSize" (← h.required "DimSize") n
  let spacing ← h.reals ["ElementSpacing", "ElementSize"] n (List.replicate n 1.0)
  let origin ← h.reals ["Offset", "Origin", "Position"] n (List.replicate n 0.0)
  let direction ← h.direction n
  let elementType ← h.elementType
  let components ← h.components
  if fits components size elementType.size then
    pure ⟨n, size, spacing, origin, direction, elementType, components⟩
  else throw .tooLarge

theorem descriptor_eq (h : Header) :
    h.descriptor =
      match h.get? "ObjectType" with
      | some value => if value ≠ "Image" then throw (.otherObject value) else h.imageDescriptor
      | none => h.imageDescriptor := by
  rw [descriptor]
  cases h.get? "ObjectType" <;> rfl

/-- Every field of a descriptor is read, and the image is not too large. -/
theorem imageDescriptor_ok {h : Header} {d : Descriptor} :
    h.imageDescriptor = .ok d ↔
      h.dimension = .ok d.dimension ∧
      (∃ value, h.required "DimSize" = .ok value ∧
        countedItems Decimal.size? "DimSize" value d.dimension = .ok d.size) ∧
      h.reals ["ElementSpacing", "ElementSize"] d.dimension (List.replicate d.dimension 1.0) =
        .ok d.spacing ∧
      h.reals ["Offset", "Origin", "Position"] d.dimension (List.replicate d.dimension 0.0) =
        .ok d.origin ∧
      h.direction d.dimension = .ok d.direction ∧ h.elementType = .ok d.elementType ∧
      h.components = .ok d.components ∧ fits d.components d.size d.elementType.size = true := by
  rw [imageDescriptor]
  simp only [bind_eq_ok]
  constructor
  · rintro ⟨n, hn, value, hv, size, hsize, spacing, hspacing, origin, horigin, direction, hdirection,
      elementType, htype, components, hcomponents, hlast⟩
    split_ifs at hlast with hfits
    · cases hlast
      exact ⟨hn, ⟨value, hv, hsize⟩, hspacing, horigin, hdirection, htype, hcomponents, hfits⟩
  · rintro ⟨hn, ⟨value, hv, hsize⟩, hspacing, horigin, hdirection, htype, hcomponents, hfits⟩
    refine ⟨_, hn, value, hv, _, hsize, _, hspacing, _, horigin, _, hdirection, _, htype, _,
      hcomponents, ?_⟩
    exact if_pos hfits

theorem descriptor_ok {h : Header} {d : Descriptor} :
    h.descriptor = .ok d ↔
      (∀ value, h.get? "ObjectType" = some value → value = "Image") ∧ h.imageDescriptor = .ok d := by
  rw [descriptor_eq]
  cases h.get? "ObjectType" with
  | none => simp
  | some value =>
    simp only
    split_ifs with hne
    · constructor
      · intro hr
        cases hr
      · rintro ⟨hv, _⟩
        exact absurd (hv value rfl) hne
    · constructor
      · intro hr
        refine ⟨?_, hr⟩
        rintro _ ⟨⟩
        exact not_not.mp hne
      · exact And.right

theorem product?_eq_some {a b c : Nat} :
    product? a b = some c ↔ a * b = c ∧ a * b < Decimal.sizeLimit := by
  rw [product?]
  split_ifs with hlt
  · simp [hlt]
  · simp [hlt]

theorem fits_nil {c width : Nat} : fits c [] width = true ↔ c * width < Decimal.sizeLimit := by
  simp [fits, Option.isSome_iff_exists, product?_eq_some]

theorem fits_cons {c n width : Nat} {rest : List Nat} :
    fits c (n :: rest) width = true ↔
      c * n < Decimal.sizeLimit ∧ fits (c * n) rest width = true := by
  rw [fits, List.foldlM_cons]
  by_cases hlt : c * n < Decimal.sizeLimit
  · have hp : product? c n = some (c * n) := product?_eq_some.mpr ⟨rfl, hlt⟩
    rw [hp]
    exact ⟨fun h => ⟨hlt, h⟩, And.right⟩
  · have hp : product? c n = none := if_neg hlt
    rw [hp]
    constructor
    · intro h
      cases h
    · rintro ⟨h, _⟩
      exact absurd h hlt

/-- The number of bytes of an image that is not too large is a size. -/
theorem bytes_lt_of_fits {c width : Nat} {sizes : List Nat} (h : fits c sizes width = true) :
    c * sizes.prod * width < Decimal.sizeLimit := by
  induction sizes generalizing c with
  | nil => simpa using fits_nil.mp h
  | cons n rest ih =>
    have hrest := ih (fits_cons.mp h).2
    rwa [List.prod_cons, ← Nat.mul_assoc]

end Descriptor

end Header

/-- A descriptor with as many values of each kind as its dimension wants. -/
structure Descriptor.Shaped (d : Descriptor) : Prop where
  dimension_pos : 1 ≤ d.dimension
  size_length : d.size.length = d.dimension
  spacing_length : d.spacing.length = d.dimension
  origin_length : d.origin.length = d.dimension
  direction_length : d.direction.length = d.dimension * d.dimension
  components_pos : 1 ≤ d.components

/-- The descriptor of a header has a shape. -/
theorem Header.descriptor_shaped {h : Header} {d : Descriptor} (hr : h.descriptor = .ok d) :
    d.Shaped := by
  obtain ⟨hn, ⟨value, _, hsize⟩, hspacing, horigin, hdirection, _, hcomponents, _⟩ :=
    imageDescriptor_ok.mp (descriptor_ok.mp hr).2
  exact {
    dimension_pos := dimension_pos hn
    size_length := (countedItems_ok.mp hsize).2
    spacing_length := length_reals List.length_replicate hspacing
    origin_length := length_reals List.length_replicate horigin
    direction_length := length_direction hdirection
    components_pos := components_pos hcomponents }

theorem Descriptor.pixelCount_eq (d : Descriptor) : d.pixelCount = d.size.prod :=
  List.prod_eq_foldl.symm

theorem Descriptor.sampleCount_eq (d : Descriptor) : d.sampleCount = d.size.prod * d.components := by
  rw [sampleCount, pixelCount_eq]

end Assay.Image
