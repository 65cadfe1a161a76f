import Assay.Proofs.Image.Header

namespace Assay.Image

namespace Header

section Lines

/-- A line that stands in front of the one of the data file. It may be blank or no field at all. -/
structure IsFrontLine (line : Bytes) : Prop where
  whole : lineFeed ∉ line
  other : ∀ value, firstField? line ≠ .ok (some (dataFileKey, value))

def complete (lines : List Bytes) : Bytes :=
  lines.flatMap fun line => line ++ [lineFeed]

theorem complete_append (lines others : List Bytes) :
    complete (lines ++ others) = complete lines ++ complete others :=
  List.flatMap_append

/-- The fields of some lines, or what is wrong with the first that has none and is not blank. -/
def fieldsOf : List Bytes → Except HeaderFault (List (String × String))
  | [] => .ok []
  | line :: rest => do
    let first ← firstField? line
    let others ← fieldsOf rest
    pure (first.toList ++ others)

theorem firstField?_line {line : Bytes} (h : lineFeed ∉ line) (rest : Bytes) :
    firstField? (line ++ lineFeed :: rest) = firstField? line := by
  rw [firstField?, takeWhile_line h, firstField?, takeWhile_last h]

/-- The reading of a header goes on behind the lines in front with the fields that they give. -/
theorem readFrom_complete {lines : List Bytes} (h : ∀ line ∈ lines, IsFrontLine line)
    (fields : List (String × String)) (rest : Bytes) :
    readFrom fields (complete lines ++ rest) =
      fieldsOf lines >>= fun read => readFrom (read.reverse ++ fields) rest := by
  induction lines generalizing fields with
  | nil => rfl
  | cons line lines ih =>
    have hline := h line List.mem_cons_self
    have hrest := ih fun other hm => h other (List.mem_cons_of_mem line hm)
    have hsplit : complete (line :: lines) ++ rest = line ++ lineFeed :: (complete lines ++ rest) := by
      simp [complete]
    rw [hsplit, readFrom_step fields (by simp), firstField?_line hline.whole, afterLine_line hline.whole,
      fieldsOf]
    -- the fields of this line stand in front of those read before, and the others go on from there
    cases hf : firstField? line with
    | error fault => rfl
    | ok first =>
      cases first with
      | none =>
        dsimp only
        rw [hrest]
        cases fieldsOf lines <;> rfl
      | some field =>
        have hne : field.1 ≠ dataFileKey := by
          intro he
          exact hline.other field.2 (by rw [hf, ← he])
        dsimp only
        rw [if_neg hne, hrest]
        cases fieldsOf lines with
        | error fault => rfl
        | ok read =>
          change readFrom (read.reverse ++ field :: fields) rest =
            readFrom ((field :: read).reverse ++ fields) rest
          rw [List.reverse_cons, List.append_assoc, List.singleton_append]

theorem readFrom_last {line : Bytes} {value : String} (hw : lineFeed ∉ line)
    (hg : firstField? line = .ok (some (dataFileKey, value))) (fields : List (String × String))
    (rest : Bytes) :
    readFrom fields (line ++ lineFeed :: rest) = .ok ⟨(dataFileKey, value) :: fields, rest⟩ := by
  rw [readFrom_step fields (by simp), firstField?_line hw, hg, afterLine_line hw]
  exact if_pos rfl

/-- The file may end with the line of the data file. -/
theorem readFrom_end {line : Bytes} {value : String} (hw : lineFeed ∉ line)
    (hg : firstField? line = .ok (some (dataFileKey, value))) (fields : List (String × String)) :
    readFrom fields line = .ok ⟨(dataFileKey, value) :: fields, []⟩ := by
  have hne : line ≠ [] := by
    rintro rfl
    cases hg
  rw [readFrom_step fields hne, hg, afterLine_last hw]
  exact if_pos rfl

/-- A line that gives a field is put among some lines, none of which gives its key again. -/
inductive Inserted (field : String × String) : List Bytes → List Bytes → Prop
  | here {line : Bytes} {after : List Bytes} (whole : lineFeed ∉ line)
      (gives : firstField? line = .ok (some field))
      (last : ∀ other ∈ after, ∀ value, firstField? other ≠ .ok (some (field.1, value))) :
      Inserted field after (line :: after)
  | later {line : Bytes} {lines more : List Bytes} (behind : Inserted field lines more) :
      Inserted field (line :: lines) (line :: more)

theorem isFrontLine_of_field {line : Bytes} {field : String × String} (hw : lineFeed ∉ line)
    (hg : firstField? line = .ok (some field)) (hkey : field.1 ≠ dataFileKey) : IsFrontLine line := by
  refine ⟨hw, fun value he => hkey ?_⟩
  rw [hg, Except.ok.injEq, Option.some.injEq] at he
  rw [he]

theorem mem_fieldsOf {lines : List Bytes} {fields : List (String × String)} {field : String × String}
    (h : fieldsOf lines = .ok fields) (hm : field ∈ fields) :
    ∃ line ∈ lines, firstField? line = .ok (some field) := by
  induction lines generalizing fields with
  | nil =>
    cases h
    cases hm
  | cons line rest ih =>
    obtain ⟨first, hfirst, h⟩ := bind_eq_ok.mp h
    obtain ⟨others, hothers, h⟩ := bind_eq_ok.mp h
    cases h
    rcases List.mem_append.mp hm with hm | hm
    · rw [Option.mem_toList] at hm
      exact ⟨line, List.mem_cons_self, by rw [hfirst, hm]⟩
    · obtain ⟨other, hother, hgives⟩ := ih hothers hm
      exact ⟨other, List.mem_cons_of_mem line hother, hgives⟩

theorem Inserted.fieldsOf {field : String × String} {lines more : List Bytes}
    {fields : List (String × String)} (hi : Inserted field lines more)
    (h : fieldsOf lines = .ok fields) :
    ∃ front back, fields = front ++ back ∧ Header.fieldsOf more = .ok (front ++ field :: back) ∧
      ∀ other ∈ back, other.1 ≠ field.1 := by
  induction hi generalizing fields with
  | here whole gives last =>
    refine ⟨[], fields, rfl, bind_eq_ok.mpr ⟨_, gives, bind_eq_ok.mpr ⟨_, h, rfl⟩⟩, ?_⟩
    intro other hm he
    obtain ⟨line, hline, hgives⟩ := mem_fieldsOf h hm
    exact last line hline other.2 (by rw [hgives, ← he])
  | later behind ih =>
    obtain ⟨first, hfirst, h⟩ := bind_eq_ok.mp h
    obtain ⟨others, hothers, h⟩ := bind_eq_ok.mp h
    cases h
    obtain ⟨front, back, rfl, hmore, hback⟩ := ih hothers
    refine ⟨first.toList ++ front, back, (List.append_assoc _ _ _).symm,
      bind_eq_ok.mpr ⟨_, hfirst, bind_eq_ok.mpr ⟨_, hmore, ?_⟩⟩, hback⟩
    rw [List.append_assoc]
    rfl

theorem Inserted.isFrontLine {field : String × String} {lines more : List Bytes}
    (hi : Inserted field lines more) (hkey : field.1 ≠ dataFileKey)
    (h : ∀ line ∈ lines, IsFrontLine line) : ∀ line ∈ more, IsFrontLine line := by
  induction hi with
  | here whole gives last =>
    exact List.forall_mem_cons.mpr ⟨isFrontLine_of_field whole gives hkey, h⟩
  | later behind ih =>
    rw [List.forall_mem_cons] at h ⊢
    exact ⟨h.1, ih h.2⟩

end Lines

end Header

end Assay.Image
