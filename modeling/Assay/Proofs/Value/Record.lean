import Assay.Proofs.Pairs
import Assay.Value.Record

namespace Assay.Value

variable {names : List String} {entries entries' : List (Value × Value)} {fields : Fields} {name : String}

theorem optional_eq {α : Type} (default : α) (read : Value → Option α) :
    Value.optional fields name default read = ((fields.lookup name).map read).getD (some default) := by
  rw [Value.optional]
  cases fields.lookup name <;> rfl

/-- The field of an entry whose key means one. -/
def namedField? (names : List String) (entry : Value × Value) : Option (String × Value) :=
  (fieldName? names entry.1).join.map fun name => (name, entry.2)

def given (names : List String) (entries : List (Value × Value)) : Fields :=
  entries.filterMap (namedField? names)

theorem given_cons (entry : Value × Value) (rest : List (Value × Value)) :
    given names (entry :: rest) = (namedField? names entry).toList ++ given names rest := by
  rw [given, List.filterMap_cons, given]
  cases namedField? names entry <;> rfl

/-- Entries are taken one by one if no key is refused and no field is given twice. -/
theorem foldlM_addField {all : Fields} (hnodup : (fields.map Prod.fst).Nodup) :
    entries.foldlM (addField names) fields = some all ↔
      (∀ entry ∈ entries, fieldName? names entry.1 ≠ none) ∧
        ((fields ++ given names entries).map Prod.fst).Nodup ∧ all = fields ++ given names entries := by
  induction entries generalizing fields with
  | nil => simp [given, hnodup, eq_comm]
  | cons entry rest ih =>
    rw [List.foldlM_cons, addField, given_cons, List.forall_mem_cons, namedField?]
    cases hname : fieldName? names entry.1 with
    | none => simp
    | some meant =>
      cases meant with
      | none => simpa using ih hnodup
      | some name =>
        by_cases htwice : name ∈ fields.map Prod.fst
        · have hrefused : (fields.lookup name).isSome = true := isSome_lookup.mpr htwice
          refine iff_of_false (by simp [hrefused]) ?_
          rintro ⟨-, hall, -⟩
          rw [List.map_append, List.nodup_append] at hall
          exact hall.2.2 name htwice name (by simp) rfl
        · have hfree : (fields.lookup name).isSome = false := by
            rw [← Bool.not_eq_true, isSome_lookup]
            exact htwice
          have hnodup' : ((fields ++ [(name, entry.2)]).map Prod.fst).Nodup := by
            rw [List.map_append, List.nodup_append]
            refine ⟨hnodup, by simp, ?_⟩
            intro other hother same hm he
            rw [List.map_singleton, List.mem_singleton] at hm
            rw [he, hm] at hother
            exact htwice hother
          simpa [hfree] using ih hnodup'

/-- A table is a record if none of its keys is refused and none of its fields is given twice. -/
theorem record?_table : record? names (.table entries) = some fields ↔
    (∀ entry ∈ entries, fieldName? names entry.1 ≠ none) ∧ (fields.map Prod.fst).Nodup ∧
      fields = given names entries := by
  rw [record?, foldlM_addField (by simp), List.nil_append]
  constructor
  · rintro ⟨hkeys, hnodup, rfl⟩
    exact ⟨hkeys, hnodup, rfl⟩
  · rintro ⟨hkeys, hnodup, rfl⟩
    exact ⟨hkeys, hnodup, rfl⟩

theorem record?_perm (h : record? names (.table entries) = some fields) (perm : entries.Perm entries') :
    ∃ fields', record? names (.table entries') = some fields' ∧
      ∀ name, fields'.lookup name = fields.lookup name := by
  obtain ⟨hkeys, hnodup, rfl⟩ := record?_table.mp h
  have hperm : (given names entries).Perm (given names entries') := perm.filterMap _
  refine ⟨_, record?_table.mpr ⟨?_, (hperm.map Prod.fst).nodup_iff.mp hnodup, rfl⟩, ?_⟩
  · exact fun entry hm => hkeys entry (perm.mem_iff.mpr hm)
  · exact fun name => (lookup_perm hperm hnodup name).symm

/-- An entry of a name that is no field makes no difference. -/
theorem record?_other {front back : List (Value × Value)} {entry : Value × Value}
    (h : fieldName? names entry.1 = some none) :
    record? names (.table (front ++ entry :: back)) = record? names (.table (front ++ back)) := by
  apply Option.ext
  intro fields
  have hgiven : given names (front ++ entry :: back) = given names (front ++ back) := by
    simp [given, namedField?, h]
  rw [record?_table, record?_table, hgiven]
  simp [or_imp, forall_and, h]

/-- Where no field is given twice, one that stands among others is found under its name and nowhere else. -/
theorem lookup_field {front back : Fields} {v : Value}
    (h : ((front ++ (name, v) :: back).map Prod.fst).Nodup) :
    (front ++ (name, v) :: back).lookup name = some v ∧ (front ++ back).lookup name = none ∧
      ∀ other ≠ name, (front ++ (name, v) :: back).lookup other = (front ++ back).lookup other := by
  refine ⟨lookup_of_mem h (by simp), ?_, fun other hne => lookup_append_cons hne⟩
  rw [← Option.not_isSome_iff_eq_none, isSome_lookup]
  rw [List.map_append, List.map_cons, List.nodup_middle, List.nodup_cons, ← List.map_append] at h
  exact h.1

theorem given_append_cons {key v : Value} (h : fieldName? names key = some (some name))
    (front back : List (Value × Value)) :
    given names (front ++ (key, v) :: back) = given names front ++ (name, v) :: given names back := by
  simp [given, namedField?, h]

/-- A field that is left out is found no more, and the others are found as they were. -/
theorem record?_left_out {front back : List (Value × Value)} {key v : Value}
    (hkey : fieldName? names key = some (some name))
    (h : record? names (.table (front ++ (key, v) :: back)) = some fields) :
    ∃ fields', record? names (.table (front ++ back)) = some fields' ∧ fields'.lookup name = none ∧
      ∀ other ≠ name, fields'.lookup other = fields.lookup other := by
  obtain ⟨hkeys, hnodup, rfl⟩ := record?_table.mp h
  rw [given_append_cons hkey] at hnodup ⊢
  obtain ⟨-, hnone, hothers⟩ := lookup_field hnodup
  have hgiven : given names (front ++ back) = given names front ++ given names back :=
    List.filterMap_append
  refine ⟨given names (front ++ back), record?_table.mpr ⟨?_, ?_, rfl⟩, ?_, ?_⟩
  · intro entry hm
    apply hkeys
    rw [List.mem_append] at hm
    rw [List.mem_append, List.mem_cons]
    exact hm.imp id .inr
  · rw [hgiven]
    exact hnodup.sublist (((List.sublist_cons_self _ _).append_left _).map Prod.fst)
  · rwa [hgiven]
  · intro other hne
    rw [hgiven, hothers other hne]

/-- A record with a place for the value of a field, in a table or in a list. -/
inductive Place (names : List String) (name : String) : (Value → Value) → Prop where
  | entry (front back : List (Value × Value)) (key : Value) (means : fieldName? names key = some (some name)) :
      Place names name fun v => .table (front ++ (key, v) :: back)
  | item (front back : List Value) (means : names[front.length]? = some name) :
      Place names name fun v => .list (front ++ v :: back)

theorem nodup_zip (h : names.Nodup) (items : List Value) : ((names.zip items).map Prod.fst).Nodup := by
  rw [List.zip_eq_zip_take_min, List.map_fst_zip (by simp)]
  exact h.sublist (List.take_sublist _ _)

/-- The fields of such a record, around the one that has the place. -/
theorem Place.read {place : Value → Value} {v : Value} (hplace : Place names name place)
    (hnames : names.Nodup) (h : record? names (place v) = some fields) :
    ∃ front back, fields = front ++ (name, v) :: back ∧
      ∀ v', ((front ++ (name, v') :: back).map Prod.fst).Nodup ∧
        record? names (place v') = some (front ++ (name, v') :: back) := by
  cases hplace with
  | entry front back key means =>
    obtain ⟨hkeys, hnodup, rfl⟩ := record?_table.mp h
    rw [given_append_cons means] at hnodup
    refine ⟨given names front, given names back, given_append_cons means front back, fun v' => ?_⟩
    have hnodup' : ((given names front ++ (name, v') :: given names back).map Prod.fst).Nodup := by
      simpa using hnodup
    refine ⟨hnodup', record?_table.mpr ⟨?_, hnodup', (given_append_cons means front back).symm⟩⟩
    simpa [or_imp, forall_and, means] using hkeys
  | item front back means =>
    obtain ⟨hlt, hname⟩ := List.getElem?_eq_some_iff.mp means
    have hsplit : names = names.take front.length ++ name :: names.drop (front.length + 1) := by
      rw [← hname, ← List.drop_eq_getElem_cons hlt, List.take_append_drop]
    have hzip : ∀ v', names.zip (front ++ v' :: back) =
        (names.take front.length).zip front ++ (name, v') :: (names.drop (front.length + 1)).zip back := by
      intro v'
      conv_lhs => rw [hsplit]
      rw [List.zip_append (by simp; omega), List.zip_cons_cons]
    have hshort : (front ++ v :: back).length ≤ names.length := by
      by_contra hlong
      simp only [record?, hlong, if_false] at h
      cases h
    have hread : ∀ v', record? names (.list (front ++ v' :: back)) =
        some (names.zip (front ++ v' :: back)) := by
      intro v'
      rw [record?, if_pos (by simpa using hshort)]
    have hfields := (hread v).symm.trans h
    refine ⟨_, _, (Option.some.inj hfields).symm.trans (hzip v), fun v' => ⟨?_, ?_⟩⟩
    · rw [← hzip v']
      exact nodup_zip hnames _
    · rw [hread v', hzip v']

theorem record?_place {place : Value → Value} {v : Value} (hplace : Place names name place)
    (hnames : names.Nodup) (h : record? names (place v) = some fields) (v' : Value) :
    fields.lookup name = some v ∧ ∃ fields', record? names (place v') = some fields' ∧
      fields'.lookup name = some v' ∧ ∀ other ≠ name, fields'.lookup other = fields.lookup other := by
  obtain ⟨front, back, rfl, hread⟩ := hplace.read hnames h
  obtain ⟨hgiven, -, hothers⟩ := lookup_field (hread v).1
  obtain ⟨hgiven', -, hothers'⟩ := lookup_field (hread v').1
  refine ⟨hgiven, _, (hread v').2, hgiven', fun other hne => ?_⟩
  rw [hothers' other hne, hothers other hne]

end Assay.Value
