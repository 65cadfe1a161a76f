import Assay.Proofs.Value.Record
import Assay.Proofs.Value.Typed
import Assay.Scenario.Codec

namespace Assay.Artifact

open Value

variable {a : Artifact} {entries entries' front back : List (Value × Value)} {v : Value}

section Kinds

def kind : Artifact → String
  | exactText _ _ => "exact_text"
  | exactFile _ _ => "exact_file"
  | image _ _ _ => "image"

def fieldNames : Artifact → List String
  | exactText _ _ => ["produced", "text"]
  | exactFile _ _ => ["produced", "expected"]
  | image _ _ _ => ["produced", "expected", "tolerance"]

/-- The fields of some names are those of an artifact. -/
def IsReadFrom (a : Artifact) (fields : String → Option Value) : Prop :=
  (fields "produced").bind text? = some a.produced ∧
    match a with
    | exactText _ content => (fields "text").bind text? = some content
    | exactFile _ expected => (fields "expected").bind text? = some expected
    | image _ expected tolerance => (fields "expected").bind text? = some expected ∧
        ((fields "tolerance").map optionalNumber?).getD (some none) = some tolerance

theorem ofKind?_eq_some {kind : String} : ofKind? kind v = some a ↔
    kind = a.kind ∧ ∃ fields, v.record? a.fieldNames = some fields ∧ a.IsReadFrom (fields.lookup ·) := by
  unfold ofKind?
  split_ifs with htext hfile himage
  · cases a <;>
      simp [htext, Artifact.kind, fieldNames, IsReadFrom, Artifact.produced, required,
        Option.bind_eq_some_iff]
  · cases a <;>
      simp [hfile, Artifact.kind, fieldNames, IsReadFrom, Artifact.produced, required,
        Option.bind_eq_some_iff]
  · cases a <;>
      simp [himage, Artifact.kind, fieldNames, IsReadFrom, Artifact.produced, required, optional_eq,
        Option.bind_eq_some_iff]
  · cases a <;> simp [htext, hfile, himage, Artifact.kind]

end Kinds

section Tables

/-- The entries of a table have one kind, that of an artifact, and a typed rest. -/
structure Gives (a : Artifact) (entries rest : List (Value × Value)) : Prop where
  one : ∃ entry, entries.filter isKind = [entry] ∧ entry.2.text? = some a.kind
  typed : typedEntries (entries.filter fun entry => !isKind entry) = some rest

/-- Typed entries are the fields of an artifact. -/
def IsRecord (a : Artifact) (rest : List (Value × Value)) : Prop :=
  ∃ fields, record? a.fieldNames (.table rest) = some fields ∧ a.IsReadFrom (fields.lookup ·)

/-- A table is an artifact if it has one kind, and its typed rest is a record of the fields of that kind. -/
theorem decode_table : decode (.table entries) = some a ↔ ∃ rest, a.Gives entries rest ∧ a.IsRecord rest := by
  unfold decode
  simp only
  split
  · rename_i key kind hone
    simp only [Option.bind_eq_bind, Option.bind_eq_some_iff, ofKind?_eq_some]
    constructor
    · rintro ⟨_, hkind, rest, hrest, rfl, hfields⟩
      exact ⟨rest, ⟨⟨_, hone, hkind⟩, hrest⟩, hfields⟩
    · rintro ⟨rest, ⟨⟨entry, hone', hkind⟩, hrest⟩, hfields⟩
      rw [hone] at hone'
      cases hone'
      exact ⟨_, hkind, rest, hrest, rfl, hfields⟩
  · rename_i hnone
    refine iff_of_false nofun ?_
    rintro ⟨rest, ⟨⟨entry, hone, -⟩, -⟩, -⟩
    exact hnone entry.1 entry.2 hone

variable {rest : List (Value × Value)} {entry : Value × Value}

theorem Gives.perm (h : a.Gives entries rest) (perm : entries.Perm entries') :
    ∃ rest', a.Gives entries' rest' ∧ rest.Perm rest' := by
  obtain ⟨⟨entry, hone, hkind⟩, htyped⟩ := h
  obtain ⟨rest', htyped', hperm⟩ := typedEntries_perm (perm.filter fun entry => !isKind entry) htyped
  refine ⟨rest', ⟨⟨entry, ?_, hkind⟩, htyped'⟩, hperm⟩
  rw [← List.perm_singleton, ← hone]
  exact perm.symm.filter _

/-- An entry that is not the kind is put among the others. -/
theorem Gives.insert {key w : Value} (h : a.Gives (front ++ back) rest) (hother : isKind entry = false)
    (hkey : entry.1.typed = some key) (hw : entry.2.typed = some w) :
    ∃ before after, rest = before ++ after ∧
      a.Gives (front ++ entry :: back) (before ++ (key, w) :: after) := by
  obtain ⟨⟨kind, hone, hkind⟩, htyped⟩ := h
  rw [List.filter_append] at hone htyped
  obtain ⟨before, after, hbefore, hafter, rfl⟩ := typedEntries_append.mp htyped
  refine ⟨before, after, rfl, ⟨kind, by simp [hother, hone], hkind⟩, ?_⟩
  rw [List.filter_append, List.filter_cons_of_pos (by simp [hother])]
  exact typedEntries_around.mpr ⟨before, key, w, after, hbefore, hkey, hw, hafter, rfl⟩

/-- An entry that is not the kind is taken away. -/
theorem Gives.remove (h : a.Gives (front ++ entry :: back) rest) (hother : isKind entry = false) :
    ∃ before key w after, entry.1.typed = some key ∧ rest = before ++ (key, w) :: after ∧
      a.Gives (front ++ back) (before ++ after) := by
  obtain ⟨⟨kind, hone, hkind⟩, htyped⟩ := h
  rw [List.filter_append, List.filter_cons_of_pos (by simp [hother])] at htyped
  obtain ⟨before, key, w, after, hbefore, hkey, -, hafter, rfl⟩ := typedEntries_around.mp htyped
  refine ⟨before, key, w, after, hkey, rfl, ⟨kind, by simpa [hother] using hone, hkind⟩, ?_⟩
  rw [List.filter_append]
  exact typedEntries_append.mpr ⟨before, after, hbefore, hafter, rfl⟩

end Tables

section Changes

variable {key w : Value} {meant : Option String}

/-- What a key that is not that of the kind means when it is typed: a field, or no field at all. -/
structure IsKey (a : Artifact) (key : Value) (meant : Option String) : Prop where
  other : key.text? ≠ some "kind"
  typed : ∃ w, key.typed = some w ∧ fieldName? a.fieldNames w = some meant

theorem IsKey.not_isKind (h : a.IsKey key meant) (v : Value) : isKind (key, v) = false := by
  have hother := h.other
  unfold isKind
  split
  · rename_i name hname
    simp_all
  · rfl

theorem decode_perm (h : decode (.table entries) = some a) (perm : entries.Perm entries') :
    decode (.table entries') = some a := by
  obtain ⟨rest, hgives, fields, hfields, hread⟩ := decode_table.mp h
  obtain ⟨rest', hgives', hperm⟩ := hgives.perm perm
  obtain ⟨fields', hfields', hsame⟩ := record?_perm hfields hperm
  exact decode_table.mpr ⟨rest', hgives', fields', hfields', by simpa only [hsame] using hread⟩

theorem isRecord_other {before after : List (Value × Value)} (h : fieldName? a.fieldNames key = some none) :
    a.IsRecord (before ++ (key, w) :: after) ↔ a.IsRecord (before ++ after) := by
  rw [IsRecord, record?_other h, IsRecord]

/-- An entry that means no field may be put among the others if its value can be typed. -/
theorem decode_more (hkey : a.IsKey key none) (hv : v.typed = some w)
    (h : decode (.table (front ++ back)) = some a) :
    decode (.table (front ++ (key, v) :: back)) = some a := by
  obtain ⟨rest, hgives, hrecord⟩ := decode_table.mp h
  obtain ⟨key', htyped, hmeant⟩ := hkey.typed
  obtain ⟨before, after, rfl, hgives'⟩ := hgives.insert (hkey.not_isKind v) htyped hv
  exact decode_table.mpr ⟨_, hgives', (isRecord_other hmeant).mpr hrecord⟩

theorem decode_less (hkey : a.IsKey key none) (h : decode (.table (front ++ (key, v) :: back)) = some a) :
    decode (.table (front ++ back)) = some a := by
  obtain ⟨rest, hgives, hrecord⟩ := decode_table.mp h
  obtain ⟨key', htyped, hmeant⟩ := hkey.typed
  obtain ⟨before, _, w, after, htyped', rfl, hgives'⟩ := hgives.remove (hkey.not_isKind v)
  obtain rfl := Option.some.inj (htyped.symm.trans htyped')
  exact decode_table.mpr ⟨_, hgives', (isRecord_other hmeant).mp hrecord⟩

/-- A tolerance that is none may be left out. -/
theorem decode_left_out {produced expected : String}
    (hkey : (image produced expected none).IsKey key (some "tolerance"))
    (h : decode (.table (front ++ (key, v) :: back)) = some (.image produced expected none)) :
    decode (.table (front ++ back)) = some (.image produced expected none) := by
  obtain ⟨rest, hgives, fields, hfields, hproduced, hexpected, -⟩ := decode_table.mp h
  obtain ⟨key', htyped, hmeant⟩ := hkey.typed
  obtain ⟨before, _, w, after, htyped', rfl, hgives'⟩ := hgives.remove (hkey.not_isKind v)
  obtain rfl := Option.some.inj (htyped.symm.trans htyped')
  obtain ⟨fields', hfields', hnone, hothers⟩ := record?_left_out hmeant hfields
  refine decode_table.mpr ⟨_, hgives', fields', hfields', ?_, ?_, ?_⟩
  · simpa only [hothers "produced" (by simp)] using hproduced
  · simpa only [hothers "expected" (by simp)] using hexpected
  · simp only [hnone]
    rfl

/-- A change of how an artifact is given. -/
inductive Changed (a : Artifact) : Value → Value → Prop where
  | order {entries entries' : List (Value × Value)} (perm : entries.Perm entries') :
      Changed a (.table entries) (.table entries')
  | more (front back : List (Value × Value)) (key v : Value) {w : Value} (unknown : a.IsKey key none)
      (typed : v.typed = some w) : Changed a (.table (front ++ back)) (.table (front ++ (key, v) :: back))
  | less (front back : List (Value × Value)) {key v : Value} (unknown : a.IsKey key none) :
      Changed a (.table (front ++ (key, v) :: back)) (.table (front ++ back))
  | usual (front back : List (Value × Value)) {key v : Value} {produced expected : String}
      (own : a = .image produced expected none) (means : a.IsKey key (some "tolerance")) :
      Changed a (.table (front ++ (key, v) :: back)) (.table (front ++ back))

theorem Changed.decode {v v' : Value} (h : a.Changed v v') (hd : decode v = some a) :
    Artifact.decode v' = some a := by
  cases h with
  | order perm => exact decode_perm hd perm
  | more front back key v unknown typed => exact decode_more unknown typed hd
  | less front back unknown => exact decode_less unknown hd
  | usual front back own means =>
    subst own
    exact decode_left_out means hd

end Changes

theorem decode_encode (a : Artifact) : decode a.encode = some a := by
  cases a with
  | exactText produced content => rfl
  | exactFile produced expected => rfl
  | image produced expected tolerance => cases tolerance <;> rfl

end Assay.Artifact
