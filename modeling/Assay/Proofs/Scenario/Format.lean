import Mathlib.Logic.Relation
import Assay.Proofs.Scenario.Artifacts
import Assay.Proofs.Scenario.Expectations

namespace Assay

open Value

namespace Scenario

variable {s : Scenario} {v v' : Value} {entries entries' front back : List (Value × Value)} {key : Value}

section Fields

/-- A field, given or left out, is read as what a scenario has. -/
def Reads (s : Scenario) (name : String) (given : Option Value) : Prop :=
  match name with
  | "name" => given.bind text? = some s.name
  | "description" => (given.map optionalText?).getD (some none) = some s.description
  | "args" => (given.map texts?).getD (some []) = some s.args
  | "output_subdirs" => (given.map texts?).getD (some []) = some s.outputSubdirs
  | "exit" => given.bind ExitClass.decode = some s.exit
  | "stdout" => (given.map StreamExpectation.decode).getD (some .any) = some s.stdout
  | "stderr" => (given.map StreamExpectation.decode).getD (some .any) = some s.stderr
  | "artifacts" => (given.map artifacts?).getD (some []) = some s.artifacts
  | _ => True

/-- A tree is read as a scenario if it is a record whose fields are all read as those of the scenario. -/
theorem decode_eq_some : decode v = some s ↔
    ∃ fields, v.record? fieldNames = some fields ∧ ∀ name ∈ fieldNames, s.Reads name (fields.lookup name) := by
  obtain ⟨name, description, args, outputSubdirs, exit, stdout, stderr, artifacts⟩ := s
  unfold decode
  simp only [Option.bind_eq_bind, Option.bind_eq_some_iff, optional_eq, required]
  refine exists_congr fun fields => and_congr_right fun _ => ?_
  simp [fieldNames, Reads, Option.bind_eq_some_iff]

end Fields

section Changes

variable {name : String} {place : Value → Value}

/-- A scenario has the default of a field that may be left out. -/
inductive IsUsual (s : Scenario) : String → Prop where
  | description (none : s.description = none) : IsUsual s "description"
  | args (none : s.args = []) : IsUsual s "args"
  | outputSubdirs (none : s.outputSubdirs = []) : IsUsual s "output_subdirs"
  | stdout (any : s.stdout = .any) : IsUsual s "stdout"
  | stderr (any : s.stderr = .any) : IsUsual s "stderr"
  | artifacts (none : s.artifacts = []) : IsUsual s "artifacts"

theorem IsUsual.reads_none (h : s.IsUsual name) : s.Reads name none := by
  cases h <;> simp_all [Reads]

theorem decode_perm (h : decode (.table entries) = some s) (perm : entries.Perm entries') :
    decode (.table entries') = some s := by
  obtain ⟨fields, hfields, hread⟩ := decode_eq_some.mp h
  obtain ⟨fields', hfields', hsame⟩ := record?_perm hfields perm
  refine decode_eq_some.mpr ⟨fields', hfields', fun name hm => ?_⟩
  rw [hsame]
  exact hread name hm

/-- An entry that means no field makes no difference. -/
theorem decode_other (h : fieldName? fieldNames key = some none) :
    decode (.table (front ++ (key, v) :: back)) = decode (.table (front ++ back)) := by
  rw [decode, decode, record?_other h]

theorem decode_left_out (hkey : fieldName? fieldNames key = some (some name)) (hown : s.IsUsual name)
    (h : decode (.table (front ++ (key, v) :: back)) = some s) :
    decode (.table (front ++ back)) = some s := by
  obtain ⟨fields, hfields, hread⟩ := decode_eq_some.mp h
  obtain ⟨fields', hfields', hnone, hothers⟩ := record?_left_out hkey hfields
  refine decode_eq_some.mpr ⟨fields', hfields', fun other hm => ?_⟩
  by_cases hsame : other = name
  · rw [hsame, hnone]
    exact hown.reads_none
  · rw [hothers other hsame]
    exact hread other hm

/-- In the place of a field, whatever is read as the same may stand. -/
theorem decode_place (hplace : Place fieldNames name place) (h : decode (place v) = some s)
    (hown : s.Reads name (some v) → s.Reads name (some v')) : decode (place v') = some s := by
  obtain ⟨fields, hfields, hread⟩ := decode_eq_some.mp h
  obtain ⟨hgiven, fields', hfields', hgiven', hothers⟩ := record?_place hplace (by decide) hfields v'
  refine decode_eq_some.mpr ⟨fields', hfields', fun other hm => ?_⟩
  have hother := hread other hm
  by_cases hsame : other = name
  · subst hsame
    rw [hgiven] at hother
    rw [hgiven']
    exact hown hother
  · rwa [hothers other hsame]

theorem artifacts?_around {before after : List Value} {a : Artifact} (h : Artifact.decode v = some a)
    (h' : Artifact.decode v' = some a) :
    artifacts? (.list (before ++ v' :: after)) = artifacts? (.list (before ++ v :: after)) := by
  simp [artifacts?, items?, List.mapM_append, List.mapM_cons, h, h']

/-- A change of how a scenario is given: in the order of its entries, in entries of unknown names, in a field
that is left out, or in one of its expectations or artifacts. -/
inductive Changed (s : Scenario) : Value → Value → Prop where
  | order {entries entries' : List (Value × Value)} (perm : entries.Perm entries') :
      Changed s (.table entries) (.table entries')
  | more (front back : List (Value × Value)) (key v : Value) (unknown : fieldName? fieldNames key = some none) :
      Changed s (.table (front ++ back)) (.table (front ++ (key, v) :: back))
  | less (front back : List (Value × Value)) {key v : Value} (unknown : fieldName? fieldNames key = some none) :
      Changed s (.table (front ++ (key, v) :: back)) (.table (front ++ back))
  | usual (front back : List (Value × Value)) {key v : Value} {name : String}
      (means : fieldName? fieldNames key = some (some name)) (own : s.IsUsual name) :
      Changed s (.table (front ++ (key, v) :: back)) (.table (front ++ back))
  | stdout {place : Value → Value} {v v' : Value} (there : Place fieldNames "stdout" place)
      (change : s.stdout.Changed v v') : Changed s (place v) (place v')
  | stderr {place : Value → Value} {v v' : Value} (there : Place fieldNames "stderr" place)
      (change : s.stderr.Changed v v') : Changed s (place v) (place v')
  | artifact {place : Value → Value} {v v' : Value} {a : Artifact} (before after : List Value)
      (there : Place fieldNames "artifacts" place) (given : Artifact.decode v = some a)
      (change : a.Changed v v') :
      Changed s (place (.list (before ++ v :: after))) (place (.list (before ++ v' :: after)))

theorem Changed.decode (h : s.Changed v v') (hd : decode v = some s) : Scenario.decode v' = some s := by
  cases h with
  | order perm => exact decode_perm hd perm
  | more front back key v unknown => rwa [decode_other unknown]
  | less front back unknown => rwa [decode_other unknown] at hd
  | usual front back means own => exact decode_left_out means own hd
  | stdout there change => exact decode_place there hd change.decode
  | stderr there change => exact decode_place there hd change.decode
  | artifact before after there given change =>
    refine decode_place there hd fun hread => ?_
    change artifacts? _ = some s.artifacts
    rw [artifacts?_around given (change.decode given)]
    exact hread

theorem artifacts?_encode (artifacts : List Artifact) :
    artifacts? (.list (artifacts.map Artifact.encode)) = some artifacts := by
  change (artifacts.map Artifact.encode).mapM Artifact.decode = some artifacts
  induction artifacts with
  | nil => rfl
  | cons a rest ih => simp [Artifact.decode_encode, ih]

/-- A scenario that is written is read back. -/
theorem decode_encode (s : Scenario) : decode s.encode = some s := by
  obtain ⟨name, description, args, outputSubdirs, exit, stdout, stderr, artifacts⟩ := s
  refine decode_eq_some.mpr ⟨_, rfl, ?_⟩
  simp only [fieldNames, List.forall_mem_cons, List.not_mem_nil, false_imp_iff, implies_true, and_true]
  refine ⟨rfl, ?_, ?_, ?_, ?_, ?_, ?_, ?_⟩
  · cases description <;> rfl
  · exact texts?_map_text args
  · exact texts?_map_text outputSubdirs
  · cases exit <;> rfl
  · exact StreamExpectation.decode_encode stdout
  · exact StreamExpectation.decode_encode stderr
  · exact artifacts?_encode artifacts

/-- A scenario that is written is read back, and what is read stays the same scenario whatever changes are
made of the order of entries, in unknown entries and by leaving out defaults. -/
theorem read_of_changed (s : Scenario) :
    decode s.encode = some s ∧
      ∀ v v', decode v = some s → Relation.ReflTransGen s.Changed v v' → decode v' = some s := by
  refine ⟨decode_encode s, fun v v' h changes => ?_⟩
  induction changes with
  | refl => exact h
  | tail _ change ih => exact change.decode ih

theorem read_of_changed_plain :
    decode (.table
      [(.plain "note", .plain "99999999999999999999"),
       (.plain "artifacts", .list [.table
         [(.plain "produced", .plain "grid"), (.plain "owner", .plain "me"), (.plain "expected", .plain "grid"),
          (.plain "kind", .plain "image")]]),
       (.plain "stdout", .table [(.plain "text", .plain "hello"), (.plain "kind", .plain "exact")]),
       (.plain "exit", .plain "success"),
       (.plain "name", .plain "greet")]) =
      some ⟨"greet", none, [], [], .success, .exact "hello", .any, [.image "grid" "grid" none]⟩ := by
  refine (read_of_changed _).2 (.table
    [(.plain "name", .plain "greet"),
     (.plain "args", .list []),
     (.plain "exit", .plain "success"),
     (.plain "stdout", .table [(.plain "kind", .plain "exact"), (.plain "text", .plain "hello")]),
     (.plain "artifacts", .list [.table
       [(.plain "kind", .plain "image"), (.plain "tolerance", .plain "~"), (.plain "expected", .plain "grid"),
        (.plain "produced", .plain "grid")]])]) _ rfl ?_
  refine .head (.usual [_] [_, _, _] rfl (.args rfl)) ?_
  refine .head (.stdout (.entry [_, _] [_] (.plain "stdout") rfl) (.order (.swap _ _ []) ?_)) ?_
  · intro v hv
    obtain rfl := List.mem_singleton.mp hv
    exact .inr (.inr rfl)
  refine .head (.artifact [] [] (.entry [_, _, _] [] (.plain "artifacts") rfl) rfl
    (.usual [_] [_, _] rfl ⟨by simp [text?], _, rfl, rfl⟩)) ?_
  refine .head (.artifact [] [] (.entry [_, _, _] [] (.plain "artifacts") rfl) rfl
    (.more [_, _] [_] (.plain "owner") (.plain "me") ⟨by simp [text?], _, rfl, rfl⟩ rfl)) ?_
  refine .head (.artifact [] [] (.entry [_, _, _] [] (.plain "artifacts") rfl) rfl
    (.order (List.reverse_perm _).symm)) ?_
  refine .head (.order (List.reverse_perm _).symm) ?_
  exact .single (.more [] _ _ _ rfl)

/-- A plain text that stands for a number is refused in front of its kind, and so is an unknown entry of an
artifact whose value is a whole number that no type holds. -/
theorem changed_not_read :
    (decode (.table
        [(.plain "name", .plain "a"), (.plain "exit", .plain "success"),
         (.plain "stdout", .table [(.plain "kind", .plain "exact"), (.plain "text", .plain "5")])]) =
        some ⟨"a", none, [], [], .success, .exact "5", .any, []⟩ ∧
      decode (.table
        [(.plain "name", .plain "a"), (.plain "exit", .plain "success"),
         (.plain "stdout", .table [(.plain "text", .plain "5"), (.plain "kind", .plain "exact")])]) = none) ∧
    decode (.table
        [(.plain "name", .plain "a"), (.plain "exit", .plain "success"),
         (.plain "artifacts", .list [.table
           [(.plain "kind", .plain "exact_text"), (.plain "produced", .plain "r.txt"),
            (.plain "text", .plain "x")]])]) =
        some ⟨"a", none, [], [], .success, .any, .any, [.exactText "r.txt" "x"]⟩ ∧
      decode (.table
        [(.plain "name", .plain "a"), (.plain "exit", .plain "success"),
         (.plain "artifacts", .list [.table
           [(.plain "kind", .plain "exact_text"), (.plain "produced", .plain "r.txt"),
            (.plain "text", .plain "x"), (.plain "extra", .plain "99999999999999999999")]])]) = none :=
  ⟨⟨rfl, rfl⟩, rfl, rfl⟩

end Changes

end Scenario

end Assay
