import Assay.Proofs.Value.Typed
import Assay.Scenario.Codec

namespace Assay.StreamExpectation

open Value

variable {e : StreamExpectation} {entries entries' front back : List (Value × Value)} {kind : String}
  {text : Option Value}

section Kinds

/-- What the text of an expectation has to be, if there is one. -/
def IsText : StreamExpectation → Option Value → Prop
  | any, text | empty, text => ∀ v, text = some v → v.isNothing = true
  | exact s, text | contains s, text => text.bind Value.text? = some s
  | containsAll ss, text => text.bind Value.texts? = some ss

theorem ofKind?_eq_some : ofKind? kind text = some e ↔ kind = e.kind ∧ e.IsText text := by
  unfold ofKind?
  split_ifs with hany hempty hexact hcontains hlist
  · cases text <;> cases e <;> simp [hany, StreamExpectation.kind, IsText]
  · cases text <;> cases e <;> simp [hempty, StreamExpectation.kind, IsText]
  · cases text <;> cases e <;> simp [hexact, StreamExpectation.kind, IsText]
  · cases text <;> cases e <;> simp [hcontains, StreamExpectation.kind, IsText]
  · cases text <;> cases e <;> simp [hlist, StreamExpectation.kind, IsText]
  · cases e <;> simp [hany, hempty, hexact, hcontains, hlist, StreamExpectation.kind]

/-- Whether the text of an expectation stays what it is when it is typed. Nothing is wanted of some kinds. -/
def Settles (e : StreamExpectation) (v : Value) : Prop :=
  e = any ∨ e = empty ∨ v.Settled

/-- A text is typed to a text of the kind if it is one itself and is settled. -/
theorem typed_isText {v : Value} :
    (∃ w, v.typed = some w ∧ e.IsText (some w)) ↔ e.IsText (some v) ∧ e.Settles v := by
  have hnothing : ∀ v : Value, (∀ x, some v = some x → x.isNothing = true) ↔ v.isNothing = true := by
    simp
  cases e with
  | any => simp only [IsText, hnothing, typed_isNothing, Settles, true_or, and_true]
  | empty => simp only [IsText, hnothing, typed_isNothing, Settles, true_or, or_true, and_true]
  | exact s => simpa [IsText, Settles] using typed_text?
  | contains s => simpa [IsText, Settles] using typed_text?
  | containsAll ss => simpa [IsText, Settles] using typed_texts?

end Kinds

section Entries

def texts (entries : List (Value × Value)) : List Value :=
  entries.filterMap fun entry => if entry.1.text? = some "text" then some entry.2 else none

/-- An entry that is not the kind, with a key that has a name. -/
structure IsOther (entry : Value × Value) : Prop where
  named : entry.1.text? ≠ none
  other : entry.1.text? ≠ some "kind"

/-- A text as it is taken: typed in front of the kind, and as it stands behind it. -/
def taken (kind : Option String) (v : Value) : Option Value :=
  if kind.isSome then some v else v.typed

theorem foldlM_other {kind : Option String} {told : Option String × Option Value}
    (h : ∀ entry ∈ entries, IsOther entry) :
    entries.foldlM further? (kind, text) = some told ↔
      texts entries = [] ∧ told = (kind, text) ∨
        text = none ∧ ∃ v w, texts entries = [v] ∧ taken kind v = some w ∧ told = (kind, some w) := by
  induction entries generalizing text with
  | nil => simp [texts, eq_comm]
  | cons entry rest ih =>
    rw [List.forall_mem_cons] at h
    obtain ⟨⟨hnamed, hother⟩, hrest⟩ := h
    obtain ⟨key, hkey⟩ := Option.ne_none_iff_exists'.mp hnamed
    have hne : key ≠ "kind" := fun he => hother (he ▸ hkey)
    rw [List.foldlM_cons, texts, List.filterMap_cons, ← texts]
    by_cases htext : key = "text"
    · subst htext
      simp only [hkey, if_true]
      cases text with
      | some t =>
        have htwice : further? (kind, some t) entry = none := by simp [hkey, further?]
        simp [htwice]
      | none =>
        have hstep : further? (kind, none) entry = (taken kind entry.2).map fun w => (kind, some w) := by
          cases kind <;> simp [hkey, taken, further?]
        cases htaken : taken kind entry.2 with
        | none =>
          simp only [hstep, htaken]
          simp +contextual [htaken]
        | some w => simp [hstep, htaken, ih hrest, and_comm]
    · have hstep : further? (kind, text) entry = some (kind, text) := by
        simp [hkey, hne, htext, further?]
      simp [hkey, hstep, htext, ih hrest]

/-- What is told of the text, given the texts in front of the kind and those behind it. -/
inductive Told : List Value → List Value → Option Value → Prop where
  | nothing : Told [] [] none
  | inFront {v w : Value} (typed : v.typed = some w) : Told [v] [] (some w)
  | behind {v : Value} : Told [] [v] (some v)

theorem further?_kind {key value : Value} (h : key.text? = some "kind") (text : Option Value) :
    further? (none, text) (key, value) = value.text?.map fun kind => (some kind, text) := by
  simp [h, further?]

/-- Behind the kind no other kind is taken, and the kind stays. -/
theorem other_of_behind {entry : Value × Value} {told : Option String × Option Value}
    (h : further? (some kind, text) entry = some told) : IsOther entry ∧ told.1 = some kind := by
  unfold further? at h
  cases hkey : entry.1.text? with
  | none => simp [hkey] at h
  | some key =>
    simp only [hkey, Option.isSome_some, if_true] at h
    split_ifs at h with hkind htext htwice
    · cases h
      exact ⟨⟨by simp [hkey], by simp [hkey, hkind]⟩, rfl⟩
    · cases h
      exact ⟨⟨by simp [hkey], by simp [hkey, hkind]⟩, rfl⟩

theorem other_of_foldlM {told : Option String × Option Value}
    (h : entries.foldlM further? (some kind, text) = some told) : ∀ entry ∈ entries, IsOther entry := by
  induction entries generalizing text with
  | nil => simp
  | cons entry rest ih =>
    rw [List.foldlM_cons] at h
    obtain ⟨⟨first, other⟩, hfirst, hrest⟩ := Option.bind_eq_some_iff.mp h
    obtain ⟨hother, rfl⟩ := other_of_behind hfirst
    exact List.forall_mem_cons.mpr ⟨hother, ih hrest⟩

theorem named_of_foldlM {given told : Option String × Option Value}
    (h : entries.foldlM further? given = some told) : ∀ entry ∈ entries, entry.1.text? ≠ none := by
  induction entries generalizing given with
  | nil => simp
  | cons entry rest ih =>
    rw [List.foldlM_cons] at h
    obtain ⟨next, hnext, hrest⟩ := Option.bind_eq_some_iff.mp h
    refine List.forall_mem_cons.mpr ⟨fun hnone => ?_, ih hrest⟩
    simp [hnone, further?] at hnext

/-- Entries that are taken with a kind are those in front of the kind, the kind, and those behind it. -/
theorem split_of_foldlM (h : entries.foldlM further? (none, none) = some (some kind, text)) :
    ∃ front key value back, entries = front ++ (key, value) :: back ∧ key.text? = some "kind" ∧
      ∀ entry ∈ front, IsOther entry := by
  have hnamed := named_of_foldlM h
  cases hfind : entries.find? fun entry => entry.1.text? = some "kind" with
  | none =>
    have hothers : ∀ entry ∈ entries, IsOther entry := fun entry hm =>
      ⟨hnamed entry hm, by simpa using List.find?_eq_none.mp hfind entry hm⟩
    rcases (foldlM_other hothers).mp h with ⟨-, htold⟩ | ⟨-, v, w, -, -, htold⟩
    · cases htold
    · cases htold
  | some entry =>
    obtain ⟨hkey, front, back, rfl, hfront⟩ := List.find?_eq_some_iff_append.mp hfind
    refine ⟨front, entry.1, entry.2, back, rfl, by simpa using hkey, fun other hm => ⟨?_, ?_⟩⟩
    · exact hnamed other (List.mem_append_left _ hm)
    · simpa using hfront other hm

theorem decode_of_foldlM : decode (.table entries) = some e ↔
    ∃ text, entries.foldlM further? (none, none) = some (some e.kind, text) ∧ e.IsText text := by
  unfold decode
  simp only
  rcases entries.foldlM further? (none, none) with _ | ⟨_ | kind, text⟩
  · simp
  · simp
  · simp only [ofKind?_eq_some, Option.some.injEq, Prod.mk.injEq]
    constructor
    · rintro ⟨rfl, htext⟩
      exact ⟨text, ⟨rfl, rfl⟩, htext⟩
    · rintro ⟨_, ⟨rfl, rfl⟩, htext⟩
      exact ⟨rfl, htext⟩

theorem foldlM_split {key value : Value} {told : Option String × Option Value} :
    (front ++ (key, value) :: back).foldlM further? (none, none) = some told ↔
      ∃ inFront there, front.foldlM further? (none, none) = some inFront ∧
        further? inFront (key, value) = some there ∧ back.foldlM further? there = some told := by
  simp [List.foldlM_append, Option.bind_eq_some_iff]

/-- What is told by entries around a kind. -/
theorem foldlM_around {key value : Value} (hkey : key.text? = some "kind")
    (hfront : ∀ entry ∈ front, IsOther entry) :
    (front ++ (key, value) :: back).foldlM further? (none, none) = some (some kind, text) ↔
      value.text? = some kind ∧ (∀ entry ∈ back, IsOther entry) ∧
        Told (texts front) (texts back) text := by
  rw [foldlM_split]
  constructor
  · rintro ⟨inFront, there, hinFront, hthere, htold⟩
    rcases (foldlM_other hfront).mp hinFront with ⟨hnone, rfl⟩ | ⟨-, v, w, hone, htyped, rfl⟩
    · rw [further?_kind hkey, Option.map_eq_some_iff] at hthere
      obtain ⟨told, hkind, rfl⟩ := hthere
      have hback := other_of_foldlM htold
      rcases (foldlM_other hback).mp htold with ⟨hnone', he⟩ | ⟨-, v, w, hone, htaken, he⟩
      · cases he
        exact ⟨hkind, hback, by rw [hnone, hnone']; exact .nothing⟩
      · cases he
        cases htaken
        exact ⟨hkind, hback, by rw [hnone, hone]; exact .behind⟩
    · rw [further?_kind hkey, Option.map_eq_some_iff] at hthere
      obtain ⟨told, hkind, rfl⟩ := hthere
      have hback := other_of_foldlM htold
      rcases (foldlM_other hback).mp htold with ⟨hnone, he⟩ | ⟨htwice, -⟩
      · cases he
        exact ⟨hkind, hback, by rw [hone, hnone]; exact .inFront htyped⟩
      · cases htwice
  · rintro ⟨hkind, hback, htold⟩
    have hthere : ∀ t, further? (none, t) (key, value) = some (some kind, t) := by
      intro t
      rw [further?_kind hkey, hkind, Option.map_some]
    generalize hf : texts front = inFront at htold
    generalize hb : texts back = behind at htold
    cases htold with
    | nothing =>
      exact ⟨_, _, (foldlM_other hfront).mpr (.inl ⟨hf, rfl⟩), hthere _,
        (foldlM_other hback).mpr (.inl ⟨hb, rfl⟩)⟩
    | inFront typed =>
      exact ⟨_, _, (foldlM_other hfront).mpr (.inr ⟨rfl, _, _, hf, typed, rfl⟩), hthere _,
        (foldlM_other hback).mpr (.inl ⟨hb, rfl⟩)⟩
    | behind =>
      exact ⟨_, _, (foldlM_other hfront).mpr (.inl ⟨hf, rfl⟩), hthere _,
        (foldlM_other hback).mpr (.inr ⟨rfl, _, _, hb, rfl, rfl⟩)⟩

/-- A table is an expectation if it has one kind, and at most one text, which the kind can have. -/
theorem decode_table : decode (.table entries) = some e ↔
    ∃ front key value back text, entries = front ++ (key, value) :: back ∧ key.text? = some "kind" ∧
      value.text? = some e.kind ∧ (∀ entry ∈ front ++ back, IsOther entry) ∧
      Told (texts front) (texts back) text ∧ e.IsText text := by
  rw [decode_of_foldlM]
  constructor
  · rintro ⟨text, hfold, htext⟩
    obtain ⟨front, key, value, back, rfl, hkey, hfront⟩ := split_of_foldlM hfold
    obtain ⟨hkind, hback, htold⟩ := (foldlM_around hkey hfront).mp hfold
    exact ⟨front, key, value, back, text, rfl, hkey, hkind, List.forall_mem_append.mpr ⟨hfront, hback⟩,
      htold, htext⟩
  · rintro ⟨front, key, value, back, text, rfl, hkey, hkind, hothers, htold, htext⟩
    obtain ⟨hfront, hback⟩ := List.forall_mem_append.mp hothers
    exact ⟨text, (foldlM_around hkey hfront).mpr ⟨hkind, hback, htold⟩, htext⟩

end Entries

section Changes

/-- In another order the same text is told, if it is settled where it stands in front of the kind. -/
theorem Told.reordered {inFront behind inFront' behind' : List Value} (h : Told inFront behind text)
    (htext : e.IsText text) (perm : (inFront ++ behind).Perm (inFront' ++ behind'))
    (settled : ∀ v ∈ inFront', e.Settles v) : ∃ text', Told inFront' behind' text' ∧ e.IsText text' := by
  cases h with
  | nothing =>
    obtain ⟨rfl, rfl⟩ := List.append_eq_nil_iff.mp perm.symm.eq_nil
    exact ⟨none, .nothing, htext⟩
  | inFront typed =>
    rcases List.append_eq_singleton_iff.mp (List.perm_singleton.mp perm.symm) with ⟨rfl, rfl⟩ | ⟨rfl, rfl⟩
    · exact ⟨_, .behind, (typed_isText.mp ⟨_, typed, htext⟩).1⟩
    · exact ⟨_, .inFront typed, htext⟩
  | behind =>
    rcases List.append_eq_singleton_iff.mp (List.perm_singleton.mp perm.symm) with ⟨rfl, rfl⟩ | ⟨rfl, rfl⟩
    · exact ⟨_, .behind, htext⟩
    · obtain ⟨w, htyped, htext'⟩ := typed_isText.mpr ⟨htext, settled _ List.mem_cons_self⟩
      exact ⟨_, .inFront htyped, htext'⟩

/-- The texts that stand in front of the kind. -/
def textsInFront (entries : List (Value × Value)) : List Value :=
  texts (entries.takeWhile fun entry => entry.1.text? ≠ some "kind")

theorem textsInFront_around {key value : Value} (hkey : key.text? = some "kind")
    (hfront : ∀ entry ∈ front, IsOther entry) :
    textsInFront (front ++ (key, value) :: back) = texts front := by
  rw [textsInFront, List.takeWhile_append_of_pos fun entry hm => by simpa using (hfront entry hm).other,
    List.takeWhile_cons_of_neg (by simp [hkey]), List.append_nil]

/-- Where an expectation is read, the text in front of its kind is settled. -/
theorem settles_of_decode (h : decode (.table entries) = some e) :
    ∀ v ∈ textsInFront entries, e.Settles v := by
  obtain ⟨front, key, value, back, text, rfl, hkey, -, hothers, htold, htext⟩ := decode_table.mp h
  rw [textsInFront_around hkey (List.forall_mem_append.mp hothers).1]
  generalize texts front = inFront, texts back = behind at htold
  intro v hv
  cases htold with
  | inFront typed =>
    obtain rfl := List.mem_singleton.mp hv
    exact (typed_isText.mp ⟨_, typed, htext⟩).2
  | _ => cases hv

/-- Another order of the entries is read as the same if the text is settled where it stands in front of the
kind, and only then. -/
theorem decode_perm (h : decode (.table entries) = some e) (perm : entries.Perm entries') :
    decode (.table entries') = some e ↔ ∀ v ∈ textsInFront entries', e.Settles v := by
  refine ⟨settles_of_decode, fun settled => ?_⟩
  obtain ⟨front, key, value, back, text, rfl, hkey, hkind, hothers, htold, htext⟩ := decode_table.mp h
  obtain ⟨front', back', rfl⟩ := List.append_of_mem (perm.mem_iff.mp (by simp : (key, value) ∈ _))
  have hrest : (front ++ back).Perm (front' ++ back') :=
    (List.perm_middle.symm.trans (perm.trans List.perm_middle)).cons_inv
  have hothers' : ∀ entry ∈ front' ++ back', IsOther entry := fun entry hm =>
    hothers entry (hrest.mem_iff.mpr hm)
  have hfront' := (List.forall_mem_append.mp hothers').1
  rw [textsInFront_around hkey hfront'] at settled
  have htexts : (texts front ++ texts back).Perm (texts front' ++ texts back') := by
    simpa [texts] using hrest.filterMap fun entry =>
      if entry.1.text? = some "text" then some entry.2 else none
  obtain ⟨text', htold', htext'⟩ := htold.reordered htext htexts settled
  exact decode_table.mpr ⟨front', key, value, back', text', rfl, hkey, hkind, hothers', htold', htext'⟩

/-- An entry of another name makes no difference. -/
theorem decode_other {key v : Value} {name : String} (hkey : key.text? = some name)
    (hother : name ≠ "kind" ∧ name ≠ "text") :
    decode (.table (front ++ (key, v) :: back)) = decode (.table (front ++ back)) := by
  have hstep : ∀ told, further? told (key, v) = some told := by
    intro told
    simp [hkey, hother.1, hother.2, further?]
  simp [decode, List.foldlM_append, hstep]

/-- A change of how an expectation is given. A text that comes to stand in front of the kind is settled. -/
inductive Changed (e : StreamExpectation) : Value → Value → Prop where
  | order {entries entries' : List (Value × Value)} (perm : entries.Perm entries')
      (settled : ∀ v ∈ textsInFront entries', e.Settles v) : Changed e (.table entries) (.table entries')
  | more (front back : List (Value × Value)) (key v : Value) {name : String} (named : key.text? = some name)
      (unknown : name ≠ "kind" ∧ name ≠ "text") :
      Changed e (.table (front ++ back)) (.table (front ++ (key, v) :: back))
  | less (front back : List (Value × Value)) {key v : Value} {name : String} (named : key.text? = some name)
      (unknown : name ≠ "kind" ∧ name ≠ "text") :
      Changed e (.table (front ++ (key, v) :: back)) (.table (front ++ back))

theorem Changed.decode {v v' : Value} (h : e.Changed v v') (hd : decode v = some e) :
    StreamExpectation.decode v' = some e := by
  cases h with
  | order perm settled => exact (decode_perm hd perm).mpr settled
  | more front back key v named unknown => rwa [decode_other named unknown]
  | less front back named unknown => rwa [decode_other named unknown] at hd

end Changes

theorem decode_encode (e : StreamExpectation) : decode e.encode = some e := by
  cases e with
  | containsAll ss =>
    refine decode_table.mpr ⟨[], _, _, [(.text "text", .list (ss.map .text))], _, rfl, rfl, rfl, ?_, .behind,
      texts?_map_text ss⟩
    simp only [List.nil_append, List.forall_mem_singleton]
    exact ⟨nofun, by simp [Value.text?]⟩
  | _ => rfl

end Assay.StreamExpectation
