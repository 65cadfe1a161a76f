import Mathlib.Data.List.Basic
import Assay.Value

namespace Assay.Value

variable {v w : Value} {s : String}

/-- What the typed form of a plain scalar can be. -/
inductive Means (s : String) : Value → Prop where
  | nothing (word : isNullWord s = true) : Means s .null
  | text : Means s (.text s)
  | other {w : Value} (untold : w.text? = none) (filled : w.isNothing = false) (single : w.items? = none) :
      Means s w

theorem means_of_typedScalar (h : typedScalar s = some w) : Means s w := by
  rw [typedScalar] at h
  split at h
  · rename_i hnull
    cases h
    exact .nothing hnull
  · split at h
    · cases h
      exact .other rfl rfl rfl
    · split at h
      · split_ifs at h
        cases h
        exact .other rfl rfl rfl
      · split at h
        · cases h
          exact .other rfl rfl rfl
        · cases h
          exact .text

/-- No plain scalar of a text, or of a list of texts, stands for anything but itself. -/
def Settled : Value → Prop
  | .plain s => typedScalar s = some (.text s)
  | .list items => ∀ s, .plain s ∈ items → typedScalar s = some (.text s)
  | _ => True

/-- A tree and its typed form. -/
inductive TypedAs : Value → Value → Prop where
  | scalar {s : String} {w : Value} (means : Means s w) : TypedAs (.plain s) w
  | list {items ws : List Value} (all : typedItems items = some ws) : TypedAs (.list items) (.list ws)
  | table {entries ts : List (Value × Value)} (all : typedEntries entries = some ts) :
      TypedAs (.table entries) (.table ts)
  | self {v : Value} (settled : v.Settled) : TypedAs v v

theorem typedAs_of_typed (h : v.typed = some w) : TypedAs v w := by
  cases v with
  | plain s => exact .scalar (means_of_typedScalar h)
  | list items =>
    obtain ⟨ws, hall, rfl⟩ := Option.map_eq_some_iff.mp h
    exact .list hall
  | table entries =>
    obtain ⟨ts, hall, rfl⟩ := Option.map_eq_some_iff.mp h
    exact .table hall
  | _ =>
    cases h
    exact .self trivial

section Nothing

theorem typed_of_isNothing (h : v.isNothing = true) : v.typed = some .null := by
  cases v with
  | null => rfl
  | plain s =>
    have hnull : isNullWord s = true := h
    rw [typed, typedScalar, if_pos hnull]
  | _ => cases h

theorem typed_isNothing : (∃ w, v.typed = some w ∧ w.isNothing = true) ↔ v.isNothing = true := by
  constructor
  · rintro ⟨w, h, hw⟩
    cases typedAs_of_typed h with
    | scalar means =>
      cases means with
      | nothing word => exact word
      | text => cases hw
      | other _ filled _ => simp [filled] at hw
    | list all => cases hw
    | table all => cases hw
    | self _ => exact hw
  · intro h
    exact ⟨.null, typed_of_isNothing h, rfl⟩

end Nothing

section Texts

theorem typed_text? : (∃ w, v.typed = some w ∧ w.text? = some s) ↔ v.text? = some s ∧ v.Settled := by
  constructor
  · rintro ⟨w, h, hw⟩
    cases typedAs_of_typed h with
    | scalar means =>
      cases means with
      | nothing _ => cases hw
      | text => exact ⟨hw, h⟩
      | other untold _ _ => simp [untold] at hw
    | list all => cases hw
    | table all => cases hw
    | self settled => exact ⟨hw, settled⟩
  · rintro ⟨h, settled⟩
    cases v with
    | text _ => exact ⟨_, rfl, h⟩
    | plain _ => exact ⟨_, settled, h⟩
    | _ => cases h

theorem texts?_list {items : List Value} {ss : List String} :
    (Value.list items).texts? = some ss ↔ items.map text? = ss.map some := by
  change items.mapM text? = some ss ↔ _
  induction items generalizing ss with
  | nil => cases ss <;> simp
  | cons item rest ih =>
    cases ss with
    | nil => cases hitem : item.text? <;> simp [hitem, Option.bind_eq_some_iff]
    | cons s ss => simp [Option.bind_eq_some_iff, ih, and_comm]

theorem texts?_map_text (ss : List String) : (Value.list (ss.map .text)).texts? = some ss := by
  rw [texts?_list, List.map_map]
  rfl

theorem typedItems_cons {items ws : List Value} : typedItems (v :: items) = some ws ↔
    ∃ w rest, v.typed = some w ∧ typedItems items = some rest ∧ ws = w :: rest := by
  rw [typedItems]
  cases v.typed <;> cases typedItems items <;> simp [eq_comm]

/-- A list of texts is settled if each of its items is. -/
theorem settled_list {items : List Value} {ss : List String} (h : items.map text? = ss.map some) :
    (Value.list items).Settled ↔ ∀ item ∈ items, item.Settled := by
  constructor
  · intro settled item hm
    cases item with
    | plain p => exact settled p hm
    | list _ =>
      have hnone : none ∈ ss.map some := h ▸ List.mem_map_of_mem hm
      simp at hnone
    | _ => trivial
  · intro settled p hp
    exact settled _ hp

theorem typedItems_texts {items : List Value} {ss : List String} :
    (∃ ws, typedItems items = some ws ∧ ws.map text? = ss.map some) ↔
      items.map text? = ss.map some ∧ ∀ item ∈ items, item.Settled := by
  induction items generalizing ss with
  | nil => simp [typedItems]
  | cons item rest ih =>
    simp only [typedItems_cons, List.forall_mem_cons]
    cases ss with
    | nil => simp
    | cons s ss =>
      have hsplit : (∃ ws, (∃ w others, item.typed = some w ∧ typedItems rest = some others ∧
            ws = w :: others) ∧ ws.map text? = (s :: ss).map some) ↔
          (∃ w, item.typed = some w ∧ w.text? = some s) ∧
            ∃ others, typedItems rest = some others ∧ others.map text? = ss.map some := by
        constructor
        · rintro ⟨_, ⟨w, others, hw, hothers, rfl⟩, hsame⟩
          obtain ⟨hs, hss⟩ := List.cons.inj hsame
          exact ⟨⟨w, hw, hs⟩, others, hothers, hss⟩
        · rintro ⟨⟨w, hw, hs⟩, others, hothers, hss⟩
          exact ⟨_, ⟨w, others, hw, hothers, rfl⟩, by rw [List.map_cons, hs, hss, List.map_cons]⟩
      rw [hsplit, typed_text?, ih, List.map_cons, List.map_cons, List.cons.injEq, and_and_and_comm]

theorem typed_texts? {ss : List String} :
    (∃ w, v.typed = some w ∧ w.texts? = some ss) ↔ v.texts? = some ss ∧ v.Settled := by
  constructor
  · rintro ⟨w, h, hw⟩
    cases typedAs_of_typed h with
    | scalar means =>
      cases means with
      | nothing _ => cases hw
      | text => cases hw
      | other _ _ single => simp [texts?, single] at hw
    | list all =>
      obtain ⟨hsame, settled⟩ := typedItems_texts.mp ⟨_, all, texts?_list.mp hw⟩
      exact ⟨texts?_list.mpr hsame, (settled_list hsame).mpr settled⟩
    | table all => cases hw
    | self settled => exact ⟨hw, settled⟩
  · rintro ⟨h, settled⟩
    cases v with
    | list items =>
      have hsame := texts?_list.mp h
      obtain ⟨ws, hws, htexts⟩ := typedItems_texts.mpr ⟨hsame, (settled_list hsame).mp settled⟩
      exact ⟨.list ws, by rw [typed, hws, Option.map_some], texts?_list.mpr htexts⟩
    | plain p =>
      -- only the empty scalar is a list, and it stands for nothing
      have hempty : p = "" := by
        by_contra hne
        simp [texts?, items?, hne] at h
      subst hempty
      cases settled
    | _ => cases h

end Texts

section Entries

variable {entries entries' ts : List (Value × Value)}

theorem typedEntries_cons {entry : Value × Value} : typedEntries (entry :: entries) = some ts ↔
    ∃ key w rest, entry.1.typed = some key ∧ entry.2.typed = some w ∧
      typedEntries entries = some rest ∧ ts = (key, w) :: rest := by
  rw [typedEntries]
  cases entry.1.typed <;> cases entry.2.typed <;> cases typedEntries entries <;> simp [eq_comm]

theorem typedEntries_append : typedEntries (entries ++ entries') = some ts ↔
    ∃ front back, typedEntries entries = some front ∧ typedEntries entries' = some back ∧
      ts = front ++ back := by
  induction entries generalizing ts with
  | nil => simp [typedEntries]
  | cons entry rest ih =>
    rw [List.cons_append]
    constructor
    · intro h
      obtain ⟨key, w, others, hkey, hw, hothers, rfl⟩ := typedEntries_cons.mp h
      obtain ⟨front, back, hfront, hback, rfl⟩ := ih.mp hothers
      exact ⟨_, back, typedEntries_cons.mpr ⟨key, w, front, hkey, hw, hfront, rfl⟩, hback, rfl⟩
    · rintro ⟨front, back, hfront, hback, rfl⟩
      obtain ⟨key, w, others, hkey, hw, hothers, rfl⟩ := typedEntries_cons.mp hfront
      exact typedEntries_cons.mpr ⟨key, w, _, hkey, hw, ih.mpr ⟨others, back, hothers, hback, rfl⟩, rfl⟩

theorem typedEntries_around {front back : List (Value × Value)} {entry : Value × Value} :
    typedEntries (front ++ entry :: back) = some ts ↔
      ∃ before key w after, typedEntries front = some before ∧ entry.1.typed = some key ∧
        entry.2.typed = some w ∧ typedEntries back = some after ∧ ts = before ++ (key, w) :: after := by
  rw [typedEntries_append]
  constructor
  · rintro ⟨before, behind, hbefore, hbehind, rfl⟩
    obtain ⟨key, w, after, hkey, hw, hafter, rfl⟩ := typedEntries_cons.mp hbehind
    exact ⟨before, key, w, after, hbefore, hkey, hw, hafter, rfl⟩
  · rintro ⟨before, key, w, after, hbefore, hkey, hw, hafter, rfl⟩
    exact ⟨before, _, hbefore, typedEntries_cons.mpr ⟨key, w, after, hkey, hw, hafter, rfl⟩, rfl⟩

theorem typedEntries_perm (perm : entries.Perm entries') (h : typedEntries entries = some ts) :
    ∃ ts', typedEntries entries' = some ts' ∧ ts.Perm ts' := by
  induction perm generalizing ts with
  | nil => exact ⟨ts, h, .refl _⟩
  | cons entry _ ih =>
    obtain ⟨key, w, rest, hkey, hw, hrest, rfl⟩ := typedEntries_cons.mp h
    obtain ⟨rest', hrest', hperm⟩ := ih hrest
    exact ⟨_, typedEntries_cons.mpr ⟨key, w, rest', hkey, hw, hrest', rfl⟩, hperm.cons _⟩
  | swap entry other rest =>
    obtain ⟨key, w, more, hkey, hw, hmore, rfl⟩ := typedEntries_cons.mp h
    obtain ⟨key', w', ts, hkey', hw', hts, rfl⟩ := typedEntries_cons.mp hmore
    have htail := typedEntries_cons.mpr ⟨key, w, ts, hkey, hw, hts, rfl⟩
    exact ⟨_, typedEntries_cons.mpr ⟨key', w', _, hkey', hw', htail, rfl⟩, .swap _ _ _⟩
  | trans _ _ ih ih' =>
    obtain ⟨ts', hts', hperm⟩ := ih h
    obtain ⟨ts'', hts'', hperm'⟩ := ih' hts'
    exact ⟨ts'', hts'', hperm.trans hperm'⟩

end Entries

end Assay.Value
