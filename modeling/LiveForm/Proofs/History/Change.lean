import Mathlib.Data.List.Nodup
import LiveForm.Proofs.History.Attribute

/-!
# What changes tell

The documents of two schemas give, part by part, what stood there before and what stands there now.
At most one change tells of a part, and each change is known from these two documents.

* `Change.Tells`: a change tells of a part with given documents;
* `Change.tell?_eq_some`, `Change.tells_none`: when a change is told, and which;
* **`mem_partChanges`, `nodup_partChanges`**: the changes of one kind of part;
* `Schema.documents`: the documents of a schema, for fields and for rules;
* **`mem_changesBetween`, `nodup_changesBetween`**: the changes from one schema to another;
* `Change.Covers`, `Change.Exact`, **`exact_changesBetween`**: they tell what differs, and no more.
-/

namespace LiveForm

/-! ## Tables of documents -/

namespace Table

variable {κ α β : Type} [DecidableEq κ]

theorem put_of_not_mem {key : κ} {es : List (κ × α)} (h : key ∉ es.map Prod.fst) (value : α) :
    put key value es = es ++ [(key, value)] := by
  induction es with
  | nil => rfl
  | cons e es ih =>
    rw [List.map_cons, List.mem_cons, not_or] at h
    rw [put, if_neg (Ne.symm h.1), ih h.2, List.cons_append]

theorem entries_foldl_set {items : List β} {key : β → κ} (hnodup : (items.map key).Nodup)
    (value : β → α) : (items.foldl (fun t b => t.set (key b) (value b)) empty).entries =
      items.map fun b => (key b, value b) := by
  have hfold : ∀ {items : List β} {t : Table κ α}, (items.map key).Nodup →
      (∀ b ∈ items, key b ∉ t.keys) →
      (items.foldl (fun t b => t.set (key b) (value b)) t).entries =
        t.entries ++ items.map fun b => (key b, value b) := by
    intro items
    induction items with
    | nil => exact fun _ _ => (List.append_nil _).symm
    | cons b items ih =>
      intro t hnodup hnew
      obtain ⟨hb, hnodup⟩ := List.nodup_cons.mp hnodup
      obtain ⟨hbnew, hnew⟩ := List.forall_mem_cons.mp hnew
      have hset : (t.set (key b) (value b)).entries = t.entries ++ [(key b, value b)] :=
        put_of_not_mem hbnew _
      rw [List.foldl_cons, ih hnodup fun c hc => ?_, hset, List.append_assoc,
        List.singleton_append, List.map_cons]
      rw [keys, hset, List.map_append, List.mem_append, not_or]
      refine ⟨hnew c hc, fun hmem => hb ?_⟩
      have hkey : key c = key b := List.mem_singleton.mp hmem
      exact hkey ▸ List.mem_map_of_mem hc
  exact hfold hnodup fun _ _ => List.not_mem_nil

theorem find_map {items : List β} (key : β → κ) (value : β → α) (k : κ) :
    find k (items.map fun b => (key b, value b)) =
      (items.find? fun b => decide (key b = k)).map value := by
  induction items with
  | nil => rfl
  | cons b items ih =>
    rw [List.map_cons, find, List.find?_cons, ih]
    by_cases hk : key b = k <;> simp [hk]

theorem find_of_mem {es : List (κ × α)} (h : (es.map Prod.fst).Nodup) {e : κ × α} (he : e ∈ es) :
    find e.1 es = some e.2 := by
  induction es with
  | nil => cases he
  | cons f es ih =>
    obtain ⟨hf, hes⟩ := List.nodup_cons.mp h
    rcases List.mem_cons.mp he with rfl | he
    · rw [find, if_pos rfl]
    · have hkey : f.1 ≠ e.1 := fun hkey => hf (hkey ▸ List.mem_map_of_mem he)
      rw [find, if_neg hkey, ih hes he]

theorem mem_of_find {es : List (κ × α)} {key : κ} {value : α} (h : find key es = some value) :
    (key, value) ∈ es := by
  induction es with
  | nil => cases h
  | cons e es ih =>
    rw [find] at h
    split at h
    · next hkey => exact List.mem_cons.mpr (Or.inl (Prod.ext hkey.symm (Option.some.inj h).symm))
    · exact List.mem_cons_of_mem e (ih h)

theorem mem_entries {t : Table κ α} (h : t.keys.Nodup) {e : κ × α} :
    e ∈ t.entries ↔ t.get? e.1 = some e.2 :=
  ⟨find_of_mem h, mem_of_find⟩

end Table

/-! ## What a change tells -/

/-- **A change tells of a part** whose documents before and after are given where it exists. -/
inductive Change.Tells (part : Part) (id : String) : Option Value → Option Value → Change → Prop
  | added (after : Value) :
    Tells part id none (some after) { kind := .added, part, id, after }
  | changed {before after : Value} (h : before.changedAttributes after ≠ []) :
    Tells part id (some before) (some after)
      (.altered part id (before.changedAttributes after) before after)
  | removed (before : Value) :
    Tells part id (some before) none { kind := .removed, part, id, before }

namespace Change

/-- What is told of a part that stands there now. -/
def tell? (part : Part) (id : String) (before? : Option Value) (after : Value) : Option Change :=
  match before? with
  | none => some { kind := .added, part, id, after }
  | some before =>
    if (before.changedAttributes after).isEmpty then none
    else some (.altered part id (before.changedAttributes after) before after)

variable {part : Part} {id : String} {old new : Option Value} {before after : Value} {c : Change}

theorem Tells.part_eq (h : Tells part id old new c) : c.part = part := by cases h <;> rfl

theorem Tells.id_eq (h : Tells part id old new c) : c.id = id := by cases h <;> rfl

theorem Tells.added_iff (h : Tells part id old new c) :
    c.kind = .added ↔ old = none ∧ new.isSome = true := by
  cases h <;> simp [altered]

theorem Tells.removed_iff (h : Tells part id old new c) :
    c.kind = .removed ↔ old.isSome = true ∧ new = none := by
  cases h <;> simp [altered]

theorem Tells.changed_iff (h : Tells part id old new c) : c.kind = .changed ↔
    ∃ before after, old = some before ∧ new = some after ∧
      before.changedAttributes after ≠ [] := by
  cases h <;> simp_all [altered]

theorem Tells.documents (h : Tells part id old new c) :
    c.before = old.getD .null ∧ c.after = new.getD .null := by
  cases h <;> exact ⟨rfl, rfl⟩

theorem Tells.details (h : Tells part id old new c) : c.details = if c.kind = .changed then
    [(.text "attributes", .texts (c.before.changedAttributes c.after))] else [] := by
  cases h <;> rfl

theorem tell?_eq_some : tell? part id old after = some c ↔ Tells part id old (some after) c := by
  constructor
  · intro h
    unfold tell? at h
    split at h
    · obtain rfl := Option.some.inj h
      exact .added after
    · split at h
      · cases h
      · next hne =>
        obtain rfl := Option.some.inj h
        exact .changed (mt List.isEmpty_iff.mpr hne)
  · rintro (- | hne | -)
    · rfl
    · exact if_neg (mt List.isEmpty_iff.mp hne)

theorem tells_none : Tells part id (some before) none c ↔
    c = { kind := .removed, part, id, before } := by
  constructor
  · rintro (- | - | -)
    rfl
  · rintro rfl
    exact .removed before

end Change

/-! ## One kind of part -/

theorem sublist_filterMap {α β γ : Type} {f : α → Option β} {g : α → γ} {h : β → γ}
    (hf : ∀ a b, f a = some b → h b = g a) (l : List α) :
    ((l.filterMap f).map h).Sublist (l.map g) := by
  induction l with
  | nil => exact List.Sublist.slnil
  | cons a l ih =>
    rw [List.filterMap_cons]
    split
    · exact ih.trans (List.sublist_cons_self _ _)
    · next b hb =>
      rw [List.map_cons, List.map_cons, hf a b hb]
      exact ih.cons_cons _

variable {part : Part} {old new : Table String Value} {c : Change}

theorem partChanges_eq (part : Part) (old new : Table String Value) : partChanges part old new =
    new.entries.filterMap (fun e => Change.tell? part e.1 (old.get? e.1) e.2) ++
      (old.entries.filter fun e => (new.get? e.1).isNone).map fun e =>
        { kind := .removed, part, id := e.1, before := e.2 } := rfl

/-- **The changes of one kind of part** are what there is to tell. -/
theorem mem_partChanges (hold : old.keys.Nodup) (hnew : new.keys.Nodup) :
    c ∈ partChanges part old new ↔ ∃ id, Change.Tells part id (old.get? id) (new.get? id) c := by
  rw [partChanges_eq, List.mem_append, List.mem_filterMap, List.mem_map]
  simp only [Change.tell?_eq_some, List.mem_filter, Option.isNone_iff_eq_none,
    Table.mem_entries hold, Table.mem_entries hnew]
  constructor
  · rintro (⟨⟨id, after⟩, hafter, h⟩ | ⟨⟨id, before⟩, ⟨hbefore, hnone⟩, rfl⟩)
    · exact ⟨id, hafter ▸ h⟩
    · refine ⟨id, ?_⟩
      rw [hbefore, hnone]
      exact .removed before
  · rintro ⟨id, h⟩
    cases hafter : new.get? id with
    | some after => exact Or.inl ⟨(id, after), hafter, hafter ▸ h⟩
    | none =>
      cases hbefore : old.get? id with
      | none =>
        rw [hbefore, hafter] at h
        cases h
      | some before =>
        rw [hbefore, hafter] at h
        exact Or.inr ⟨(id, before), ⟨hbefore, hafter⟩, (Change.tells_none.mp h).symm⟩

/-- **No part is told of twice.** -/
theorem nodup_partChanges (hold : old.keys.Nodup) (hnew : new.keys.Nodup) :
    ((partChanges part old new).map Change.id).Nodup := by
  have hfirst : ((new.entries.filterMap fun e =>
      Change.tell? part e.1 (old.get? e.1) e.2).map Change.id).Sublist new.keys :=
    sublist_filterMap (fun e c hc => (Change.tell?_eq_some.mp hc).id_eq) _
  have hsecond : (((old.entries.filter fun e => (new.get? e.1).isNone).map fun e =>
      ({ kind := .removed, part, id := e.1, before := e.2 } : Change)).map Change.id).Sublist
        old.keys := by
    rw [List.map_map]
    exact List.filter_sublist.map _
  rw [partChanges_eq, List.map_append, List.nodup_append']
  refine ⟨hnew.sublist hfirst, hold.sublist hsecond, fun id hid hid' => ?_⟩
  -- What was removed is not there now.
  rw [List.map_map] at hid'
  obtain ⟨e, he, rfl⟩ := List.mem_map.mp hid'
  have hnone := Option.isNone_iff_eq_none.mp (List.mem_filter.mp he).2
  have hsome := new.mem_keys.mp (hfirst.subset hid)
  rw [Function.comp_apply, hnone] at hsome
  cases hsome

/-! ## Schemas -/

namespace Schema

variable {s : Schema}

/-- **The keys of the fields and the ids of the rules are distinct.** -/
structure Distinct (s : Schema) : Prop where
  keys : s.fieldKeys.Nodup
  ids : (s.rules.map Rule.id).Nodup

theorem keys_fieldValues (h : s.Distinct) : s.fieldValues.keys = s.fieldKeys := by
  rw [Table.keys, fieldValues, Table.entries_foldl_set h.keys, List.map_map]
  rfl

theorem keys_ruleValues (h : s.Distinct) : s.ruleValues.keys = s.rules.map Rule.id := by
  rw [Table.keys, ruleValues, Table.entries_foldl_set h.ids, List.map_map]
  rfl

theorem get?_fieldValues (h : s.Distinct) (key : String) :
    s.fieldValues.get? key = (s.field? key).map Field.toValue := by
  rw [Table.get?, fieldValues, Table.entries_foldl_set h.keys, Table.find_map, field?]
  simp only [beq_eq_decide]

theorem get?_ruleValues (h : s.Distinct) (id : String) :
    s.ruleValues.get? id = (s.rule? id).map Rule.toValue := by
  rw [Table.get?, ruleValues, Table.entries_foldl_set h.ids, Table.find_map, rule?]
  simp only [beq_eq_decide]

/-- The documents of fields by key and of rules by id. The form has none of its own here. -/
def document (s : Schema) : Part → String → Option Value
  | .form, _ => none
  | .field, key => (s.field? key).map Field.toValue
  | .rule, id => (s.rule? id).map Rule.toValue

/-- The names in the documents of the parts of a kind. -/
def partNames : Part → List String
  | .form => []
  | .field => Field.names
  | .rule => Rule.names

theorem nodup_partNames (part : Part) : (partNames part).Nodup := by cases part <;> decide

theorem restrict_document {part : Part} {id : String} {v : Value}
    (h : s.document part id = some v) : v.restrict (partNames part) = v := by
  cases part with
  | form => cases h
  | field =>
    obtain ⟨f, -, rfl⟩ := Option.map_eq_some_iff.mp h
    exact f.restrict_toValue
  | rule =>
    obtain ⟨r, -, rfl⟩ := Option.map_eq_some_iff.mp h
    exact r.restrict_toValue

end Schema

variable {old new : Schema}

theorem mem_formChanges : c ∈ formChanges old new ↔ formDifferences old new ≠ [] ∧
    c = .altered .form new.id (formDifferences old new)
      (old.formValue.restrict (formDifferences old new))
      (new.formValue.restrict (formDifferences old new)) := by
  rw [formChanges, Schema.changedAttributes_formValue]
  split
  · next h => exact iff_of_false List.not_mem_nil fun hne => hne.1 (List.isEmpty_iff.mp h)
  · next h => rw [List.mem_singleton, iff_and_self]; exact fun _ => mt List.isEmpty_iff.mpr h

theorem part_of_mem_formChanges (h : c ∈ formChanges old new) : c.part = .form := by
  rw [(mem_formChanges.mp h).2]
  rfl

theorem mem_partChanges_field (hold : old.Distinct) (hnew : new.Distinct) :
    c ∈ partChanges .field old.fieldValues new.fieldValues ↔
      ∃ key, Change.Tells .field key (old.document .field key) (new.document .field key) c := by
  rw [mem_partChanges (old.keys_fieldValues hold ▸ hold.keys)
    (new.keys_fieldValues hnew ▸ hnew.keys)]
  simp only [Schema.get?_fieldValues hold, Schema.get?_fieldValues hnew, Schema.document]

theorem mem_partChanges_rule (hold : old.Distinct) (hnew : new.Distinct) :
    c ∈ partChanges .rule old.ruleValues new.ruleValues ↔
      ∃ id, Change.Tells .rule id (old.document .rule id) (new.document .rule id) c := by
  rw [mem_partChanges (old.keys_ruleValues hold ▸ hold.ids) (new.keys_ruleValues hnew ▸ hnew.ids)]
  simp only [Schema.get?_ruleValues hold, Schema.get?_ruleValues hnew, Schema.document]

/-- **The changes between two schemas.** -/
theorem mem_changesBetween (hold : old.Distinct) (hnew : new.Distinct) :
    c ∈ changesBetween (some old) new ↔ c ∈ formChanges old new ∨
      ∃ part id, Change.Tells part id (old.document part id) (new.document part id) c := by
  rw [changesBetween, List.mem_append, List.mem_append, mem_partChanges_field hold hnew,
    mem_partChanges_rule hold hnew, or_assoc]
  refine or_congr_right ⟨?_, ?_⟩
  · rintro (⟨id, h⟩ | ⟨id, h⟩)
    · exact ⟨.field, id, h⟩
    · exact ⟨.rule, id, h⟩
  · rintro ⟨- | - | -, id, h⟩
    · cases h
    · exact Or.inl ⟨id, h⟩
    · exact Or.inr ⟨id, h⟩

/-- What a change tells of. -/
def Change.subject (c : Change) : Part × String := (c.part, c.id)

theorem nodup_subject {cs : List Change} (h : (cs.map Change.id).Nodup) :
    (cs.map Change.subject).Nodup := by
  refine List.Nodup.of_map Prod.snd ?_
  rwa [List.map_map]

theorem disjoint_subject {cs ds : List Change} {p q : Part} (hcs : ∀ c ∈ cs, c.part = p)
    (hds : ∀ c ∈ ds, c.part = q) (hpq : p ≠ q) :
    List.Disjoint (cs.map Change.subject) (ds.map Change.subject) := by
  intro x hx hx'
  obtain ⟨c, hc, rfl⟩ := List.mem_map.mp hx
  obtain ⟨d, hd, hcd⟩ := List.mem_map.mp hx'
  exact hpq ((hcs c hc).symm.trans ((congrArg Prod.fst hcd).symm.trans (hds d hd)))

/-- **No part of a schema is told of twice.** -/
theorem nodup_changesBetween (hold : old.Distinct) (hnew : new.Distinct) :
    ((changesBetween (some old) new).map Change.subject).Nodup := by
  have hform : ∀ c ∈ formChanges old new, c.part = .form := fun _ => part_of_mem_formChanges
  have hfield : ∀ c ∈ partChanges .field old.fieldValues new.fieldValues, c.part = .field :=
    fun c hc => by
      obtain ⟨id, h⟩ := (mem_partChanges_field hold hnew).mp hc
      exact h.part_eq
  have hrule : ∀ c ∈ partChanges .rule old.ruleValues new.ruleValues, c.part = .rule :=
    fun c hc => by
      obtain ⟨id, h⟩ := (mem_partChanges_rule hold hnew).mp hc
      exact h.part_eq
  have hforms : ((formChanges old new).map Change.subject).Nodup := by
    rw [formChanges]
    split
    · exact List.nodup_nil
    · exact List.nodup_singleton _
  have hfields := nodup_subject (@nodup_partChanges .field _ _
    (old.keys_fieldValues hold ▸ hold.keys) (new.keys_fieldValues hnew ▸ hnew.keys))
  have hrules := nodup_subject (@nodup_partChanges .rule _ _
    (old.keys_ruleValues hold ▸ hold.ids) (new.keys_ruleValues hnew ▸ hnew.ids))
  rw [changesBetween, List.map_append, List.map_append, List.nodup_append', List.nodup_append',
    List.disjoint_append_left]
  exact ⟨⟨hforms, hfields, disjoint_subject hform hfield (by decide)⟩, hrules,
    disjoint_subject hform hrule (by decide), disjoint_subject hfield hrule (by decide)⟩

/-! ## Completeness -/

/-- **The changes of one kind of part are complete**, given the documents before and after. Two
documents that share a NaN differ in that attribute, even if they are equal. -/
structure Change.Covers (part : Part) (old new : String → Option Value) (cs : List Change) :
    Prop where
  added (id : String) : (∃ c ∈ cs, c.part = part ∧ c.id = id ∧ c.kind = .added) ↔
    old id = none ∧ (new id).isSome = true
  removed (id : String) : (∃ c ∈ cs, c.part = part ∧ c.id = id ∧ c.kind = .removed) ↔
    (old id).isSome = true ∧ new id = none
  changed (id : String) : (∃ c ∈ cs, c.part = part ∧ c.id = id ∧ c.kind = .changed) ↔
    ∃ before after, old id = some before ∧ new id = some after ∧
      (before.equiv after = false ∨
        ∃ k, Value.sharedNaN (before.lookup k) (after.lookup k) = true)
  documents : ∀ c ∈ cs, c.part = part →
    c.before = (old c.id).getD .null ∧ c.after = (new c.id).getD .null
  attributes : ∀ c ∈ cs, c.part = part → c.kind = .changed →
    ∃ attributes, c.details = [(.text "attributes", .texts attributes)] ∧ attributes.Nodup ∧
      ∀ k, k ∈ attributes ↔ (c.before.lookup k).equiv (c.after.lookup k) = false
  plain : ∀ c ∈ cs, c.part = part → c.kind ≠ .changed → c.details = []

/-- **The changes from one schema to another are complete**, and none is made up. -/
structure Change.Exact (old new : Schema) (cs : List Change) : Prop where
  unique : (cs.map Change.subject).Nodup
  form : (∃ c ∈ cs, c.part = .form) ↔ formDifferences old new ≠ []
  formChange : ∀ c ∈ cs, c.part = .form →
    c = .altered .form new.id (formDifferences old new)
      (old.formValue.restrict (formDifferences old new))
      (new.formValue.restrict (formDifferences old new))
  fields : Change.Covers .field (old.document .field) (new.document .field) cs
  rules : Change.Covers .rule (old.document .rule) (new.document .rule) cs

theorem nodup_changedAttributes {names : List String} (hnodup : names.Nodup) {a b : Value}
    (ha : a.restrict names = a) (hb : b.restrict names = b) : (a.changedAttributes b).Nodup := by
  rw [Value.changedAttributes_eq ha hb]
  exact hnodup.filter _

theorem Change.covers_of_tells {names : List String} (hnodup : names.Nodup)
    {old new : String → Option Value} {cs : List Change}
    (hold : ∀ id v, old id = some v → v.restrict names = v)
    (hnew : ∀ id v, new id = some v → v.restrict names = v)
    (h : ∀ c, c ∈ cs ∧ c.part = part ↔ ∃ id, Change.Tells part id (old id) (new id) c) :
    Change.Covers part old new cs := by
  have htell : ∀ c ∈ cs, c.part = part → Change.Tells part c.id (old c.id) (new c.id) c := by
    intro c hc hpart
    obtain ⟨id, hid⟩ := (h c).mp ⟨hc, hpart⟩
    rwa [← hid.id_eq] at hid
  have hmem : ∀ {id : String} {c : Change}, Change.Tells part id (old id) (new id) c → c ∈ cs :=
    fun hc => ((h _).mpr ⟨_, hc⟩).1
  constructor
  case added =>
    refine fun id => ⟨?_, fun ⟨hnone, hsome⟩ => ?_⟩
    · rintro ⟨c, hc, hpart, rfl, hkind⟩
      exact (htell c hc hpart).added_iff.mp hkind
    · obtain ⟨after, hafter⟩ := Option.isSome_iff_exists.mp hsome
      have hc : Change.Tells part id (old id) (new id) { kind := .added, part, id, after } := by
        rw [hnone, hafter]
        exact .added after
      exact ⟨_, hmem hc, rfl, rfl, rfl⟩
  case removed =>
    refine fun id => ⟨?_, fun ⟨hsome, hnone⟩ => ?_⟩
    · rintro ⟨c, hc, hpart, rfl, hkind⟩
      exact (htell c hc hpart).removed_iff.mp hkind
    · obtain ⟨before, hbefore⟩ := Option.isSome_iff_exists.mp hsome
      have hc : Change.Tells part id (old id) (new id) { kind := .removed, part, id, before } := by
        rw [hnone, hbefore]
        exact .removed before
      exact ⟨_, hmem hc, rfl, rfl, rfl⟩
  case changed =>
    refine fun id => ⟨?_, fun ⟨before, after, hbefore, hafter, hdiffer⟩ => ?_⟩
    · rintro ⟨c, hc, hpart, rfl, hkind⟩
      obtain ⟨before, after, hbefore, hafter, hne⟩ := (htell c hc hpart).changed_iff.mp hkind
      exact ⟨before, after, hbefore, hafter,
        (Value.changedAttributes_ne_nil (hold _ _ hbefore) (hnew _ _ hafter)).mp hne⟩
    · have hne := (Value.changedAttributes_ne_nil (hold _ _ hbefore) (hnew _ _ hafter)).mpr hdiffer
      have hc : Change.Tells part id (old id) (new id)
          (.altered part id (before.changedAttributes after) before after) := by
        rw [hbefore, hafter]
        exact .changed hne
      exact ⟨_, hmem hc, rfl, rfl, rfl⟩
  case documents => exact fun c hc hpart => (htell c hc hpart).documents
  case attributes =>
    intro c hc hpart hkind
    have hc := htell c hc hpart
    obtain ⟨before, after, hbefore, hafter, -⟩ := hc.changed_iff.mp hkind
    obtain ⟨hcbefore, hcafter⟩ := hc.documents
    rw [hbefore, Option.getD_some] at hcbefore
    rw [hafter, Option.getD_some] at hcafter
    refine ⟨_, by rw [hc.details, if_pos hkind], ?_, fun k => ?_⟩
    · rw [hcbefore, hcafter]
      exact nodup_changedAttributes hnodup (hold _ _ hbefore) (hnew _ _ hafter)
    · rw [hcbefore, hcafter]
      exact Value.mem_changedAttributes (hold _ _ hbefore) (hnew _ _ hafter)
  case plain =>
    intro c hc hpart hkind
    rw [(htell c hc hpart).details, if_neg hkind]

theorem mem_changesBetween_part (hold : old.Distinct) (hnew : new.Distinct)
    (hform : part ≠ .form) : c ∈ changesBetween (some old) new ∧ c.part = part ↔
      ∃ id, Change.Tells part id (old.document part id) (new.document part id) c := by
  rw [mem_changesBetween hold hnew]
  constructor
  · rintro ⟨hc | ⟨q, id, h⟩, hpart⟩
    · exact absurd (hpart.symm.trans (part_of_mem_formChanges hc)) hform
    · obtain rfl := h.part_eq.symm.trans hpart
      exact ⟨id, h⟩
  · rintro ⟨id, h⟩
    exact ⟨Or.inr ⟨part, id, h⟩, h.part_eq⟩

theorem mem_changesBetween_form (hold : old.Distinct) (hnew : new.Distinct) :
    c ∈ changesBetween (some old) new ∧ c.part = .form ↔ c ∈ formChanges old new := by
  rw [mem_changesBetween hold hnew]
  constructor
  · rintro ⟨hc | ⟨q, id, h⟩, hpart⟩
    · exact hc
    · obtain rfl := h.part_eq.symm.trans hpart
      cases h
  · exact fun h => ⟨Or.inl h, part_of_mem_formChanges h⟩

/-- **The changes between two schemas are complete.** -/
theorem exact_changesBetween (hold : old.Distinct) (hnew : new.Distinct) :
    Change.Exact old new (changesBetween (some old) new) := by
  have hcovers : ∀ {part : Part}, part ≠ .form →
      Change.Covers part (old.document part) (new.document part) (changesBetween (some old) new) :=
    fun hform => Change.covers_of_tells (Schema.nodup_partNames _)
      (fun _ _ => Schema.restrict_document) (fun _ _ => Schema.restrict_document)
      (fun _ => mem_changesBetween_part hold hnew hform)
  refine ⟨nodup_changesBetween hold hnew, ?_, fun c hc hpart => ?_, hcovers (by decide),
    hcovers (by decide)⟩
  · simp only [mem_changesBetween_form hold hnew, mem_formChanges, exists_and_left, exists_eq,
      and_true]
  · exact (mem_formChanges.mp ((mem_changesBetween_form hold hnew).mp ⟨hc, hpart⟩)).2

end LiveForm
