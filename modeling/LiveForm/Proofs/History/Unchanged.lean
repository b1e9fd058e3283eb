import LiveForm.Proofs.History.Patch
import LiveForm.Proofs.History.Twin
import LiveForm.Proofs.Value.Akin

/-!
# Schemas without changes

No changes are told from one schema to another when their parts are equal, by the keys of fields and
the ids of rules. Their documents are equal when fields and rules come in the same order besides,
and these have one text when what is equal is of the same kind.

* `Table.filled`, `Table.forall₂_alike_iff`: tables that are filled from lists;
* **`changesBetween_eq_nil_iff`**: no changes are told just when all parts are equal;
* **`Schema.equiv_toValue_iff`**: documents are equal just when the order is the same besides;
* `Schema.alike_parts_of_perm`: another order alone makes equal parts;
* `canonicalJson_eq_iff`, **`Schema.text_eq_iff`**: when two schemas have one text.
-/

namespace LiveForm

open Value

/-! ## Filled tables -/

namespace Table

variable {α β : Type} {key : α → String} {value : α → β} {xs ys : List α} {x : α}

/-- A table that is filled with the members of a list, one by one. -/
def filled (xs : List α) (key : α → String) (value : α → β) : Table String β :=
  xs.foldl (fun t x => t.set (key x) (value x)) .empty

theorem entries_filled (h : (xs.map key).Nodup) :
    (filled xs key value).entries = xs.map fun x => (key x, value x) := entries_foldl_set h value

theorem nodup_keys_filled (h : (xs.map key).Nodup) : (filled xs key value).keys.Nodup := by
  rwa [keys, entries_filled h, List.map_map]

theorem get?_filled (h : (xs.map key).Nodup) (hx : x ∈ xs) :
    (filled xs key value).get? (key x) = some (value x) := by
  rw [← mem_entries (nodup_keys_filled h) (e := (key x, value x)), entries_filled h]
  exact List.mem_map_of_mem hx

theorem get?_filled_of_perm (h : (xs.map key).Nodup) (hperm : xs.Perm ys) (k : String) :
    (filled xs key value).get? k = (filled ys key value).get? k := by
  have hys : (ys.map key).Nodup := (hperm.map key).nodup_iff.mp h
  refine Option.ext fun v => ?_
  rw [← mem_entries (nodup_keys_filled h) (e := (k, v)),
    ← mem_entries (nodup_keys_filled hys) (e := (k, v)), entries_filled h, entries_filled hys,
    (hperm.map _).mem_iff]

theorem forall₂_alike_iff {value : α → Value} (h : (xs.map key).Nodup)
    (hkeys : ys.map key = xs.map key) :
    List.Forall₂ (fun x y => (value x).alike (value y) = true) xs ys ↔
      (filled xs key value).Alike (filled ys key value) := by
  have hlength : xs.length = ys.length := by simpa using (congrArg List.length hkeys).symm
  have hkey : ∀ i (hi : i < xs.length) (hi' : i < ys.length), key ys[i] = key xs[i] := by
    intro i hi hi'
    simpa [hi, hi'] using congrArg (·[i]?) hkeys
  constructor
  · intro halike
    have hboth : List.Forall₂ (fun x y => key y = key x ∧ (value x).alike (value y) = true) xs ys :=
      List.forall₂_iff_get.mpr ⟨hlength, fun i hi hi' => ⟨hkey i hi hi', halike.get hi hi'⟩⟩
    have hfilled : Rel (fun v w => v.alike w = true) (filled xs key value) (filled ys key value) :=
      @Rel.foldl _ _ _ _ _ _ _ _ key key value value And.left And.right _ _ hboth .empty
    exact hfilled.get?
  · refine fun halike => List.forall₂_iff_get.mpr ⟨hlength, fun i hi hi' => ?_⟩
    have hrel := halike (key xs[i])
    rw [get?_filled h (List.getElem_mem hi), ← hkey i hi hi',
      get?_filled (hkeys ▸ h) (List.getElem_mem hi')] at hrel
    cases hrel with
    | some hrel => exact hrel

end Table

variable {old new s : Schema}

/-! ## Schemas without changes -/

namespace Schema

theorem legible_document (h : s.Distinct) (hs : Legible s.toValue) {part : Part} {id : String}
    {v : Value} (hv : s.document part id = some v) : Legible v := by
  cases part with
  | form => cases hv
  | field =>
    obtain ⟨k, hmem⟩ := s.fieldValues.exists_mem_of_get? ((get?_fieldValues h id).trans hv)
    exact legible_fieldValues hs _ hmem
  | rule =>
    obtain ⟨k, hmem⟩ := s.ruleValues.exists_mem_of_get? ((get?_ruleValues h id).trans hv)
    exact legible_ruleValues hs _ hmem

end Schema

theorem changedAttributes_eq_nil {names : List String} {a b : Value} (ha : a.restrict names = a)
    (hb : b.restrict names = b) (hs : Storable a) (h : a.alike b = true) :
    a.changedAttributes b = [] := by
  by_contra hne
  rcases (changedAttributes_ne_nil ha hb).mp hne with hdiffer | ⟨k, hshared⟩
  · rw [equiv_of_alike hs h] at hdiffer
    cases hdiffer
  · rw [(hs.lookup k).sharedNaN_eq_false] at hshared
    cases hshared

/-- **No changes are told just when all parts are equal**, the fields by key and the rules by id. -/
theorem changesBetween_eq_nil_iff (hold : old.Distinct) (hnew : new.Distinct)
    (hlegible : Legible old.toValue) :
    changesBetween (some old) new = [] ↔ ∀ part, (old.parts part).Alike (new.parts part) := by
  constructor
  · intro hnil part
    exact applied_changesBetween hold hnew (List.perm_nil.mpr hnil).symm part
  · intro halike
    refine List.eq_nil_iff_forall_not_mem.mpr fun c hc => ?_
    rcases (mem_changesBetween hold hnew).mp hc with hform | ⟨part, id, h⟩
    · obtain ⟨key, hkey⟩ := List.exists_mem_of_ne_nil _ (mem_formChanges.mp hform).1
      have hrel := halike .form key
      rw [get?_parts_form, get?_parts_form, if_pos (formDifferences_subset hkey),
        if_pos (formDifferences_subset hkey)] at hrel
      cases hrel with
      | some hrel =>
        have hstorable := (Schema.legible_formValue hlegible).storable.lookup key
        rw [mem_formDifferences, equiv_of_alike hstorable hrel] at hkey
        cases hkey
    · have hform : part ≠ .form := by
        rintro rfl
        cases h
      have hrel := halike part id
      rw [get?_parts hold hform, get?_parts hnew hform] at hrel
      generalize hbefore : old.document part id = before at hrel h
      generalize hafter : new.document part id = after at hrel h
      cases h with
      | added | removed => cases hrel
      | changed hne =>
        cases hrel with
        | some hrel =>
          exact hne (changedAttributes_eq_nil (Schema.restrict_document hbefore)
            (Schema.restrict_document hafter)
            (Schema.legible_document hold hlegible hbefore).storable hrel)

/-! ## Equal documents -/

theorem text_eq_of_alike {names : List String} {a b : Value} {x y : String} (key : String)
    (ha : a.restrict names = a) (hb : b.restrict names = b) (hshared : sharedNaN a b = false)
    (hkey : key ∈ names) (hx : a.lookup key = text x) (hy : b.lookup key = text y)
    (h : a.alike b = true) : y = x := by
  rw [alike, hshared, Bool.false_or] at h
  have hplace := (equiv_iff_of_restrict ha hb).mp h key hkey
  rw [hx, hy, alike_text, decide_eq_true_eq] at hplace
  exact hplace.symm

theorem Field.key_eq_of_alike {f g : Field} : f.toValue.alike g.toValue = true → g.key = f.key :=
  text_eq_of_alike "key" f.restrict_toValue g.restrict_toValue rfl (by simp [names])
    (by simp [toValue, lookup_record_cons]) (by simp [toValue, lookup_record_cons])

theorem Rule.id_eq_of_alike {r q : Rule} : r.toValue.alike q.toValue = true → q.id = r.id :=
  text_eq_of_alike "id" r.restrict_toValue q.restrict_toValue rfl (by simp [names])
    (by simp [toValue, lookup_record_cons]) (by simp [toValue, lookup_record_cons])

namespace Schema

/-- The names in the document of a schema. -/
def names : List String := ["id", "version", "title", "description", "fields", "rules", "layout"]

theorem restrict_toValue (s : Schema) : s.toValue.restrict names = s.toValue := by
  simp [toValue, restrict, names, lookup_record_cons]

theorem forall_mem_names {P : String → Prop} :
    (∀ k ∈ names, P k) ↔ (∀ k ∈ formAttributes, P k) ∧ P "fields" ∧ P "rules" := by
  simp only [names, formAttributes, List.forall_mem_cons, List.not_mem_nil]
  tauto

/-- **The fields come in the same order, and so do the rules**, by their keys and ids. -/
structure SameOrder (old new : Schema) : Prop where
  fields : new.fieldKeys = old.fieldKeys
  rules : new.rules.map Rule.id = old.rules.map Rule.id

theorem alike_list_map_iff {α : Type} {key : α → String} {doc : α → Value} {xs ys : List α}
    (hxs : (xs.map key).Nodup)
    (hkey : ∀ x y, (doc x).alike (doc y) = true → key y = key x) :
    alike (list (xs.map doc)) (list (ys.map doc)) = true ↔
      ys.map key = xs.map key ∧ (Table.filled xs key doc).Alike (Table.filled ys key doc) := by
  rw [alike_list_iff, List.forall₂_map_left_iff, List.forall₂_map_right_iff]
  constructor
  · intro halike
    have hkeys : ys.map key = xs.map key := by
      induction halike with
      | nil => rfl
      | cons hxy _ ih =>
        rw [List.map_cons, List.map_cons, hkey _ _ hxy, ih hxs.of_cons]
    exact ⟨hkeys, (Table.forall₂_alike_iff hxs hkeys).mp halike⟩
  · rintro ⟨hkeys, halike⟩
    exact (Table.forall₂_alike_iff hxs hkeys).mpr halike

theorem lookup_fields (s : Schema) :
    s.toValue.lookup "fields" = list (s.fields.map Field.toValue) := by
  simp [toValue, lookup_record_cons]

theorem lookup_rules (s : Schema) : s.toValue.lookup "rules" = list (s.rules.map Rule.toValue) := by
  simp [toValue, lookup_record_cons]

theorem alike_parts_form : (old.parts .form).Alike (new.parts .form) ↔
    ∀ k ∈ formAttributes, (old.toValue.lookup k).alike (new.toValue.lookup k) = true := by
  have hlookup : ∀ (s : Schema) {k : String}, k ∈ formAttributes →
      s.formValue.lookup k = s.toValue.lookup k := fun s k hk => by
    rw [formValue, lookup_restrict, if_pos hk]
  constructor
  · intro h k hk
    have hrel := h k
    rw [get?_parts_form, get?_parts_form, if_pos hk, if_pos hk, hlookup old hk, hlookup new hk]
      at hrel
    cases hrel with
    | some hrel => exact hrel
  · intro h k
    rw [get?_parts_form, get?_parts_form]
    split
    · next hk =>
      rw [hlookup old hk, hlookup new hk]
      exact .some (h k hk)
    · exact .none

/-- **Documents are equal just when all parts are, in the same order.** -/
theorem equiv_toValue_iff (hold : old.Distinct) :
    old.toValue.equiv new.toValue = true ↔
      (∀ part, (old.parts part).Alike (new.parts part)) ∧ old.SameOrder new := by
  have hparts : (∀ part, (old.parts part).Alike (new.parts part)) ↔
      (old.parts .form).Alike (new.parts .form) ∧ (old.parts .field).Alike (new.parts .field) ∧
        (old.parts .rule).Alike (new.parts .rule) :=
    ⟨fun h => ⟨h .form, h .field, h .rule⟩, fun ⟨hform, hfield, hrule⟩ part => by
      cases part with
      | form => exact hform
      | field => exact hfield
      | rule => exact hrule⟩
  have hfields : (old.toValue.lookup "fields").alike (new.toValue.lookup "fields") = true ↔
      new.fieldKeys = old.fieldKeys ∧ (old.parts .field).Alike (new.parts .field) := by
    rw [lookup_fields, lookup_fields]
    exact alike_list_map_iff hold.keys fun _ _ => Field.key_eq_of_alike
  have hrules : (old.toValue.lookup "rules").alike (new.toValue.lookup "rules") = true ↔
      new.rules.map Rule.id = old.rules.map Rule.id ∧
        (old.parts .rule).Alike (new.parts .rule) := by
    rw [lookup_rules, lookup_rules]
    exact alike_list_map_iff hold.ids fun _ _ => Rule.id_eq_of_alike
  rw [equiv_iff_of_restrict old.restrict_toValue new.restrict_toValue, forall_mem_names, hfields,
    hrules, hparts, alike_parts_form]
  constructor
  · rintro ⟨hform, ⟨hkeys, hfield⟩, hids, hrule⟩
    exact ⟨⟨hform, hfield, hrule⟩, hkeys, hids⟩
  · rintro ⟨⟨hform, hfield, hrule⟩, hkeys, hids⟩
    exact ⟨hform, ⟨hkeys, hfield⟩, hids, hrule⟩

/-- Fields and rules that only come in another order make equal parts. -/
theorem alike_parts_of_perm (hold : old.Distinct) (hfields : old.fields.Perm new.fields)
    (hrules : old.rules.Perm new.rules) (hform : formDifferences old new = []) (part : Part) :
    (old.parts part).Alike (new.parts part) := by
  have hsame : ∀ v : Option Value, Option.Rel (fun v w => v.alike w = true) v v := fun v => by
    cases v with
    | none => exact .none
    | some v => exact .some (alike_refl v)
  intro key
  cases part with
  | form =>
    have hrel := @rel_form old new key
    rwa [hform, if_neg List.not_mem_nil] at hrel
  | field =>
    have hget : old.fieldValues.get? key = new.fieldValues.get? key :=
      Table.get?_filled_of_perm hold.keys hfields key
    exact hget ▸ hsame _
  | rule =>
    have hget : old.ruleValues.get? key = new.ruleValues.get? key :=
      Table.get?_filled_of_perm hold.ids hrules key
    exact hget ▸ hsame _

end Schema

/-! ## Texts -/

/-- **One text is that of rearranged documents.** -/
theorem canonicalJson_eq_iff {a b : Value} {t u : String} (ha : Storable a) (hb : Storable b)
    (ht : canonicalJson a = .ok t) (hu : canonicalJson b = .ok u) : u = t ↔ Rearranged a b := by
  obtain rfl := Except.ok.inj ((legible_of_canonicalJson ha ht).canonicalJson_eq.symm.trans ht)
  obtain rfl := Except.ok.inj ((legible_of_canonicalJson hb hu).canonicalJson_eq.symm.trans hu)
  constructor
  · intro h
    have htree := tree_eq_of_compact ha hb h.symm
    exact (Json.rearranged_toValue ha).symm.trans (htree ▸ Json.rearranged_toValue hb)
  · intro h
    rw [Json.tree_eq_of_rearranged h ha]

/-- **Two schemas have one text** just when their parts are equal, in the same order, and what is
equal is of the same kind. -/
theorem Schema.text_eq_iff (hdistinct : old.Distinct) (hold : Legible old.toValue)
    (hnew : Legible new.toValue) {t u : String} (ht : canonicalJson old.toValue = .ok t)
    (hu : canonicalJson new.toValue = .ok u) :
    u = t ↔ (∀ part, (old.parts part).Alike (new.parts part)) ∧ old.SameOrder new ∧
      Akin old.toValue new.toValue := by
  rw [canonicalJson_eq_iff hold.storable hnew.storable ht hu,
    rearranged_iff hold.storable hnew.storable, equiv_toValue_iff hdistinct, and_assoc]

end LiveForm
