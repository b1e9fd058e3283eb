import LiveForm.Proofs.History.Change
import LiveForm.Proofs.Json.Legible
import LiveForm.Proofs.Schema.Reread

/-!
# Changes between twins

Twins are told apart by nothing that a change tells: the changes between two schemas are those
between their twins, but for the order of entries in the documents before and after.

* `Value.DocTwin`: two documents with the same names, rearranged;
* `Table.Rel`, `Table.Rel.set`, `Table.Rel.get?`: tables with the same keys and related values;
* `Change.Twin`: two changes that are the same up to the order of entries;
* **`changesBetween_twin`**: twins have the same changes;
* `Change.Sound`, **`sound_changesBetween`**: what is told comes back from its text.
-/

namespace LiveForm

open Value

/-! ## Documents -/

/-- Two documents with these names that are rearranged. -/
structure Value.DocTwin (names : List String) (v w : Value) : Prop where
  left : v.restrict names = v
  right : w.restrict names = w
  rearranged : Rearranged v w
  storable : Storable v

namespace Value

variable {a a' b b' : Value} {names : List String}

theorem equiv_eq_of_rearranged (ha : Rearranged a a') (hb : Rearranged b b') (hsa : Storable a)
    (hsb : Storable b) : equiv a b = equiv a' b' := by
  have haa' := ha.equiv hsa
  have hbb' := hb.equiv hsb
  have ha'a := ha.symm.equiv (hsa.rearranged ha)
  have hb'b := hb.symm.equiv (hsb.rearranged hb)
  exact Bool.eq_iff_iff.mpr ⟨fun h => equiv_trans _ ha'a (equiv_trans _ h hbb'),
    fun h => equiv_trans _ haa' (equiv_trans _ h hb'b)⟩

theorem DocTwin.changedAttributes (ha : DocTwin names a a') (hb : DocTwin names b b') :
    a'.changedAttributes b' = a.changedAttributes b := by
  rw [changedAttributes_eq ha.left hb.left, changedAttributes_eq ha.right hb.right]
  refine List.filter_congr fun k _ => ?_
  rw [equiv_eq_of_rearranged (ha.rearranged.lookup ha.storable k)
    (hb.rearranged.lookup hb.storable k) (ha.storable.lookup k) (hb.storable.lookup k)]

theorem rearranged_of_restrict (ha : a.restrict names = a) (hb : b.restrict names = b)
    (h : ∀ k ∈ names, Rearranged (a.lookup k) (b.lookup k)) : Rearranged a b := by
  have hmap : ∀ v : Value, v.restrict names = map (names.map fun k => (text k, v.lookup k)) := by
    intro v
    rw [restrict, record, fields, List.map_map]
    rfl
  rw [← ha, ← hb, hmap a, hmap b]
  refine .map (by rw [List.map_map, List.map_map]; rfl) fun k v w hv hw => ?_
  obtain ⟨name, hname, heq⟩ := List.mem_map.mp hv
  obtain ⟨name', -, heq'⟩ := List.mem_map.mp hw
  obtain ⟨rfl, rfl⟩ := Prod.mk.inj heq
  obtain ⟨hkey, rfl⟩ := Prod.mk.inj heq'
  obtain rfl := Value.text.inj hkey
  exact h _ hname

end Value

theorem Choice.Twin.rearranged {c c' : Choice} (h : c.Twin c') (hs : Storable c.toValue) :
    Rearranged c.toValue c'.toValue := by
  have hnames : ∀ c : Choice, c.toValue.restrict ["value", "label"] = c.toValue := fun c => by
    simp [toValue, restrict, lookup_record_cons]
  have hvalue : Storable c.value.encode := hs.of_record _ List.mem_cons_self
  refine rearranged_of_restrict (hnames c) (hnames c') ?_
  simp only [List.forall_mem_cons, toValue, lookup_record_cons, String.reduceEq, if_true, if_false,
    h.label]
  exact ⟨h.value.encode hvalue, .text _, fun _ hk => absurd hk List.not_mem_nil⟩

theorem Field.Twin.docTwin {f f' : Field} (h : f.Twin f') (hs : Storable f.toValue) :
    DocTwin names f.toValue f'.toValue := by
  refine ⟨f.restrict_toValue, f'.restrict_toValue, ?_, hs⟩
  have hdefault : Rearranged f.default.encode f'.default.encode :=
    h.default.encode (by simpa [toValue, lookup_record_cons] using hs.lookup "default_value")
  have hconstraints : Rearranged f.constraints.toValue f.constraints.toValue := by
    have hstorable := hs.lookup "constraints"
    simp only [toValue, lookup_record_cons, String.reduceEq, if_true, if_false] at hstorable
    exact hstorable.rearranged_self
  have hformula : Rearranged ((f.formula.map Formula.toValue).getD null)
      ((f.formula.map Formula.toValue).getD null) := by
    have hstorable := hs.lookup "computation"
    simp only [toValue, lookup_record_cons, String.reduceEq, if_true, if_false] at hstorable
    exact hstorable.rearranged_self
  have hsoptions : ∀ c ∈ f.choices, Storable c.toValue := by
    have hlist : Storable (list (f.choices.map Choice.toValue)) := by
      simpa [toValue, lookup_record_cons] using hs.lookup "options"
    exact List.forall_mem_map.mp (storable_list.mp hlist)
  have hoptions : Rearranged (list (f.choices.map Choice.toValue))
      (list (f'.choices.map Choice.toValue)) := by
    rw [rearranged_list_iff, List.forall₂_map_left_iff, List.forall₂_map_right_iff]
    exact ((List.forall₂_and_left _ _).mpr ⟨hsoptions, h.choices⟩).imp
      fun _ _ hc => hc.2.rearranged hc.1
  refine rearranged_of_restrict f.restrict_toValue f'.restrict_toValue ?_
  have hrest := h.rest
  clear hs h hsoptions
  cases f
  cases hrest
  simp only [names, List.forall_mem_cons, toValue, lookup_record_cons, String.reduceEq, if_true,
    if_false]
  exact ⟨.text _, .text _, .text _, hdefault, hconstraints, hoptions, .bool _, hformula,
    fun _ hk => absurd hk List.not_mem_nil⟩

theorem Rule.Twin.docTwin {r r' : Rule} (h : r.Twin r') (hs : Storable r.toValue) :
    DocTwin names r.toValue r'.toValue := by
  refine ⟨r.restrict_toValue, r'.restrict_toValue, ?_, hs⟩
  have hcompare : Rearranged r.compare.encode r'.compare.encode :=
    h.compare.encode (by simpa [toValue, lookup_record_cons] using hs.lookup "compare_value")
  have heffect : Rearranged r.effectValue.encode r'.effectValue.encode :=
    h.effectValue.encode (by simpa [toValue, lookup_record_cons] using hs.lookup "effect_value")
  refine rearranged_of_restrict r.restrict_toValue r'.restrict_toValue ?_
  have hrest := h.rest
  clear hs h
  cases r
  cases hrest
  simp only [names, List.forall_mem_cons, toValue, lookup_record_cons, String.reduceEq, if_true,
    if_false]
  exact ⟨.text _, .text _, .text _, .text _, hcompare, .text _, .text _, heffect,
    fun _ hk => absurd hk List.not_mem_nil⟩

/-! ## Tables -/

/-- Two tables with the same keys and related values. -/
def Table.Rel {α β : Type} (R : α → β → Prop) (t : Table String α) (t' : Table String β) : Prop :=
  List.Forall₂ (fun e e' => e'.1 = e.1 ∧ R e.2 e'.2) t.entries t'.entries

namespace Table

variable {α β : Type} {R : α → β → Prop} {t : Table String α} {t' : Table String β} {v : α} {w : β}

theorem Rel.empty : Rel R (.empty : Table String α) (.empty : Table String β) := .nil

theorem Rel.set (h : Rel R t t') (key : String) (hvw : R v w) :
    Rel R (t.set key v) (t'.set key w) := by
  obtain ⟨es⟩ := t
  obtain ⟨es'⟩ := t'
  change List.Forall₂ _ es es' at h
  change List.Forall₂ _ (put key v es) (put key w es')
  induction h with
  | nil => exact .cons ⟨rfl, hvw⟩ .nil
  | @cons e e' es es' he hes ih =>
    rw [put, put, he.1]
    split
    · exact .cons ⟨rfl, hvw⟩ hes
    · exact .cons ⟨rfl, he.2⟩ ih

theorem Rel.get? (h : Rel R t t') (key : String) : Option.Rel R (t.get? key) (t'.get? key) := by
  obtain ⟨es⟩ := t
  obtain ⟨es'⟩ := t'
  change List.Forall₂ _ es es' at h
  change Option.Rel R (find key es) (find key es')
  induction h with
  | nil => exact .none
  | @cons e e' es es' he hes ih =>
    rw [find, find, he.1]
    split
    · exact .some he.2
    · exact ih

theorem Rel.foldl {γ δ : Type} {S : γ → δ → Prop} {key : γ → String} {key' : δ → String}
    {value : γ → α} {value' : δ → β} (hkey : ∀ {c d}, S c d → key' d = key c)
    (hvalue : ∀ {c d}, S c d → R (value c) (value' d)) {cs : List γ} {ds : List δ}
    (h : List.Forall₂ S cs ds) (ht : Rel R t t') :
    Rel R (cs.foldl (fun t c => t.set (key c) (value c)) t)
      (ds.foldl (fun t d => t.set (key' d) (value' d)) t') := by
  induction h generalizing t t' with
  | nil => exact ht
  | @cons c d cs ds hcd _ ih =>
    rw [List.foldl_cons, List.foldl_cons, hkey hcd]
    exact ih (ht.set _ (hvalue hcd))

end Table

/-! ## Changes -/

/-- **Two changes are the same up to the order of entries** in their documents. -/
structure Change.Twin (c c' : Change) : Prop where
  before : Rearranged c.before c'.before
  after : Rearranged c.after c'.after
  rest : { c' with before := c.before, after := c.after } = c

theorem Change.tell?_twin {names : List String} {part : Part} {id : String}
    {before before' : Option Value} {after after' : Value}
    (hbefore : Option.Rel (DocTwin names) before before') (hafter : DocTwin names after after') :
    Option.Rel Change.Twin (tell? part id before after) (tell? part id before' after') := by
  cases hbefore with
  | none => exact .some ⟨.null, hafter.rearranged, rfl⟩
  | some hbefore =>
    rw [tell?, tell?, hbefore.changedAttributes hafter]
    split
    · exact .none
    · exact .some ⟨hbefore.rearranged, hafter.rearranged, rfl⟩

theorem partChanges_twin {names : List String} (part : Part)
    {old old' new new' : Table String Value}
    (hold : old.Rel (DocTwin names) old') (hnew : new.Rel (DocTwin names) new') :
    List.Forall₂ Change.Twin (partChanges part old new) (partChanges part old' new') := by
  rw [partChanges_eq, partChanges_eq]
  refine List.rel_append (List.rel_filterMap ?_ hnew) (List.rel_map ?_ (List.rel_filter ?_ hold))
  · rintro ⟨id, after⟩ ⟨id', after'⟩ ⟨hid, hafter⟩
    obtain rfl : id' = id := hid
    exact Change.tell?_twin (hold.get? _) hafter
  · rintro ⟨id, before⟩ ⟨id', before'⟩ ⟨hid, hbefore⟩
    obtain rfl : id' = id := hid
    exact ⟨hbefore.rearranged, .null, rfl⟩
  · rintro ⟨id, before⟩ ⟨id', before'⟩ ⟨hid, -⟩
    obtain rfl : id' = id := hid
    have hrel := hnew.get? id'
    dsimp only
    generalize new.get? id' = v at hrel
    generalize new'.get? id' = w at hrel
    cases hrel <;> rfl

/-! ## Schemas -/

variable {s s' t t' : Schema}

theorem Schema.Twin.fieldValues (h : s.Twin s') (hs : Storable s.toValue) :
    s.fieldValues.Rel (DocTwin Field.names) s'.fieldValues := by
  have hdocs : ∀ f ∈ s.fields, Storable f.toValue := by
    have hlist : Storable (list (s.fields.map Field.toValue)) := by
      simpa [toValue, lookup_record_cons] using hs.lookup "fields"
    exact List.forall_mem_map.mp (storable_list.mp hlist)
  exact Table.Rel.foldl (fun hf => hf.2.key_eq) (fun hf => hf.2.docTwin hf.1)
    ((List.forall₂_and_left _ _).mpr ⟨hdocs, h.fields⟩) .empty

theorem Schema.Twin.ruleValues (h : s.Twin s') (hs : Storable s.toValue) :
    s.ruleValues.Rel (DocTwin Rule.names) s'.ruleValues := by
  have hdocs : ∀ r ∈ s.rules, Storable r.toValue := by
    have hlist : Storable (list (s.rules.map Rule.toValue)) := by
      simpa [toValue, lookup_record_cons] using hs.lookup "rules"
    exact List.forall_mem_map.mp (storable_list.mp hlist)
  exact Table.Rel.foldl (fun hr => by rw [← hr.2.rest]) (fun hr => hr.2.docTwin hr.1)
    ((List.forall₂_and_left _ _).mpr ⟨hdocs, h.rules⟩) .empty

theorem Schema.Twin.formValue (h : s.Twin s') : s'.formValue = s.formValue := by
  rw [← h.rest]
  simp [Schema.formValue, restrict, formAttributes, toValue, lookup_record_cons]

theorem Schema.Twin.id_eq (h : s.Twin s') : s'.id = s.id := by rw [← h.rest]

theorem formChanges_twin (hs : s.Twin s') (ht : t.Twin t') :
    formChanges s' t' = formChanges s t := by
  rw [formChanges, formChanges, hs.formValue, ht.formValue, ht.id_eq]

/-! ## What comes back from a text -/

namespace Value

variable {v : Value} {keys : List String}

theorem Legible.restrict (h : Legible v) (hkeys : keys.Nodup) : Legible (v.restrict keys) := by
  have hnames : (keys.map fun k => (k, v.lookup k)).map Prod.fst = keys := by
    rw [List.map_map]
    exact List.map_id' keys
  refine legible_record (by rw [hnames]; exact hkeys) ?_
  rw [List.forall_mem_map]
  exact fun k _ => h.lookup k

end Value

/-- **What a change tells comes back from its text**, with nothing to rearrange in its details. -/
structure Change.Sound (c : Change) : Prop where
  before : Legible c.before
  after : Legible c.after
  details : c.details = [] ∨
    ∃ attributes, c.details = [(.text "attributes", .texts attributes)]

theorem Change.Sound.twin_self {c : Change} (h : c.Sound) : c.Twin c :=
  ⟨h.before.storable.rearranged_self, h.after.storable.rearranged_self, rfl⟩

theorem Change.Sound.twin {c c' : Change} (h : c.Sound) (htwin : c.Twin c') : c'.Sound := by
  refine ⟨h.before.rearranged htwin.before, h.after.rearranged htwin.after, ?_⟩
  have hdetails := h.details
  rwa [← htwin.rest] at hdetails

theorem Table.forall_foldl_set {α γ : Type} {P : α → Prop} {key : γ → String} {value : γ → α}
    {cs : List γ} (h : ∀ c ∈ cs, P (value c)) {t : Table String α} (ht : ∀ e ∈ t.entries, P e.2) :
    ∀ e ∈ (cs.foldl (fun t c => t.set (key c) (value c)) t).entries, P e.2 := by
  have hput : ∀ {es : List (String × α)} {k : String} {v : α}, P v → (∀ e ∈ es, P e.2) →
      ∀ e ∈ put k v es, P e.2 := by
    intro es k v hv
    induction es with
    | nil => exact fun _ => List.forall_mem_singleton.mpr hv
    | cons e es ih =>
      intro hes
      obtain ⟨he, hes⟩ := List.forall_mem_cons.mp hes
      rw [put]
      split
      · exact List.forall_mem_cons.mpr ⟨hv, hes⟩
      · exact List.forall_mem_cons.mpr ⟨he, ih hes⟩
  induction cs generalizing t with
  | nil => exact ht
  | cons c cs ih =>
    obtain ⟨hc, hcs⟩ := List.forall_mem_cons.mp h
    exact ih hcs (hput hc ht)

theorem Change.Tells.sound {part : Part} {id : String} {old new : Option Value} {c : Change}
    (h : Change.Tells part id old new c) (hold : ∀ v, old = some v → Legible v)
    (hnew : ∀ v, new = some v → Legible v) : c.Sound := by
  cases h with
  | added after => exact ⟨legible_null, hnew _ rfl, Or.inl rfl⟩
  | changed _ => exact ⟨hold _ rfl, hnew _ rfl, Or.inr ⟨_, rfl⟩⟩
  | removed before => exact ⟨hold _ rfl, legible_null, Or.inl rfl⟩

theorem sound_partChanges {part : Part} {old new : Table String Value}
    (hold : ∀ e ∈ old.entries, Legible e.2) (hnew : ∀ e ∈ new.entries, Legible e.2) :
    ∀ c ∈ partChanges part old new, c.Sound := by
  intro c hc
  rw [partChanges_eq, List.mem_append, List.mem_filterMap, List.mem_map] at hc
  rcases hc with ⟨e, he, hc⟩ | ⟨e, he, rfl⟩
  · refine (Change.tell?_eq_some.mp hc).sound (fun v hv => ?_) fun v hv => ?_
    · obtain ⟨k, hmem⟩ := old.exists_mem_of_get? hv
      exact hold _ hmem
    · exact Option.some.inj hv ▸ hnew e he
  · exact ⟨hold e (List.mem_of_mem_filter he), legible_null, Or.inl rfl⟩

theorem Schema.legible_fieldValues (hs : Legible s.toValue) :
    ∀ e ∈ s.fieldValues.entries, Legible e.2 := by
  have hlist : Legible (list (s.fields.map Field.toValue)) := by
    simpa [toValue, lookup_record_cons] using hs.lookup "fields"
  exact Table.forall_foldl_set (List.forall_mem_map.mp (legible_list.mp hlist))
    (by simp [Table.empty])

theorem Schema.legible_ruleValues (hs : Legible s.toValue) :
    ∀ e ∈ s.ruleValues.entries, Legible e.2 := by
  have hlist : Legible (list (s.rules.map Rule.toValue)) := by
    simpa [toValue, lookup_record_cons] using hs.lookup "rules"
  exact Table.forall_foldl_set (List.forall_mem_map.mp (legible_list.mp hlist))
    (by simp [Table.empty])

theorem Schema.legible_formValue (hs : Legible s.toValue) : Legible s.formValue :=
  hs.restrict (by decide)

theorem sound_formChanges (hs : Legible s.toValue) (ht : Legible t.toValue) :
    ∀ c ∈ formChanges s t, c.Sound := by
  intro c hc
  have hnodup : (formDifferences s t).Nodup := by
    rw [← Schema.changedAttributes_formValue]
    exact nodup_changedAttributes (by decide) s.restrict_formValue t.restrict_formValue
  obtain ⟨-, rfl⟩ := mem_formChanges.mp hc
  exact ⟨(Schema.legible_formValue hs).restrict hnodup,
    (Schema.legible_formValue ht).restrict hnodup, Or.inr ⟨_, rfl⟩⟩

/-- **The changes between schemas come back from their text** when the schemas do. -/
theorem sound_changesBetween {old : Option Schema} (hold : ∀ s, old = some s → Legible s.toValue)
    (hnew : Legible t.toValue) : ∀ c ∈ changesBetween old t, c.Sound := by
  have hempty : ∀ e ∈ (Table.empty : Table String Value).entries, Legible e.2 := by
    simp [Table.empty]
  cases old with
  | none =>
    rw [changesBetween]
    refine List.forall_mem_cons.mpr ⟨⟨legible_null, Schema.legible_formValue hnew, Or.inl rfl⟩, ?_⟩
    exact List.forall_mem_append.mpr ⟨sound_partChanges hempty (Schema.legible_fieldValues hnew),
      sound_partChanges hempty (Schema.legible_ruleValues hnew)⟩
  | some s =>
    have hs := hold s rfl
    rw [changesBetween, List.forall_mem_append, List.forall_mem_append]
    exact ⟨⟨sound_formChanges hs hnew,
      sound_partChanges (Schema.legible_fieldValues hs) (Schema.legible_fieldValues hnew)⟩,
      sound_partChanges (Schema.legible_ruleValues hs) (Schema.legible_ruleValues hnew)⟩

/-- **Twins have the same changes**, up to the order of entries. -/
theorem changesBetween_twin {old old' : Option Schema} (hrel : Option.Rel Schema.Twin old old')
    (hold : ∀ s, old = some s → Legible s.toValue) (htwin : t.Twin t') (hnew : Legible t.toValue) :
    List.Forall₂ Change.Twin (changesBetween old t) (changesBetween old' t') := by
  have hfields := htwin.fieldValues hnew.storable
  have hrules := htwin.ruleValues hnew.storable
  cases hrel with
  | none =>
    rw [changesBetween, changesBetween, htwin.formValue, htwin.id_eq]
    refine .cons ⟨.null, (Schema.legible_formValue hnew).storable.rearranged_self, rfl⟩ ?_
    exact List.rel_append (partChanges_twin .field .empty hfields)
      (partChanges_twin .rule .empty hrules)
  | @some s s' hs =>
    have hlegible := hold s rfl
    rw [changesBetween, changesBetween, formChanges_twin hs htwin]
    refine List.rel_append (List.rel_append ?_ ?_) ?_
    · exact List.forall₂_same.mpr fun c hc => (sound_formChanges hlegible hnew c hc).twin_self
    · exact partChanges_twin .field (hs.fieldValues hlegible.storable) hfields
    · exact partChanges_twin .rule (hs.ruleValues hlegible.storable) hrules

/-! ## Equality -/

theorem Change.Twin.trans {a b c : Change} (hab : a.Twin b) (hbc : b.Twin c) : a.Twin c := by
  refine ⟨hab.before.trans hbc.before, hab.after.trans hbc.after, ?_⟩
  rw [← hab.rest, ← hbc.rest]

theorem Change.Twin.symm {a b : Change} (h : a.Twin b) : b.Twin a := by
  refine ⟨h.before.symm, h.after.symm, ?_⟩
  rw [← h.rest]

/-- **Twins are equal as changes.** -/
theorem Change.Twin.equiv {c c' : Change} (h : c.Twin c') (hs : c.Sound) :
    c.equiv c' = true := by
  have hdetails : Value.equiv (.map c'.details) (.map c'.details) = true := equiv_refl _ rfl
  have hbefore : c.before.alike c'.before = true :=
    Bool.or_eq_true_iff.mpr (Or.inr (h.before.equiv hs.before.storable))
  have hafter : c.after.alike c'.after = true :=
    Bool.or_eq_true_iff.mpr (Or.inr (h.after.equiv hs.after.storable))
  have hrest := h.rest
  clear h hs
  cases c
  cases hrest
  simp [Change.equiv, hdetails, hbefore, hafter]

end LiveForm
