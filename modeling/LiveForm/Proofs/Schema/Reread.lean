import LiveForm.Proofs.Json.Canonical
import LiveForm.Proofs.Schema.RoundTrip

/-!
# Rearranged documents of schemas

The document of a schema that went through a text comes back with its entries in another order. A
schema is read of it that is a twin of the first one: the same but for the order of entries in its
free values.

* `Value.Twin`, `Field.Twin`, `Rule.Twin`, `Schema.Twin`: equal up to that order;
* `Value.Restored.twin`: a free value that is read of a rearranged document;
* **`Schema.ofValue_rearranged`**: a twin is read of a rearranged document;
* **`Schema.Twin.equiv`**: twins are equal as schemas.
-/

namespace LiveForm

open Value

/-! ## Free values -/

/-- **Equal up to the order of entries**, where dates stand for themselves. -/
inductive Value.Twin : Value → Value → Prop
  | same (v : Value) : Twin v v
  | rearranged {v w : Value} (h : Rearranged v w) (hv : Storable v) : Twin v w

namespace Value

variable {a b d v w : Value}

theorem Twin.alike (h : Twin v w) : v.alike w = true := by
  cases h with
  | same => exact alike_refl v
  | rearranged h hv => exact Bool.or_eq_true_iff.mpr (Or.inr (h.equiv hv))

theorem Twin.encode (h : Twin v w) (hv : Storable v.encode) : Rearranged v.encode w.encode := by
  cases h with
  | same => exact hv.rearranged_self
  | rearranged h hv =>
    have hencode : ∀ {u : Value}, Storable u → u.encode = u := fun hu =>
      encode_of_isNative _ hu.isNative
    rwa [hencode hv, hencode (hv.rearranged h)]

/-- **A free value is read of its rearranged document**, up to that order. -/
theorem Restored.twin {type : Option FieldType} (hv : v.Restored type) (hs : Storable v.encode)
    (h : Rearranged v.encode d) : Twin v (d.decodeFor type) := by
  have hkind := h.kind_eq
  by_cases htext : v.encode.kind = .text
  · -- A text may be read as a date, but it is the same text.
    rw [rigid_of_kind (by rw [htext]; nofun) (by rw [htext]; nofun) d h, hv.decodeFor]
    exact .same v
  · have hself : v.encode = v := by
      have hdecode := hv.decodeFor
      rwa [decodeFor_eq_self fun _ => htext] at hdecode
    rw [decodeFor_eq_self fun _ => hkind ▸ htext]
    rw [hself] at h hs
    exact .rearranged h hs

theorem asMapping_rearranged {ms : List (String × Value)} (h : Rearranged (record ms) d)
    (path : String) : d.asMapping path = .ok d := by
  cases h with
  | map => rfl

theorem lookup_eq_of_rigid (h : Rearranged a d) (ha : Storable a) {key : String}
    (hv : a.lookup key = v) (hrigid : Rigid v) : d.lookup key = v := by
  subst hv
  exact hrigid _ (h.lookup ha key)

theorem lookup_of_rearranged (h : Rearranged a d) (ha : Storable a) {key : String}
    (hv : a.lookup key = v) : Rearranged v (d.lookup key) ∧ Storable v := by
  subst hv
  exact ⟨h.lookup ha key, ha.lookup key⟩

theorem lookup_list_of_rearranged (h : Rearranged a d) (ha : Storable a) {key : String}
    {items : List Value} (hv : a.lookup key = list items) :
    ∃ items', d.lookup key = list items' ∧ List.Forall₂ Rearranged items items' ∧
      ∀ v ∈ items, Storable v := by
  obtain ⟨hlist, hs⟩ := lookup_of_rearranged h ha hv
  generalize d.lookup key = w at hlist
  cases hlist with
  | @list _ ys length h =>
    exact ⟨ys, rfl, rearranged_list_iff.mp (.list length h), storable_list.mp hs⟩

end Value

/-- **Twins are read of the members of a list** whose documents are rearranged. -/
theorem readItems_rearranged {α : Type} {read : String → Value → Except StructureError α}
    {write : α → Value} {twin : α → α → Prop} {as : List α} {vs : List Value}
    (hvs : List.Forall₂ Rearranged (as.map write) vs)
    (h : ∀ a ∈ as, ∀ v, Rearranged (write a) v → ∀ path, ∃ b, read path v = .ok b ∧ twin a b)
    (path : String) (i : ℕ) :
    ∃ bs, readItems read path i vs = .ok bs ∧ List.Forall₂ twin as bs := by
  induction as generalizing vs i with
  | nil =>
    rw [List.map_nil, List.forall₂_nil_left_iff] at hvs
    subst hvs
    exact ⟨[], rfl, .nil⟩
  | cons a as ih =>
    rw [List.map_cons, List.forall₂_cons_left_iff] at hvs
    obtain ⟨v, vs, hv, hvs, rfl⟩ := hvs
    obtain ⟨ha, has⟩ := List.forall_mem_cons.mp h
    obtain ⟨b, hb, hab⟩ := ha v hv (indexPath path i)
    obtain ⟨bs, hbs, habs⟩ := ih hvs has (i + 1)
    exact ⟨b :: bs, by rw [readItems, hb, hbs]; rfl, .cons hab habs⟩

/-! ## Declarations -/

variable {d : Value} {path : String}

theorem lookup_rigid {ms : List (String × Value)} (hs : Storable (record ms))
    (h : Rearranged (record ms) d) (hrigid : ∀ m ∈ ms, Rigid m.2) (key : String) :
    d.lookup key = (record ms).lookup key := by
  refine lookup_eq_of_rigid h hs rfl ?_
  clear h hs
  induction ms with
  | nil => exact rigid_null
  | cons m ms ih =>
    obtain ⟨hm, hms⟩ := List.forall_mem_cons.mp hrigid
    rw [lookup_record_cons]
    split
    · exact hm
    · exact ih hms

theorem Constraints.ofValue_rearranged {c : Constraints} (hs : Storable c.toValue)
    (h : Rearranged c.toValue d) : ofValue path d = .ok c := by
  have hlookup := lookup_rigid hs h (by
    simp [rigid_bool, rigid_optNumber, rigid_optInt, rigid_optText])
  rw [← ofValue_toValue path c]
  obtain ⟨fs, rfl⟩ := h.exists_map
  simp only [ofValue, toValue, record, asMapping, ok_bind] at hlookup ⊢
  simp only [hlookup]

theorem Formula.ofValue_rearranged {f : Formula} (hs : Storable f.toValue)
    (h : Rearranged f.toValue d) : ofValue path d = .ok f := by
  have hlookup := lookup_rigid hs h (by simp [rigid_text, rigid_texts, rigid_optText, rigid_optInt])
  rw [← ofValue_toValue path f]
  obtain ⟨fs, rfl⟩ := h.exists_map
  simp only [ofValue, toValue, record, asMapping, ok_bind] at hlookup ⊢
  simp only [hlookup]

theorem Formula.ofValue?_rearranged {f : Option Formula}
    (hs : Storable ((f.map toValue).getD null)) (h : Rearranged ((f.map toValue).getD null) d) :
    ofValue? path d = .ok f := by
  cases f with
  | none =>
    rw [rigid_null d h]
    rfl
  | some f =>
    have hread := congrArg (Except.map some) (@ofValue_rearranged d path f hs h)
    obtain ⟨fs, rfl⟩ := h.exists_map
    exact hread

/-- Two choices are the same but for the order of entries in the value. -/
structure Choice.Twin (c c' : Choice) : Prop where
  value : c.value.Twin c'.value
  label : c'.label = c.label

theorem Choice.ofValue_rearranged {c : Choice} (hc : c.value.isNative = true)
    (hs : Storable c.toValue) (h : Rearranged c.toValue d) :
    ∃ c', ofValue path d = .ok c' ∧ c.Twin c' := by
  have hlabel : d.lookup "label" = text c.label :=
    lookup_eq_of_rigid h hs (by simp [toValue, lookup_record_cons]) (rigid_text _)
  have hrel := h.lookup? hs "value"
  have hvalue : c.toValue.lookup? "value" = some c.value := by
    simp [toValue, lookup?_record_cons, encode_of_isNative _ hc]
  have hstorable : Storable c.value := by
    have hentry := hs.lookup "value"
    rwa [lookup, hvalue] at hentry
  rw [hvalue] at hrel
  obtain ⟨v, hv, htwin⟩ : ∃ v, d.lookup? "value" = some v ∧ Rearranged c.value v := by
    generalize d.lookup? "value" = w at hrel
    cases hrel with
    | some h => exact ⟨_, rfl, h⟩
  refine ⟨⟨v, c.label⟩, ?_, .rearranged htwin hstorable, rfl⟩
  rw [ofValue, asMapping_rearranged h]
  simp only [ok_bind, hv, hlabel, asText_text]

/-- Two fields are the same but for the order of entries in their free values. -/
structure Field.Twin (f f' : Field) : Prop where
  default : f.default.Twin f'.default
  choices : List.Forall₂ Choice.Twin f.choices f'.choices
  rest : { f' with default := f.default, choices := f.choices } = f

theorem Field.ofValue_rearranged {f : Field} (hf : f.Restored) (hs : Storable f.toValue)
    (h : Rearranged f.toValue d) : ∃ f', ofValue path d = .ok f' ∧ f.Twin f' := by
  have hkey : d.lookup "key" = text f.key :=
    lookup_eq_of_rigid h hs (by simp [toValue, lookup_record_cons]) (rigid_text _)
  have htype : d.lookup "type" = text f.type.name :=
    lookup_eq_of_rigid h hs (by simp [toValue, lookup_record_cons]) (rigid_text _)
  have hlabel : d.lookup "label" = text f.label :=
    lookup_eq_of_rigid h hs (by simp [toValue, lookup_record_cons]) (rigid_text _)
  have hvisible : d.lookup "visible" = .bool f.visible :=
    lookup_eq_of_rigid h hs (by simp [toValue, lookup_record_cons]) (rigid_bool _)
  obtain ⟨hdefault, hsdefault⟩ := @lookup_of_rearranged _ _ f.default.encode h hs "default_value"
    (by simp [toValue, lookup_record_cons])
  obtain ⟨hconstraints, hsconstraints⟩ := @lookup_of_rearranged _ _ f.constraints.toValue h hs
    "constraints" (by simp [toValue, lookup_record_cons])
  obtain ⟨hformula, hsformula⟩ := @lookup_of_rearranged _ _
    ((f.formula.map Formula.toValue).getD null) h hs "computation"
    (by simp [toValue, lookup_record_cons])
  obtain ⟨options, hoptions, hrearranged, hsoptions⟩ := @lookup_list_of_rearranged _ _ h hs
    "options" (f.choices.map Choice.toValue) (by simp [toValue, lookup_record_cons])
  obtain ⟨choices, hchoices, htwins⟩ := @readItems_rearranged Choice Choice.ofValue Choice.toValue
    Choice.Twin f.choices options hrearranged (fun c hc v hv p =>
      Choice.ofValue_rearranged (hf.choices c hc) (hsoptions _ (List.mem_map_of_mem hc)) hv)
    (entryPath path "options") 0
  have hname : (text f.type.name).asName (entryPath path "type") FieldType.all
      FieldType.name = .ok f.type :=
    asName_name (by decide) (by cases f.type <;> decide)
  refine ⟨{ f with default := (d.lookup "default_value").decodeFor (some f.type), choices }, ?_,
    hf.default.twin hsdefault hdefault, htwins, rfl⟩
  rw [ofValue, asMapping_rearranged h]
  simp only [ok_bind, hoptions, asItems_list, htype, hname, hkey, hlabel, asText_text,
    Constraints.ofValue_rearranged hsconstraints hconstraints, hchoices, hvisible, asBool_bool,
    Formula.ofValue?_rearranged hsformula hformula]

/-- Two rules are the same but for the order of entries in their free values. -/
structure Rule.Twin (r r' : Rule) : Prop where
  compare : r.compare.Twin r'.compare
  effectValue : r.effectValue.Twin r'.effectValue
  rest : { r' with compare := r.compare, effectValue := r.effectValue } = r

theorem Rule.ofValue_rearranged {types : String → Option FieldType} {r : Rule}
    (hr : r.Restored types) (hs : Storable r.toValue) (h : Rearranged r.toValue d) :
    ∃ r', ofValue types path d = .ok r' ∧ r.Twin r' := by
  have hid : d.lookup "id" = text r.id :=
    lookup_eq_of_rigid h hs (by simp [toValue, lookup_record_cons]) (rigid_text _)
  have hname : d.lookup "name" = text r.name :=
    lookup_eq_of_rigid h hs (by simp [toValue, lookup_record_cons]) (rigid_text _)
  have htrigger : d.lookup "trigger_field" = text r.trigger :=
    lookup_eq_of_rigid h hs (by simp [toValue, lookup_record_cons]) (rigid_text _)
  have htarget : d.lookup "target_field" = text r.target :=
    lookup_eq_of_rigid h hs (by simp [toValue, lookup_record_cons]) (rigid_text _)
  have hoperator : d.lookup "operator" = text r.operator.name :=
    lookup_eq_of_rigid h hs (by simp [toValue, lookup_record_cons]) (rigid_text _)
  have heffect : d.lookup "effect" = text r.effect.name :=
    lookup_eq_of_rigid h hs (by simp [toValue, lookup_record_cons]) (rigid_text _)
  obtain ⟨hcompare, hscompare⟩ := @lookup_of_rearranged _ _ r.compare.encode h hs "compare_value"
    (by simp [toValue, lookup_record_cons])
  obtain ⟨hvalue, hsvalue⟩ := @lookup_of_rearranged _ _ r.effectValue.encode h hs "effect_value"
    (by simp [toValue, lookup_record_cons])
  have heffectName : (text r.effect.name).asName (entryPath path "effect") Effect.all
      Effect.name = .ok r.effect :=
    asName_name (by decide) (by cases r.effect <;> decide)
  have hoperatorName : (text r.operator.name).asName (entryPath path "operator") Operator.all
      Operator.name = .ok r.operator :=
    asName_name (by decide) (by cases r.operator <;> decide)
  have hread : (if r.effect = .setValue then (d.lookup "effect_value").decodeFor (types r.target)
      else d.lookup "effect_value") = (d.lookup "effect_value").decodeFor
        (if r.effect = .setValue then types r.target else none) := by
    split_ifs <;> rfl
  refine ⟨{ r with
    compare := (d.lookup "compare_value").decodeFor (types r.trigger)
    effectValue := (d.lookup "effect_value").decodeFor
      (if r.effect = .setValue then types r.target else none) }, ?_,
    hr.compare.twin hscompare hcompare, hr.effectValue.twin hsvalue hvalue, rfl⟩
  rw [ofValue, asMapping_rearranged h]
  simp only [ok_bind, htrigger, htarget, asText_text, heffect, heffectName, hid, hname, hoperator,
    hoperatorName, hread]

theorem Column.ofValue_rearranged {c : Column} (hs : Storable c.toValue)
    (h : Rearranged c.toValue d) : ofValue path d = .ok c := by
  have hlookup := lookup_rigid hs h (by simp [rigid_int, rigid_texts])
  rw [← ofValue_toValue path c]
  obtain ⟨fs, rfl⟩ := h.exists_map
  simp only [ofValue, toValue, record, asMapping, ok_bind] at hlookup ⊢
  simp only [hlookup]

theorem Row.ofValue_rearranged {row : Row} (hs : Storable row.toValue)
    (h : Rearranged row.toValue d) : ofValue path d = .ok row := by
  obtain ⟨items, hitems, hrearranged, hsitems⟩ := @lookup_list_of_rearranged _ _ h hs "columns"
    (row.columns.map Column.toValue) (by simp [toValue, lookup_record_cons])
  obtain ⟨columns, hcolumns, htwins⟩ := @readItems_rearranged Column Column.ofValue Column.toValue
    Eq row.columns items hrearranged (fun c hc v hv p =>
      ⟨c, Column.ofValue_rearranged (hsitems _ (List.mem_map_of_mem hc)) hv, rfl⟩)
    (entryPath path "columns") 0
  rw [List.forall₂_eq_eq_eq] at htwins
  rw [ofValue, asMapping_rearranged h]
  simp only [ok_bind, hitems, asItems_list, hcolumns, ← htwins]

/-! ## Schemas -/

/-- **Two schemas are the same but for the order of entries in their free values.** -/
structure Schema.Twin (s s' : Schema) : Prop where
  fields : List.Forall₂ Field.Twin s.fields s'.fields
  rules : List.Forall₂ Rule.Twin s.rules s'.rules
  rest : { s' with fields := s.fields, rules := s.rules } = s

theorem Field.Twin.key_eq {f f' : Field} (h : f.Twin f') : f'.key = f.key := by
  rw [← h.rest]

theorem Field.Twin.type_eq {f f' : Field} (h : f.Twin f') : f'.type = f.type := by
  rw [← h.rest]

theorem fieldType_of_twins {fs fs' : List Field} (h : List.Forall₂ Field.Twin fs fs')
    (key : String) : (fs'.reverse.find? (·.key == key)).map Field.type =
      (fs.reverse.find? (·.key == key)).map Field.type := by
  have hreverse := List.rel_reverse h
  generalize fs.reverse = gs at hreverse
  generalize fs'.reverse = gs' at hreverse
  induction hreverse with
  | nil => rfl
  | @cons f f' _ _ hff' _ ih =>
    rw [List.find?_cons, List.find?_cons, hff'.key_eq]
    cases f.key == key
    · exact ih
    · exact congrArg some hff'.type_eq

/-- **A twin is read of a rearranged document** when the free values are read back. -/
theorem Schema.ofValue_rearranged {s : Schema} (h : s.Restored) (hs : Storable s.toValue)
    (hd : Rearranged s.toValue d) : ∃ s', ofValue d = .ok s' ∧ s.Twin s' := by
  have hid : d.lookup "id" = text s.id :=
    lookup_eq_of_rigid hd hs (by simp [toValue, lookup_record_cons]) (rigid_text _)
  have htitle : d.lookup "title" = text s.title :=
    lookup_eq_of_rigid hd hs (by simp [toValue, lookup_record_cons]) (rigid_text _)
  have hdescription : d.lookup "description" = text s.description :=
    lookup_eq_of_rigid hd hs (by simp [toValue, lookup_record_cons]) (rigid_text _)
  have hversion : d.lookup "version" = int s.version :=
    lookup_eq_of_rigid hd hs (by simp [toValue, lookup_record_cons]) (rigid_int _)
  have hreadVersion : (int s.version).asInt? "version" = .ok (some s.version) := rfl
  obtain ⟨fieldItems, hfieldItems, hfieldDocs, hsfields⟩ := @lookup_list_of_rearranged _ _ hd hs
    "fields" (s.fields.map Field.toValue) (by simp [toValue, lookup_record_cons])
  obtain ⟨ruleItems, hruleItems, hruleDocs, hsrules⟩ := @lookup_list_of_rearranged _ _ hd hs
    "rules" (s.rules.map Rule.toValue) (by simp [toValue, lookup_record_cons])
  obtain ⟨rowItems, hrowItems, hrowDocs, hsrows⟩ := @lookup_list_of_rearranged _ _ hd hs
    "layout" (s.layout.map Row.toValue) (by simp [toValue, lookup_record_cons])
  obtain ⟨fields, hfields, hfieldTwins⟩ := @readItems_rearranged Field Field.ofValue Field.toValue
    Field.Twin s.fields fieldItems hfieldDocs (fun f hf v hv p =>
      Field.ofValue_rearranged (h.fields f hf) (hsfields _ (List.mem_map_of_mem hf)) hv) "fields" 0
  have htypes : (fun key => (fields.reverse.find? (·.key == key)).map Field.type) =
      s.fieldType? := funext fun key => fieldType_of_twins hfieldTwins key
  obtain ⟨rules, hrules, hruleTwins⟩ := @readItems_rearranged Rule (Rule.ofValue s.fieldType?)
    Rule.toValue Rule.Twin s.rules ruleItems hruleDocs (fun r hr v hv p =>
      Rule.ofValue_rearranged (h.rules r hr) (hsrules _ (List.mem_map_of_mem hr)) hv) "rules" 0
  obtain ⟨layout, hlayout, hrows⟩ := @readItems_rearranged Row Row.ofValue Row.toValue Eq s.layout
    rowItems hrowDocs (fun r hr v hv p =>
      ⟨r, Row.ofValue_rearranged (hsrows _ (List.mem_map_of_mem hr)) hv, rfl⟩) "layout" 0
  rw [List.forall₂_eq_eq_eq] at hrows
  refine ⟨{ s with fields, rules }, ?_, hfieldTwins, hruleTwins, rfl⟩
  rw [ofValue, asMapping_rearranged hd]
  simp only [ok_bind, hversion, hreadVersion, hfieldItems, hruleItems, hrowItems, asItems_list,
    hfields, htypes, hid, htitle, hdescription, asText_text, hrules, hlayout, Option.getD_some,
    ← hrows]

/-! ## Equality -/

theorem listEquiv_of_forall₂ {α : Type} {twin : α → α → Prop} {r : α → α → Bool}
    (h : ∀ {a b}, twin a b → r a b = true) {as bs : List α} (hab : List.Forall₂ twin as bs) :
    listEquiv r as bs = true := by
  induction hab with
  | nil => rfl
  | cons hab _ ih => rw [listEquiv, h hab, ih]; rfl

theorem Constraints.equiv_refl (c : Constraints) : c.equiv c = true := by
  have hopt : ∀ n : Option Number, Number.optAlike n n = true := by
    rintro (- | n) <;> simp [Number.optAlike, Number.alike]
  simp [equiv, hopt]

theorem Choice.Twin.equiv {c c' : Choice} (h : c.Twin c') : c.equiv c' = true := by
  rw [Choice.equiv, h.value.alike, h.label, decide_eq_true rfl]
  rfl

theorem Field.Twin.equiv {f f' : Field} (h : f.Twin f') : f.equiv f' = true := by
  obtain ⟨hdefault, hchoices, hrest⟩ := h
  have hoptions := listEquiv_of_forall₂ Choice.Twin.equiv hchoices
  cases f
  cases hrest
  simp [Field.equiv, hdefault.alike, hoptions, Constraints.equiv_refl]

theorem Rule.Twin.equiv {r r' : Rule} (h : r.Twin r') : r.equiv r' = true := by
  obtain ⟨hcompare, heffect, hrest⟩ := h
  cases r
  cases hrest
  simp [Rule.equiv, hcompare.alike, heffect.alike]

/-- **Twins are equal as schemas.** -/
theorem Schema.Twin.equiv {s s' : Schema} (h : s.Twin s') : s.equiv s' = true := by
  obtain ⟨hfields, hrules, hrest⟩ := h
  have hfields := listEquiv_of_forall₂ Field.Twin.equiv hfields
  have hrules := listEquiv_of_forall₂ Rule.Twin.equiv hrules
  cases s
  cases hrest
  simp [Schema.equiv, hfields, hrules]

/-! ## An equivalence -/

theorem Schema.Twin.refl (s : Schema) : s.Twin s := by
  have hchoice : ∀ c : Choice, c.Twin c := fun c => ⟨.same _, rfl⟩
  have hfield : ∀ f : Field, f.Twin f := fun f =>
    ⟨.same _, List.forall₂_same.mpr fun c _ => hchoice c, rfl⟩
  have hrule : ∀ r : Rule, r.Twin r := fun r => ⟨.same _, .same _, rfl⟩
  exact ⟨List.forall₂_same.mpr fun f _ => hfield f, List.forall₂_same.mpr fun r _ => hrule r, rfl⟩

theorem Value.Twin.symm {v w : Value} (h : v.Twin w) : w.Twin v := by
  cases h with
  | same => exact .same v
  | rearranged h hv => exact .rearranged h.symm (hv.rearranged h)

theorem Schema.Twin.symm {s s' : Schema} (h : s.Twin s') : s'.Twin s := by
  have hchoice : ∀ {c c' : Choice}, c.Twin c' → c'.Twin c := fun h => ⟨h.value.symm, h.label.symm⟩
  have hfield : ∀ {f f' : Field}, f.Twin f' → f'.Twin f := fun h =>
    ⟨h.default.symm, (h.choices.imp fun _ _ => hchoice).flip, by rw [← h.rest]⟩
  have hrule : ∀ {r r' : Rule}, r.Twin r' → r'.Twin r := fun h =>
    ⟨h.compare.symm, h.effectValue.symm, by rw [← h.rest]⟩
  exact ⟨(h.fields.imp fun _ _ => hfield).flip, (h.rules.imp fun _ _ => hrule).flip,
    by rw [← h.rest]⟩

end LiveForm
