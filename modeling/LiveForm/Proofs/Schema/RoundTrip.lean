import LiveForm.Schema.Decode
import LiveForm.Proofs.Result
import LiveForm.Proofs.Schema.FreeValue
import LiveForm.Proofs.Value.Entries

/-!
# Reading back the documents of schemas

Each part of a schema is read back from its document, and so is the schema, when its free values
are. That is so for what was read of a document in the first place, but for moments with an offset
below a second.

* `Value.lookup_record_cons`: what stands at a key of a document;
* `Schema.Restored`, **`Schema.ofValue_toValue`**: a schema whose free values are read back is read
  back itself;
* `Field.of_ofValue`, `Rule.of_ofValue`, `Schema.of_ofValue`: where what was read comes from;
* `Schema.Given`, `Schema.Regular`: the free values of documents, and the moments that can be read;
* **`Schema.restored_of_ofValue`**: what was read is read back where its moments can be, and
  `Schema.regular_of_ofValue_toValue`: only there.
-/

namespace LiveForm

namespace Value

/-! ## Documents -/

theorem lookup?_record_cons (key k : String) (v : Value) (ms : List (String × Value)) :
    (record ((k, v) :: ms)).lookup? key = if k = key then some v else (record ms).lookup? key := by
  rw [record, lookup?, fields, List.map_cons, find?, List.find?_cons, alike_text]
  by_cases hk : k = key
  · rw [decide_eq_true hk, if_pos hk]
    rfl
  · rw [decide_eq_false hk, if_neg hk]
    rfl

theorem lookup_record_cons (key k : String) (v : Value) (ms : List (String × Value)) :
    (record ((k, v) :: ms)).lookup key = if k = key then v else (record ms).lookup key := by
  rw [lookup, lookup?_record_cons]
  split <;> rfl

variable {path : String}

theorem asMapping_record (ms : List (String × Value)) :
    (record ms).asMapping path = .ok (record ms) := rfl

theorem asText?_optText (s : Option String) : (optText s).asText? path = .ok s := by
  cases s <;> rfl

theorem asText_text (s : String) : (text s).asText path = .ok s := rfl

theorem asInt?_optInt (n : Option ℤ) : (optInt n).asInt? path = .ok n := by
  cases n <;> rfl

theorem asNumber?_optNumber (n : Option Number) : (optNumber n).asNumber? path = .ok n := by
  cases n with
  | none => rfl
  | some n => cases n <;> rfl

theorem asBool_bool (b default : Bool) : (bool b).asBool path default = .ok b := rfl

/-- **A name is read back**, as no two things of a list share one. -/
theorem asName_name {α : Type} {all : List α} {name : α → String} (h : (all.map name).Nodup)
    {a : α} (ha : a ∈ all) : (text (name a)).asName path all name = .ok a := by
  have hfind : all.find? (fun b => (text (name a)).alike (text (name b))) = some a := by
    induction all with
    | nil => cases ha
    | cons b all ih =>
      obtain ⟨hnew, hnodup⟩ := List.nodup_cons.mp h
      rw [List.find?_cons, alike_text]
      by_cases hname : name a = name b
      · rw [decide_eq_true hname]
        rcases List.mem_cons.mp ha with rfl | ha
        · rfl
        · exact absurd (List.mem_map.mpr ⟨a, ha, hname⟩) hnew
      · rw [decide_eq_false hname]
        exact ih hnodup ((List.mem_cons.mp ha).resolve_left fun he => hname (congrArg name he))
  rw [asName, hfind]

theorem asItems_list (items : List Value) : (list items).asItems path = .ok items := rfl

end Value

open Value

/-- **The members of a list are read back** when each of them is. -/
theorem readItems_map {α : Type} {read : String → Value → Except StructureError α}
    {write : α → Value} {as : List α} (h : ∀ a ∈ as, ∀ path, read path (write a) = .ok a)
    (path : String) (i : ℕ) : readItems read path i (as.map write) = .ok as := by
  induction as generalizing i with
  | nil => rfl
  | cons a as ih =>
    obtain ⟨ha, has⟩ := List.forall_mem_cons.mp h
    rw [List.map_cons, readItems, ha, ih has]
    rfl

theorem readItems_texts (keys : List String) (path : String) :
    readItems asKey path 0 (keys.map text) = .ok keys :=
  readItems_map (fun key _ p => show asKey p (text key) = .ok key from rfl) path 0

/-! ## Declarations -/

theorem Constraints.ofValue_toValue (path : String) (c : Constraints) :
    ofValue path c.toValue = .ok c := by
  have h : ofValue path c.toValue = (do
    let v := c.toValue
    let pattern ← (v.lookup "pattern").asText? (entryPath path "pattern")
    let message ← (v.lookup "message").asText? (entryPath path "message")
    let required ← (v.lookup "required").asBool (entryPath path "required") false
    let min ← (v.lookup "min").asNumber? (entryPath path "min")
    let max ← (v.lookup "max").asNumber? (entryPath path "max")
    let minLength ← (v.lookup "min_length").asInt? (entryPath path "min_length")
    let maxLength ← (v.lookup "max_length").asInt? (entryPath path "max_length")
    .ok { required, min, max, minLength, maxLength, pattern, message }) := rfl
  rw [h]
  simp only [toValue, lookup_record_cons, String.reduceEq, if_true, if_false, asText?_optText,
    asBool_bool, asNumber?_optNumber, asInt?_optInt]
  rfl

theorem Choice.ofValue_toValue (path : String) {c : Choice} (h : c.value.encode = c.value) :
    ofValue path c.toValue = .ok c := by
  rw [ofValue, toValue, asMapping_record, h]
  simp only [ok_bind, lookup?_record_cons, lookup_record_cons, String.reduceEq, if_true, if_false,
    asText_text]

theorem Formula.ofValue_toValue (path : String) (f : Formula) :
    ofValue path f.toValue = .ok f := by
  have hname : (text f.function.name).asName (entryPath path "function") Function.all
      Function.name = .ok f.function :=
    asName_name (by decide) (by cases f.function <;> decide)
  rw [ofValue, toValue, asMapping_record]
  simp only [ok_bind, lookup_record_cons, String.reduceEq, if_true, if_false, texts, asItems_list,
    readItems_texts, asText?_optText, hname, asInt?_optInt]

theorem Formula.ofValue?_toValue (path : String) (f : Option Formula) :
    ofValue? path ((f.map toValue).getD null) = .ok f := by
  cases f with
  | none => rfl
  | some f =>
    have h := congrArg (Except.map some) (f.ofValue_toValue path)
    exact h

/-- The free values of a field are read back. -/
structure Field.Restored (f : Field) : Prop where
  default : f.default.Restored (some f.type)
  choices : ∀ c ∈ f.choices, c.value.isNative = true

theorem Field.ofValue_toValue (path : String) {f : Field} (h : f.Restored) :
    ofValue path f.toValue = .ok f := by
  have hname : (text f.type.name).asName (entryPath path "type") FieldType.all
      FieldType.name = .ok f.type :=
    asName_name (by decide) (by cases f.type <;> decide)
  have hchoices : readItems Choice.ofValue (entryPath path "options") 0
      (f.choices.map Choice.toValue) = .ok f.choices :=
    readItems_map (fun c hc p =>
      Choice.ofValue_toValue p (encode_of_isNative _ (h.choices c hc))) _ 0
  rw [ofValue, toValue, asMapping_record]
  simp only [ok_bind, lookup_record_cons, String.reduceEq, if_true, if_false, asItems_list, hname,
    asText_text, h.default.decodeFor, Constraints.ofValue_toValue, hchoices, asBool_bool,
    Formula.ofValue?_toValue]

/-- The free values of a rule are read back. -/
structure Rule.Restored (types : String → Option FieldType) (r : Rule) : Prop where
  compare : r.compare.Restored (types r.trigger)
  effectValue : r.effectValue.Restored (if r.effect = .setValue then types r.target else none)

theorem Rule.ofValue_toValue {types : String → Option FieldType} (path : String) {r : Rule}
    (h : r.Restored types) : ofValue types path r.toValue = .ok r := by
  have heffect : (text r.effect.name).asName (entryPath path "effect") Effect.all
      Effect.name = .ok r.effect :=
    asName_name (by decide) (by cases r.effect <;> decide)
  have hoperator : (text r.operator.name).asName (entryPath path "operator") Operator.all
      Operator.name = .ok r.operator :=
    asName_name (by decide) (by cases r.operator <;> decide)
  have hvalue : (if r.effect = .setValue then r.effectValue.encode.decodeFor (types r.target)
      else r.effectValue.encode) = r.effectValue := by
    have hdecode := h.effectValue.decodeFor
    split_ifs at hdecode ⊢ <;> exact hdecode
  rw [ofValue, toValue, asMapping_record]
  simp only [ok_bind, lookup_record_cons, String.reduceEq, if_true, if_false, asText_text, heffect,
    hoperator, h.compare.decodeFor, hvalue]

theorem Column.ofValue_toValue (path : String) (c : Column) : ofValue path c.toValue = .ok c := by
  have hspan : (int c.span).asInt? (entryPath path "span") = .ok (some c.span) := rfl
  rw [ofValue, toValue, asMapping_record]
  simp only [ok_bind, lookup_record_cons, String.reduceEq, if_true, if_false, texts, asItems_list,
    readItems_texts, hspan]

theorem Row.ofValue_toValue (path : String) (row : Row) : ofValue path row.toValue = .ok row := by
  have hcolumns : readItems Column.ofValue (entryPath path "columns") 0
      (row.columns.map Column.toValue) = .ok row.columns :=
    readItems_map (fun c _ p => c.ofValue_toValue p) _ 0
  rw [ofValue, toValue, asMapping_record]
  simp only [ok_bind, lookup_record_cons, if_true, asItems_list, hcolumns]

/-! ## Schemas -/

/-- **The free values of a schema are read back.** -/
structure Schema.Restored (s : Schema) : Prop where
  fields : ∀ f ∈ s.fields, f.Restored
  rules : ∀ r ∈ s.rules, r.Restored s.fieldType?

/-- **The document of a schema is read as that schema** when its free values are read back. -/
theorem Schema.ofValue_toValue {s : Schema} (h : s.Restored) : ofValue s.toValue = .ok s := by
  have hversion : (int s.version).asInt? "version" = .ok (some s.version) := rfl
  have hfields : readItems Field.ofValue "fields" 0 (s.fields.map Field.toValue) = .ok s.fields :=
    readItems_map (fun f hf p => Field.ofValue_toValue p (h.fields f hf)) _ 0
  have hrules : readItems (Rule.ofValue s.fieldType?) "rules" 0 (s.rules.map Rule.toValue) =
      .ok s.rules :=
    readItems_map (fun r hr p => Rule.ofValue_toValue p (h.rules r hr)) _ 0
  have htypes : (fun key => (s.fields.reverse.find? (·.key == key)).map Field.type) =
      s.fieldType? := rfl
  have hlayout : readItems Row.ofValue "layout" 0 (s.layout.map Row.toValue) = .ok s.layout :=
    readItems_map (fun row _ p => row.ofValue_toValue p) _ 0
  rw [ofValue, toValue, asMapping_record]
  simp only [ok_bind, lookup_record_cons, String.reduceEq, if_true, if_false, asItems_list,
    asText_text, hversion, hfields, htypes, hrules, hlayout, Option.getD_some]

/-! ## What was read -/

namespace Value

/-- The members of a list; other values have none. -/
def items : Value → List Value
  | list items => items
  | _ => []

theorem asMapping_eq_ok {path : String} {v w : Value} (h : v.asMapping path = .ok w) : v = w := by
  cases v with
  | map entries => exact Except.ok.inj h
  | _ => cases h

theorem asItems_eq_ok {path : String} {v : Value} {vs : List Value}
    (h : v.asItems path = .ok vs) : v.items = vs := by
  cases v with
  | null => exact Except.ok.inj h
  | list items => exact Except.ok.inj h
  | _ => cases h

end Value

theorem mem_of_readItems {α : Type} {read : String → Value → Except StructureError α}
    {path : String} {i : ℕ} {vs : List Value} {as : List α}
    (h : readItems read path i vs = .ok as) :
    ∀ a ∈ as, ∃ v ∈ vs, ∃ p, read p v = .ok a := by
  induction vs generalizing i as with
  | nil =>
    rw [← Except.ok.inj h]
    exact fun _ ha => absurd ha List.not_mem_nil
  | cons v vs ih =>
    obtain ⟨a, ha, h⟩ := bind_eq_ok.mp h
    obtain ⟨as', has', h⟩ := bind_eq_ok.mp h
    obtain rfl := Except.ok.inj h
    refine List.forall_mem_cons.mpr ⟨⟨v, List.mem_cons_self, _, ha⟩, fun b hb => ?_⟩
    obtain ⟨w, hw, p, hp⟩ := ih has' b hb
    exact ⟨w, List.mem_cons_of_mem v hw, p, hp⟩

theorem Choice.of_ofValue {path : String} {v : Value} {c : Choice} (h : ofValue path v = .ok c) :
    c.value = v.lookup "value" := by
  obtain ⟨w, hw, h⟩ := bind_eq_ok.mp h
  obtain rfl := asMapping_eq_ok hw
  split at h
  · cases h
  · next value hvalue =>
    obtain ⟨label, -, h⟩ := bind_eq_ok.mp h
    rw [← Except.ok.inj h, lookup, hvalue]
    rfl

theorem Field.of_ofValue {path : String} {v : Value} {f : Field} (h : ofValue path v = .ok f) :
    (v.lookup "type").asName (entryPath path "type") FieldType.all FieldType.name = .ok f.type ∧
      f.default = (v.lookup "default_value").decodeFor (some f.type) ∧
      ∀ c ∈ f.choices, ∃ w ∈ (v.lookup "options").items, c.value = w.lookup "value" := by
  obtain ⟨w, hw, h⟩ := bind_eq_ok.mp h
  obtain rfl := asMapping_eq_ok hw
  obtain ⟨items, hitems, h⟩ := bind_eq_ok.mp h
  obtain ⟨type, htype, h⟩ := bind_eq_ok.mp h
  obtain ⟨key, -, h⟩ := bind_eq_ok.mp h
  obtain ⟨label, -, h⟩ := bind_eq_ok.mp h
  obtain ⟨constraints, -, h⟩ := bind_eq_ok.mp h
  obtain ⟨choices, hchoices, h⟩ := bind_eq_ok.mp h
  obtain ⟨visible, -, h⟩ := bind_eq_ok.mp h
  obtain ⟨formula, -, h⟩ := bind_eq_ok.mp h
  obtain rfl := Except.ok.inj h
  refine ⟨htype, rfl, fun c hc => ?_⟩
  obtain ⟨w, hw, p, hp⟩ := mem_of_readItems hchoices c hc
  exact ⟨w, asItems_eq_ok hitems ▸ hw, Choice.of_ofValue hp⟩

theorem Rule.of_ofValue {types : String → Option FieldType} {path : String} {v : Value} {r : Rule}
    (h : ofValue types path v = .ok r) :
    r.compare = (v.lookup "compare_value").decodeFor (types r.trigger) ∧
      r.effectValue = (v.lookup "effect_value").decodeFor
        (if r.effect = .setValue then types r.target else none) := by
  obtain ⟨w, hw, h⟩ := bind_eq_ok.mp h
  obtain rfl := asMapping_eq_ok hw
  obtain ⟨trigger, -, h⟩ := bind_eq_ok.mp h
  obtain ⟨target, -, h⟩ := bind_eq_ok.mp h
  obtain ⟨effect, -, h⟩ := bind_eq_ok.mp h
  obtain ⟨id, -, h⟩ := bind_eq_ok.mp h
  obtain ⟨name, -, h⟩ := bind_eq_ok.mp h
  obtain ⟨operator, -, h⟩ := bind_eq_ok.mp h
  obtain rfl := Except.ok.inj h
  refine ⟨rfl, ?_⟩
  dsimp only
  split <;> rfl

theorem Schema.of_ofValue {d : Value} {s : Schema} (h : ofValue d = .ok s) :
    (∀ f ∈ s.fields, ∃ v ∈ (d.lookup "fields").items, ∃ p, Field.ofValue p v = .ok f) ∧
      ∀ r ∈ s.rules, ∃ v ∈ (d.lookup "rules").items, ∃ p,
        Rule.ofValue s.fieldType? p v = .ok r := by
  obtain ⟨w, hw, h⟩ := bind_eq_ok.mp h
  obtain rfl := asMapping_eq_ok hw
  obtain ⟨version, -, h⟩ := bind_eq_ok.mp h
  obtain ⟨fieldItems, hfieldItems, h⟩ := bind_eq_ok.mp h
  obtain ⟨ruleItems, hruleItems, h⟩ := bind_eq_ok.mp h
  obtain ⟨rowItems, -, h⟩ := bind_eq_ok.mp h
  obtain ⟨fields, hfields, h⟩ := bind_eq_ok.mp h
  obtain ⟨id, -, h⟩ := bind_eq_ok.mp h
  obtain ⟨title, -, h⟩ := bind_eq_ok.mp h
  obtain ⟨description, -, h⟩ := bind_eq_ok.mp h
  obtain ⟨rules, hrules, h⟩ := bind_eq_ok.mp h
  obtain ⟨layout, -, h⟩ := bind_eq_ok.mp h
  obtain rfl := Except.ok.inj h
  rw [asItems_eq_ok hfieldItems, asItems_eq_ok hruleItems]
  exact ⟨mem_of_readItems hfields, mem_of_readItems hrules⟩

/-! ## Documents with free values -/

/-- **The free values that the document of a schema gives**: native values, and where a type of
dates reads them also dates and moments. -/
structure Schema.Given (d : Value) (s : Schema) : Prop where
  defaults : ∀ v ∈ (d.lookup "fields").items, ∀ path f, Field.ofValue path v = .ok f →
    FreeFor (some f.type) (v.lookup "default_value")
  choices : ∀ v ∈ (d.lookup "fields").items, ∀ w ∈ (v.lookup "options").items,
    (w.lookup "value").isNative = true
  compares : ∀ v ∈ (d.lookup "rules").items, ∀ path r, Rule.ofValue s.fieldType? path v = .ok r →
    FreeFor (s.fieldType? r.trigger) (v.lookup "compare_value")
  effects : ∀ v ∈ (d.lookup "rules").items, ∀ path r, Rule.ofValue s.fieldType? path v = .ok r →
    FreeFor (if r.effect = .setValue then s.fieldType? r.target else none)
      (v.lookup "effect_value")

/-- **The moments of a schema can be read**: no offset is below a second. -/
structure Schema.Regular (s : Schema) : Prop where
  defaults : ∀ f ∈ s.fields, ∀ m, f.default = .moment m → m.Regular
  compares : ∀ r ∈ s.rules, ∀ m, r.compare = .moment m → m.Regular
  effects : ∀ r ∈ s.rules, ∀ m, r.effectValue = .moment m → m.Regular

variable {s : Schema}

/-- **A schema that is read is read back** when all that is given of it can be read. -/
theorem Schema.restored_of_ofValue {d : Value} (h : ofValue d = .ok s) (hgiven : Given d s)
    (hregular : s.Regular) : s.Restored := by
  obtain ⟨hfields, hrules⟩ := of_ofValue h
  refine ⟨fun f hf => ?_, fun r hr => ?_⟩
  · obtain ⟨v, hv, p, hp⟩ := hfields f hf
    obtain ⟨-, hdefault, hchoices⟩ := Field.of_ofValue hp
    have hmoment := hregular.defaults f hf
    refine ⟨?_, fun c hc => ?_⟩
    · rw [hdefault] at hmoment ⊢
      exact (hgiven.defaults v hv p f hp).restored_decodeFor hmoment
    · obtain ⟨w, hw, hvalue⟩ := hchoices c hc
      rw [hvalue]
      exact hgiven.choices v hv w hw
  · obtain ⟨v, hv, p, hp⟩ := hrules r hr
    obtain ⟨hcompare, heffect⟩ := Rule.of_ofValue hp
    have hcompares := hregular.compares r hr
    have heffects := hregular.effects r hr
    constructor
    · rw [hcompare] at hcompares ⊢
      exact (hgiven.compares v hv p r hp).restored_decodeFor hcompares
    · rw [heffect] at heffects ⊢
      exact (hgiven.effects v hv p r hp).restored_decodeFor heffects

/-- **A schema that is read back has no other moments.** -/
theorem Schema.regular_of_ofValue_toValue (h : ofValue s.toValue = .ok s) : s.Regular := by
  have hfieldItems : (s.toValue.lookup "fields").items = s.fields.map Field.toValue := by
    simp only [toValue, lookup_record_cons, String.reduceEq, if_true, if_false, items]
  have hruleItems : (s.toValue.lookup "rules").items = s.rules.map Rule.toValue := by
    simp only [toValue, lookup_record_cons, String.reduceEq, if_true, if_false, items]
  have hdefault : ∀ f : Field, f.toValue.lookup "default_value" = f.default.encode := fun f => by
    simp only [Field.toValue, lookup_record_cons, String.reduceEq, if_true, if_false]
  have hcompare : ∀ r : Rule, r.toValue.lookup "compare_value" = r.compare.encode := fun r => by
    simp only [Rule.toValue, lookup_record_cons, String.reduceEq, if_true, if_false]
  have heffect : ∀ r : Rule, r.toValue.lookup "effect_value" = r.effectValue.encode := fun r => by
    simp only [Rule.toValue, lookup_record_cons, String.reduceEq, if_true, if_false]
  obtain ⟨hfields, hrules⟩ := of_ofValue h
  rw [hfieldItems] at hfields
  rw [hruleItems] at hrules
  refine ⟨fun f hf m hm => ?_, fun r hr m hm => ?_, fun r hr m hm => ?_⟩
  · obtain ⟨v, hv, p, hp⟩ := hfields f hf
    obtain ⟨g, -, rfl⟩ := List.mem_map.mp hv
    obtain ⟨-, hread, -⟩ := Field.of_ofValue hp
    rw [hm, hdefault] at hread
    exact regular_of_decodeFor_encode hread.symm
  · obtain ⟨v, hv, p, hp⟩ := hrules r hr
    obtain ⟨g, -, rfl⟩ := List.mem_map.mp hv
    have hread := (Rule.of_ofValue hp).1
    rw [hm, hcompare] at hread
    exact regular_of_decodeFor_encode hread.symm
  · obtain ⟨v, hv, p, hp⟩ := hrules r hr
    obtain ⟨g, -, rfl⟩ := List.mem_map.mp hv
    have hread := (Rule.of_ofValue hp).2
    rw [hm, heffect] at hread
    exact regular_of_decodeFor_encode hread.symm

theorem Schema.Restored.serializable (h : s.Restored) : s.Serializable where
  fields f hf := {
    default := (h.fields f hf).default.serializable
    choices := fun c hc => by
      have hnative := (h.fields f hf).choices c hc
      rw [Value.serializable, encode_of_isNative _ hnative, hnative] }
  rules r hr := ⟨(h.rules r hr).compare.serializable, (h.rules r hr).effectValue.serializable⟩

end LiveForm
