import LiveForm.Schema.Encode

/-!
# Documents that are native

The document of a schema is made of native values as long as its free values can be written as
JSON.

* `Schema.Serializable`: all free values of a schema can be written as JSON;
* `Value.isNative_record`, `Value.isNative_list`: documents and lists of native values;
* **`Schema.Serializable.isNative_toValue`**: the document of such a schema is native.
-/

namespace LiveForm

namespace Value

theorem allNative_iff {items : List Value} :
    allNative items = true ↔ ∀ v ∈ items, v.isNative = true := by
  induction items with
  | nil => simp [allNative]
  | cons v vs ih => rw [allNative, Bool.and_eq_true, ih, List.forall_mem_cons]

theorem isNative_list {items : List Value} :
    (list items).isNative = true ↔ ∀ v ∈ items, v.isNative = true := by
  rw [isNative, allNative_iff]

theorem isNative_record {members : List (String × Value)} :
    (record members).isNative = true ↔ ∀ m ∈ members, m.2.isNative = true := by
  rw [record, isNative]
  induction members with
  | nil => simp [fields, allNativeEntries]
  | cons m members ih =>
    rw [fields, List.map_cons, allNativeEntries, Bool.and_eq_true, Bool.and_eq_true, ← fields, ih,
      List.forall_mem_cons]
    simp [kind]

theorem isNative_text (s : String) : (text s).isNative = true := rfl

theorem isNative_bool (b : Bool) : (bool b).isNative = true := rfl

theorem isNative_int (n : Int) : (int n).isNative = true := rfl

theorem isNative_null : null.isNative = true := rfl

theorem isNative_float (x : Binary64) : (float x).isNative = true := rfl

theorem isNative_texts (items : List String) : (texts items).isNative = true := by
  rw [texts, isNative_list, List.forall_mem_map]
  exact fun s _ => isNative_text s

theorem isNative_optText (s : Option String) : (optText s).isNative = true := by
  cases s with
  | none => exact isNative_null
  | some s => exact isNative_text s

theorem isNative_optInt (n : Option Int) : (optInt n).isNative = true := by
  cases n with
  | none => exact isNative_null
  | some n => exact isNative_int n

theorem isNative_optNumber (n : Option Number) : (optNumber n).isNative = true := by
  cases n with
  | none => exact isNative_null
  | some n =>
    cases n with
    | int n => exact isNative_int n
    | float x => exact isNative_float x

end Value

open Value

/-! ## Schemas -/

/-- The free values of a field can be written as JSON. -/
structure Field.Serializable (f : Field) : Prop where
  default : f.default.serializable = true
  choices : ∀ c ∈ f.choices, c.value.serializable = true

/-- The free values of a rule can be written as JSON. -/
structure Rule.Serializable (r : Rule) : Prop where
  compare : r.compare.serializable = true
  effectValue : r.effectValue.serializable = true

/-- **All free values of a schema can be written as JSON.** -/
structure Schema.Serializable (s : Schema) : Prop where
  fields : ∀ f ∈ s.fields, f.Serializable
  rules : ∀ r ∈ s.rules, r.Serializable

theorem Constraints.isNative_toValue (c : Constraints) : c.toValue.isNative = true := by
  rw [toValue, isNative_record]
  simp [isNative_bool, isNative_optNumber, isNative_optInt, isNative_optText]

theorem Formula.isNative_toValue (f : Formula) : f.toValue.isNative = true := by
  rw [toValue, isNative_record]
  simp [isNative_text, isNative_texts, isNative_optInt, isNative_optText]

theorem Field.Serializable.isNative_toValue {f : Field} (h : f.Serializable) :
    f.toValue.isNative = true := by
  have hchoices : ∀ c ∈ f.choices, c.toValue.isNative = true := by
    intro c hc
    rw [Choice.toValue, isNative_record]
    simpa [isNative_text, serializable] using h.choices c hc
  have hformula : ((f.formula.map Formula.toValue).getD null).isNative = true := by
    cases f.formula with
    | none => exact isNative_null
    | some fo => exact fo.isNative_toValue
  rw [Field.toValue, isNative_record]
  simpa [isNative_text, isNative_bool, isNative_list, f.constraints.isNative_toValue, hformula]
    using ⟨h.default, hchoices⟩

theorem Rule.Serializable.isNative_toValue {r : Rule} (h : r.Serializable) :
    r.toValue.isNative = true := by
  rw [Rule.toValue, isNative_record]
  simpa [isNative_text] using ⟨h.compare, h.effectValue⟩

theorem Row.isNative_toValue (row : Row) : row.toValue.isNative = true := by
  have hcolumns : ∀ c ∈ row.columns, c.toValue.isNative = true := by
    intro c _
    rw [Column.toValue, isNative_record]
    simp [isNative_int, isNative_texts]
  rw [toValue, isNative_record]
  simpa [isNative_list] using hcolumns

/-- **A schema whose free values can be written as JSON has a native document.** -/
theorem Schema.Serializable.isNative_toValue {s : Schema} (h : s.Serializable) :
    s.toValue.isNative = true := by
  have hfields : ∀ f ∈ s.fields, f.toValue.isNative = true := fun f hf =>
    (h.fields f hf).isNative_toValue
  have hrules : ∀ r ∈ s.rules, r.toValue.isNative = true := fun r hr =>
    (h.rules r hr).isNative_toValue
  rw [Schema.toValue, isNative_record]
  simpa [isNative_text, isNative_int, isNative_list, Row.isNative_toValue] using ⟨hfields, hrules⟩

end LiveForm
