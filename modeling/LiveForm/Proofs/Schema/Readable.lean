import LiveForm.Proofs.Json.Legible
import LiveForm.Proofs.Schema.RoundTrip

/-!
# Schemas that come back from their text

A schema that was read of a document comes back from its text when its fields restore its free
values, and when there is no NaN in it: neither in a free value nor as a limit. Everything else in
its document is made of texts and integers.

* `Schema.Readable`: such schemas;
* `Value.storable_record_iff`: a document is storable when its members are;
* **`Schema.Readable.toRestored`, `Schema.Readable.storable`**: they are read back from their
  documents, and these are storable;
* `Schema.Readable.legible`: so a document that has a text comes back from it.
-/

namespace LiveForm

open Value

/-- **The schemas that come back from their text**: what was read of a document with free values
that the types of their fields restore, where neither a free value nor a limit holds a NaN. -/
structure Schema.Readable (s : Schema) : Prop where
  given : ∃ d, Schema.ofValue d = .ok s ∧ Schema.Given d s
  regular : s.Regular
  fields : ∀ f ∈ s.fields, Storable f.default.encode ∧ ∀ c ∈ f.choices, Storable c.value.encode
  rules : ∀ r ∈ s.rules, Storable r.compare.encode ∧ Storable r.effectValue.encode
  limits : ∀ f ∈ s.fields, Storable (optNumber f.constraints.min) ∧
    Storable (optNumber f.constraints.max)

/-! ## Documents -/

namespace Value

theorem storable_record_iff {members : List (String × Value)}
    (hkeys : (members.map Prod.fst).Nodup) :
    Storable (record members) ↔ ∀ m ∈ members, Storable m.2 :=
  ⟨fun h => h.of_record, storable_record hkeys⟩

theorem storable_optText (s : Option String) : Storable (optText s) := by
  cases s with
  | none => exact .null
  | some s => exact .text s

theorem storable_optInt (n : Option ℤ) : Storable (optInt n) := by
  cases n with
  | none => exact .null
  | some n => exact .int n

theorem storable_texts (items : List String) : Storable (texts items) :=
  .list (List.forall_mem_map.mpr fun s _ => .text s)

end Value

theorem Constraints.storable_toValue {c : Constraints} (hmin : Storable (optNumber c.min))
    (hmax : Storable (optNumber c.max)) : Storable c.toValue := by
  rw [toValue, storable_record_iff (by simp)]
  simp [hmin, hmax, Storable.bool, storable_optInt, storable_optText]

theorem Choice.storable_toValue {c : Choice} (h : Storable c.value.encode) :
    Storable c.toValue := by
  rw [toValue, storable_record_iff (by simp)]
  simp [h, Storable.text]

theorem Formula.storable_toValue (f : Formula) : Storable f.toValue := by
  rw [toValue, storable_record_iff (by simp)]
  simp [Storable.text, storable_texts, storable_optInt, storable_optText]

theorem Column.storable_toValue (c : Column) : Storable c.toValue := by
  rw [toValue, storable_record_iff (by simp)]
  simp [Storable.int, storable_texts]

theorem Row.storable_toValue (row : Row) : Storable row.toValue := by
  rw [toValue, storable_record_iff (by simp)]
  simp [storable_list, Column.storable_toValue]

namespace Schema

variable {s : Schema}

theorem Readable.toRestored (h : s.Readable) : s.Restored := by
  obtain ⟨d, hd, hgiven⟩ := h.given
  exact restored_of_ofValue hd hgiven h.regular

theorem Readable.storable_field (h : s.Readable) : ∀ f ∈ s.fields, Storable f.toValue := by
  intro f hf
  obtain ⟨hdefault, hchoices⟩ := h.fields f hf
  obtain ⟨hmin, hmax⟩ := h.limits f hf
  have hoptions : ∀ c ∈ f.choices, Storable c.toValue := fun c hc =>
    Choice.storable_toValue (hchoices c hc)
  have hformula : Storable ((f.formula.map Formula.toValue).getD null) := by
    cases f.formula with
    | none => exact .null
    | some fo => exact fo.storable_toValue
  rw [Field.toValue, storable_record_iff (by simp)]
  simpa [Storable.text, Storable.bool, storable_list, hdefault,
    Constraints.storable_toValue hmin hmax, hformula] using hoptions

theorem Readable.storable_rule (h : s.Readable) : ∀ r ∈ s.rules, Storable r.toValue := by
  intro r hr
  obtain ⟨hcompare, heffect⟩ := h.rules r hr
  rw [Rule.toValue, storable_record_iff (by simp)]
  simp [Storable.text, hcompare, heffect]

/-- **The document of a readable schema is storable.** -/
theorem Readable.storable (h : s.Readable) : Storable s.toValue := by
  rw [toValue, storable_record_iff (by simp)]
  simpa [Storable.text, Storable.int, storable_list, Row.storable_toValue] using
    ⟨h.storable_field, h.storable_rule⟩

theorem Readable.legible {text : String} (h : s.Readable)
    (htext : canonicalJson s.toValue = .ok text) : Legible s.toValue :=
  legible_of_canonicalJson h.storable htext

end Schema

end LiveForm
