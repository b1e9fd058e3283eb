import LiveForm.Proofs.Calendar.Reading
import LiveForm.Proofs.Schema.Native

/-!
# Restoring free values

A free value is written as text where it is a date or a moment, and read back by the type of its
field. After the first reading nothing is lost any more.

* `Value.encode_of_isNative`: native values are written as they are;
* `Value.ofIsoText_date`, `Value.ofIsoText_moment`: the texts of dates and moments are told apart;
* `Value.FreeFor`: the values that a document may give where a type reads them;
* **`Value.FreeFor.restored_decodeFor`**: what was read of them is read back, unless it is a moment
  that cannot be read;
* `Value.regular_of_decodeFor_encode`: no such moment is ever read back.
-/

namespace LiveForm

namespace Value

mutual

/-- **A native value is written as it is.** -/
theorem encode_of_isNative : (v : Value) → v.isNative = true → v.encode = v
  | .null, _ | .bool _, _ | .int _, _ | .float _, _ | .text _, _ => rfl
  | .list items, h => by
    rw [isNative] at h
    rw [encode, encodeItems_of_allNative items h]
  | .map entries, h => by
    rw [isNative] at h
    rw [encode, encodeEntries_of_allNativeEntries entries h]
  | .bytes _, h | .date _, h | .moment _, h | .tuple _, h | .set _, h => by simp [isNative] at h

theorem encodeItems_of_allNative : (items : List Value) → allNative items = true →
    encodeItems items = items
  | [], _ => rfl
  | v :: vs, h => by
    rw [allNative, Bool.and_eq_true] at h
    rw [encodeItems, encode_of_isNative v h.1, encodeItems_of_allNative vs h.2]

theorem encodeEntries_of_allNativeEntries : (entries : List (Value × Value)) →
    allNativeEntries entries = true → encodeEntries entries = entries
  | [], _ => rfl
  | (k, v) :: es, h => by
    rw [allNativeEntries, Bool.and_eq_true, Bool.and_eq_true] at h
    rw [encodeEntries, encode_of_isNative v h.1.2, encodeEntries_of_allNativeEntries es h.2]

end

/-! ## Texts of dates and moments -/

theorem ofIsoText_date (d : Date) : ofIsoText d.isoText = date d := by
  have hchar : ∀ c ∈ d.isoText.toList, c.isDigit = true ∨ c = '-' := by
    intro c hc
    rw [d.toList_isoText] at hc
    simp only [List.mem_append, List.mem_cons] at hc
    rcases hc with hc | hc | hc | hc | hc
    · exact Or.inl (Date.isDigit_of_mem_padded hc)
    · exact Or.inr hc
    · exact Or.inl (Date.isDigit_of_mem_padded hc)
    · exact Or.inr hc
    · exact Or.inl (Date.isDigit_of_mem_padded hc)
  have hnone : ∀ c, c.isDigit = false → c ≠ '-' → d.isoText.toList.contains c = false := by
    intro c hdigit hdash
    rw [Bool.eq_false_iff, ne_eq, List.contains_iff_mem]
    intro hc
    rcases hchar c hc with h | h
    · rw [hdigit] at h
      cases h
    · exact hdash h
  rw [ofIsoText, hnone 'T' (by decide) (by decide), hnone ' ' (by decide) (by decide),
    d.ofText?_isoText]
  rfl

theorem ofIsoText_moment {m : Moment} (h : m.Regular) : ofIsoText m.isoText = moment m := by
  have hmark : m.isoText.toList.contains 'T' = true := by
    rw [List.contains_iff_mem, m.toList_isoText]
    exact List.mem_append_right _ List.mem_cons_self
  rw [ofIsoText, hmark, m.ofText?_isoText h]
  rfl

theorem regular_of_ofIsoText {s : String} {m : Moment} (h : ofIsoText s = moment m) :
    m.Regular := by
  rw [ofIsoText] at h
  split at h
  · split at h
    · next m' hm =>
      obtain rfl := Value.moment.inj h
      exact Moment.regular_of_ofText? hm
    · cases h
  · split at h <;> cases h

/-! ## Free values -/

/-- **The free values of a document**, where a type may read them: native values, and for the type
of dates also dates and moments. -/
inductive FreeFor : Option FieldType → Value → Prop
  | native {type : Option FieldType} {v : Value} (h : v.isNative = true) : FreeFor type v
  | date (d : Date) : FreeFor (some .date) (.date d)
  | moment (m : Moment) : FreeFor (some .date) (.moment m)

theorem freeFor_iff {type : Option FieldType} {v : Value} : FreeFor type v ↔
    v.isNative = true ∨ type = some .date ∧ (v.kind = .date ∨ v.kind = .moment) := by
  constructor
  · rintro (h | d | m)
    · exact Or.inl h
    · exact Or.inr ⟨rfl, Or.inl rfl⟩
    · exact Or.inr ⟨rfl, Or.inr rfl⟩
  · rintro (h | ⟨rfl, h⟩)
    · exact .native h
    · cases v with
      | date d => exact .date d
      | moment m => exact .moment m
      | _ => rcases h with h | h <;> cases h

instance (type : Option FieldType) (v : Value) : Decidable (FreeFor type v) :=
  decidable_of_iff' _ freeFor_iff

/-- **The value is written as JSON and read back** where a type reads it. -/
structure Restored (type : Option FieldType) (v : Value) : Prop where
  serializable : v.serializable = true
  decodeFor : v.encode.decodeFor type = v

theorem decodeFor_text (s : String) : (text s).decodeFor (some .date) = ofIsoText s := rfl

theorem decodeFor_eq_self {type : Option FieldType} {v : Value}
    (h : type = some .date → v.kind ≠ .text) : v.decodeFor type = v := by
  rw [decodeFor.eq_def]
  split
  · exact absurd rfl (h rfl)
  · rfl

theorem restored_date (d : Date) : (date d).Restored (some .date) where
  serializable := by rw [serializable, encode, isNative]
  decodeFor := by rw [encode, decodeFor_text, ofIsoText_date]

theorem restored_moment {m : Moment} (h : m.Regular) : (moment m).Restored (some .date) where
  serializable := by rw [serializable, encode, isNative]
  decodeFor := by rw [encode, decodeFor_text, ofIsoText_moment h]

theorem restored_ofIsoText (s : String) : (ofIsoText s).Restored (some .date) := by
  have htext : ofIsoText s = text s → (ofIsoText s).Restored (some .date) := by
    intro h
    have hencode : (text s).encode = text s := encode_of_isNative _ (isNative_text s)
    rw [h]
    exact ⟨by rw [serializable, hencode, isNative], by rw [hencode, decodeFor_text, h]⟩
  cases hmark : s.toList.contains 'T' || s.toList.contains ' ' with
  | true =>
    cases hm : Moment.ofText? s with
    | none => exact htext (by rw [ofIsoText, hmark, if_pos rfl, hm])
    | some m =>
      have hread : ofIsoText s = moment m := by rw [ofIsoText, hmark, if_pos rfl, hm]
      rw [hread]
      exact restored_moment (Moment.regular_of_ofText? hm)
  | false =>
    cases hd : Date.ofText? s with
    | none => exact htext (by rw [ofIsoText, hmark, if_neg Bool.false_ne_true, hd])
    | some d =>
      have hread : ofIsoText s = date d := by
        rw [ofIsoText, hmark, if_neg Bool.false_ne_true, hd]
      rw [hread]
      exact restored_date d

/-- **A free value that was read is read back**, unless it is a moment that cannot be read. -/
theorem FreeFor.restored_decodeFor {type : Option FieldType} {v : Value} (h : FreeFor type v)
    (hregular : ∀ m, v.decodeFor type = .moment m → m.Regular) :
    (v.decodeFor type).Restored type := by
  cases h with
  | native h =>
    by_cases htext : type = some .date ∧ v.kind = .text
    · obtain ⟨rfl, hkind⟩ := htext
      obtain ⟨s, rfl⟩ : ∃ s, v = text s := by
        cases v <;> first | exact ⟨_, rfl⟩ | cases hkind
      exact restored_ofIsoText s
    · have hself : v.decodeFor type = v := decodeFor_eq_self fun hdate hkind =>
        htext ⟨hdate, hkind⟩
      rw [hself]
      exact ⟨by rw [serializable, encode_of_isNative v h, h], by rw [encode_of_isNative v h, hself]⟩
  | date d => exact restored_date d
  | moment m => exact restored_moment (hregular m rfl)

/-- **What was written and read is no other moment.** -/
theorem regular_of_decodeFor_encode {type : Option FieldType} {v : Value} {m : Moment}
    (h : v.encode.decodeFor type = moment m) : m.Regular := by
  rw [decodeFor.eq_def] at h
  split at h
  · exact regular_of_ofIsoText h
  · cases v <;> simp [encode] at h

end Value

end LiveForm
