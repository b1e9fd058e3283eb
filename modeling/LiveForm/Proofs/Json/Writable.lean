import LiveForm.Schema.Encode
import LiveForm.Proofs.Json.Native
import LiveForm.Proofs.Schema.Reordered

/-!
# Values that can be written as JSON

A list can be written when its members can, and a document with text keys when its values can. The
order of members does not matter for that.

* `Json.Writable`: a value has a JSON tree;
* `Json.writable_list`, `Json.writable_record`: lists and documents;
* **`Schema.Reordered.writable_toValue`**: of two reordered schemas both can be written or none.
-/

namespace LiveForm

namespace Json

variable {sorted : Bool}

/-- The value has a JSON tree. -/
def Writable (sorted : Bool) (v : Value) : Prop := ∃ j, ofValue sorted v = .ok j

theorem exists_ofItems_iff {items : List Value} :
    (∃ js, ofItems sorted items = .ok js) ↔ ∀ v ∈ items, Writable sorted v := by
  induction items with
  | nil => simp [ofItems]
  | cons v vs ih =>
    rw [List.forall_mem_cons, ← ih, ofItems, Writable]
    cases ofValue sorted v with
    | error e => simp [bind, Except.bind]
    | ok j => cases ofItems sorted vs <;> simp [bind, Except.bind]

theorem writable_list {items : List Value} :
    Writable sorted (.list items) ↔ ∀ v ∈ items, Writable sorted v := by
  rw [Writable, ofValue, ← exists_ofItems_iff]
  cases ofItems sorted items <;> simp [bind, Except.bind]

theorem writable_text (s : String) : Writable sorted (.text s) := ⟨_, by rw [ofValue]⟩

theorem writable_int {n : ℤ} : Writable sorted (.int n) ↔ digitCount n ≤ digitLimit := by
  rw [Writable, ofValue, short_eq]
  split_ifs with h
  · exact iff_of_true ⟨_, rfl⟩ h
  · exact iff_of_false (fun ⟨_, hj⟩ => nomatch hj) h

theorem exists_named_iff {entries : Entries} (h : TextKeys entries) :
    (∃ ms, (entries.map fun e => (e.1, ofValue sorted e.2)).mapM named = .ok ms) ↔
      ∀ e ∈ entries, Writable sorted e.2 := by
  induction entries with
  | nil => simp; exact ⟨_, rfl⟩
  | cons e entries ih =>
    obtain ⟨⟨s, hs⟩, htexts⟩ := List.forall_mem_cons.mp h
    rw [List.forall_mem_cons, ← ih htexts, List.map_cons, List.mapM_cons, named, hs, Writable]
    cases ofValue sorted e.2 with
    | error e => simp [memberName, bind, Except.bind]
    | ok j =>
      cases List.mapM named (entries.map fun e => (e.1, ofValue sorted e.2)) <;>
        simp [memberName, bind, Except.bind, pure, Except.pure]

theorem writable_map {entries : Entries} (h : TextKeys entries) :
    Writable sorted (.map entries) ↔ ∀ e ∈ entries, Writable sorted e.2 := by
  have htexts : TextKeys (arrange sorted entries) := fun e he => h e (mem_arrange.mp he)
  have hmembers := @exists_named_iff sorted _ htexts
  simp only [mem_arrange] at hmembers
  rw [← hmembers, Writable, ofValue_map h]
  simp only [map_eq_ok]
  constructor
  · rintro ⟨_, ms, hms, -⟩
    exact ⟨ms, hms⟩
  · rintro ⟨ms, hms⟩
    exact ⟨_, ms, hms, rfl⟩

/-- **A document can be written when its values can.** -/
theorem writable_record {members : List (String × Value)} :
    Writable sorted (.record members) ↔ ∀ m ∈ members, Writable sorted m.2 := by
  rw [Value.record, writable_map, Value.fields, List.forall_mem_map]
  intro e he
  obtain ⟨m, -, rfl⟩ := List.mem_map.mp he
  exact ⟨m.1, rfl⟩

end Json

namespace Schema

variable {s s' : Schema}

theorem writable_toValue : Json.Writable true s.toValue ↔
    digitCount s.version ≤ digitLimit ∧ (∀ f ∈ s.fields, Json.Writable true f.toValue) ∧
      (∀ r ∈ s.rules, Json.Writable true r.toValue) ∧
      ∀ row ∈ s.layout, Json.Writable true row.toValue := by
  rw [toValue, Json.writable_record]
  simp only [List.forall_mem_cons, Json.writable_text, Json.writable_int, Json.writable_list,
    List.forall_mem_map, true_and, List.not_mem_nil, false_implies, implies_true, and_true]

/-- **Of two reordered schemas both can be written or none.** -/
theorem Reordered.writable_toValue (h : s.Reordered s') :
    Json.Writable true s'.toValue ↔ Json.Writable true s.toValue := by
  have hlayout := congrArg Schema.layout h.rest
  have hversion := congrArg Schema.version h.rest
  dsimp only at hlayout hversion
  rw [Schema.writable_toValue, Schema.writable_toValue, hlayout, hversion]
  simp only [h.fields.mem_iff, h.rules.mem_iff]

end Schema

end LiveForm
