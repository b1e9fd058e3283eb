import LiveForm.History.Change
import LiveForm.Proofs.Number.Decimal
import LiveForm.Proofs.Schema.RoundTrip
import LiveForm.Proofs.Value.Symmetric

/-!
# Attributes that differ

The documents of fields, of rules and of forms have fixed names. Two of them with the same names
differ in the attributes whose values differ, and are equal when there are none. The converse fails
for a NaN: it differs from itself, while documents that share it are equal.

* `Value.lookup_restrict`: an attribute of a part of a document;
* `Field.restrict_toValue`, `Rule.restrict_toValue`: the documents have fixed names;
* **`Value.mem_changedAttributes`, `Value.changedAttributes_comm`**: the attributes that differ;
* **`Value.changedAttributes_ne_nil`**: when there are any;
* `Schema.Proper`: no free value repeats the key of a mapping or the member of a set;
* `formDifferences`, **`Schema.changedAttributes_formValue`**: the attributes of two forms.
-/

namespace LiveForm

namespace Value

variable {names keys : List String} {a b : Value} {key : String}

/-! ## Parts of documents -/

theorem lookup_restrict (keys : List String) (v : Value) (key : String) :
    (v.restrict keys).lookup key = if key ∈ keys then v.lookup key else null := by
  rw [restrict]
  induction keys with
  | nil => rfl
  | cons k ks ih =>
    rw [List.map_cons, lookup_record_cons, ih]
    by_cases hk : k = key
    · simp [hk]
    · simp [hk, Ne.symm hk]

theorem attributes_restrict (keys : List String) (v : Value) :
    (v.restrict keys).attributes = keys := by
  rw [restrict, record, attributes, fields, List.map_map, List.filterMap_map]
  exact List.filterMap_some

theorem lookup_of_not_mem (h : a.restrict names = a) (hkey : key ∉ names) :
    a.lookup key = null := by
  rw [← h, lookup_restrict, if_neg hkey]

/-! ## Differences -/

theorem equiv_iff_alike : equiv a b = true ↔ alike a b = true ∧ sharedNaN a b = false := by
  constructor
  · intro h
    refine ⟨Bool.or_eq_true_iff.mpr (Or.inr h), Bool.eq_false_iff.mpr fun hshared => ?_⟩
    unfold sharedNaN at hshared
    split at hshared
    · simp [equiv, scalarEquiv, extent?, number?, Number.extent?, Binary64.extent] at h
    · cases hshared
  · rintro ⟨h, hshared⟩
    rwa [alike, hshared, Bool.false_or] at h

theorem changedAttributes_eq (ha : a.restrict names = a) (hb : b.restrict names = b) :
    a.changedAttributes b = names.filter fun k => !(a.lookup k).equiv (b.lookup k) := by
  have hanames : a.attributes = names := by rw [← ha, attributes_restrict]
  have hbnames : b.attributes = names := by rw [← hb, attributes_restrict]
  have hnew : names.filter (!names.contains ·) = [] :=
    List.filter_eq_nil_iff.mpr fun k hk => by simp [hk]
  rw [changedAttributes, hanames, hbnames, hnew, List.append_nil]

/-- **An attribute is among those that differ when its values do.** -/
theorem mem_changedAttributes (ha : a.restrict names = a) (hb : b.restrict names = b) :
    key ∈ a.changedAttributes b ↔ (a.lookup key).equiv (b.lookup key) = false := by
  rw [changedAttributes_eq ha hb, List.mem_filter, Bool.not_eq_true']
  refine and_iff_right_of_imp fun hdiffer => ?_
  by_contra hkey
  rw [lookup_of_not_mem ha hkey, lookup_of_not_mem hb hkey, equiv_refl null rfl] at hdiffer
  cases hdiffer

/-- **Proper documents differ in the same attributes either way.** -/
theorem changedAttributes_comm (ha : a.restrict names = a) (hb : b.restrict names = b)
    (hpa : a.proper = true) (hpb : b.proper = true) :
    b.changedAttributes a = a.changedAttributes b := by
  rw [changedAttributes_eq ha hb, changedAttributes_eq hb ha]
  refine List.filter_congr fun k _ => ?_
  rw [equiv_comm_of_proper (proper_lookup hpb k) (proper_lookup hpa k)]

theorem equiv_iff_of_restrict (ha : a.restrict names = a) (hb : b.restrict names = b) :
    equiv a b = true ↔ ∀ k ∈ names, alike (a.lookup k) (b.lookup k) = true := by
  have hmap : ∀ v : Value, v.restrict names = map (names.map fun k => (text k, v.lookup k)) := by
    intro v
    rw [restrict, record, fields, List.map_map]
    rfl
  rw [← ha, ← hb, hmap a, hmap b, equiv, List.length_map, List.length_map, decide_eq_true rfl,
    Bool.true_and, ← hmap, ← hmap, ha, hb]
  constructor
  · intro h k hk
    obtain ⟨f, hf, hef⟩ := exists_of_equivEntries h (List.mem_map_of_mem hk)
    obtain ⟨k', -, rfl⟩ := List.mem_map.mp hf
    rw [Bool.and_eq_true, alike_text, decide_eq_true_eq] at hef
    obtain ⟨rfl, halike⟩ := hef
    exact halike
  · refine fun h => equivEntries_of_forall (List.forall_mem_map.mpr fun k hk => ?_)
    exact ⟨_, List.mem_map_of_mem hk, alike_refl _, h k hk⟩

/-- **Attributes differ when the documents do, or share a NaN.** -/
theorem changedAttributes_ne_nil (ha : a.restrict names = a) (hb : b.restrict names = b) :
    a.changedAttributes b ≠ [] ↔
      equiv a b = false ∨ ∃ k, sharedNaN (a.lookup k) (b.lookup k) = true := by
  rw [ne_eq, List.eq_nil_iff_forall_not_mem, not_forall_not]
  simp only [mem_changedAttributes ha hb]
  constructor
  · rintro ⟨k, hk⟩
    by_cases hshared : sharedNaN (a.lookup k) (b.lookup k) = true
    · exact Or.inr ⟨k, hshared⟩
    · refine Or.inl (Bool.eq_false_iff.mpr fun h => ?_)
      have hkey : k ∈ names := by
        by_contra hkey
        rw [lookup_of_not_mem ha hkey, lookup_of_not_mem hb hkey, equiv_refl null rfl] at hk
        cases hk
      have halike := (equiv_iff_of_restrict ha hb).mp h k hkey
      rw [equiv_iff_alike.mpr ⟨halike, Bool.eq_false_iff.mpr hshared⟩] at hk
      cases hk
  · rintro (h | ⟨k, hshared⟩)
    · by_contra hnone
      rw [not_exists] at hnone
      rw [(equiv_iff_of_restrict ha hb).mpr fun k _ => ?_] at h
      · cases h
      · exact (equiv_iff_alike.mp (Bool.not_eq_false _ ▸ hnone k)).1
    · refine ⟨k, Bool.eq_false_iff.mpr fun h => ?_⟩
      rw [(equiv_iff_alike.mp h).2] at hshared
      cases hshared

end Value

open Value

/-! ## Documents of fields and rules -/

/-- The names in the document of a field. -/
def Field.names : List String :=
  ["key", "type", "label", "default_value", "constraints", "options", "visible", "computation"]

/-- The names in the document of a rule. -/
def Rule.names : List String :=
  ["id", "name", "trigger_field", "operator", "compare_value", "target_field", "effect",
    "effect_value"]

theorem Field.restrict_toValue (f : Field) : f.toValue.restrict names = f.toValue := by
  simp [toValue, restrict, names, lookup_record_cons]

theorem Rule.restrict_toValue (r : Rule) : r.toValue.restrict names = r.toValue := by
  simp [toValue, restrict, names, lookup_record_cons]

/-- **The free values of a schema are proper.** -/
structure Schema.Proper (s : Schema) : Prop where
  defaults : ∀ f ∈ s.fields, f.default.proper = true
  choices : ∀ f ∈ s.fields, ∀ c ∈ f.choices, c.value.proper = true
  compares : ∀ r ∈ s.rules, r.compare.proper = true
  effects : ∀ r ∈ s.rules, r.effectValue.proper = true

section

theorem proper_optText (s : Option String) : (optText s).proper = true := by cases s <;> rfl

theorem proper_optInt (n : Option Int) : (optInt n).proper = true := by cases n <;> rfl

theorem proper_optNumber (n : Option Number) : (optNumber n).proper = true := by
  rcases n with - | n | x <;> rfl

theorem proper_texts (items : List String) : (texts items).proper = true := by
  rw [texts, proper_list]
  exact List.forall_mem_map.mpr fun _ _ => rfl

theorem Constraints.proper_toValue (c : Constraints) : c.toValue.proper = true := by
  refine proper_record (by simp) ?_
  simp [proper_optText, proper_optInt, proper_optNumber, proper]

theorem Formula.proper_toValue (f : Formula) : f.toValue.proper = true := by
  refine proper_record (by simp) ?_
  simp [proper_optText, proper_optInt, proper_texts, proper]

theorem Field.proper_toValue {f : Field} (hdefault : f.default.proper = true)
    (hchoices : ∀ c ∈ f.choices, c.value.proper = true) : f.toValue.proper = true := by
  have hoptions : (list (f.choices.map Choice.toValue)).proper = true := by
    rw [proper_list, List.forall_mem_map]
    refine fun c hc => proper_record (by simp) ?_
    simp [proper_encode _ (hchoices c hc), proper]
  have hformula : ((f.formula.map Formula.toValue).getD null).proper = true := by
    cases f.formula with
    | none => rfl
    | some fo => exact fo.proper_toValue
  refine proper_record (by simp) ?_
  simp only [List.forall_mem_cons]
  exact ⟨rfl, rfl, rfl, proper_encode _ hdefault, f.constraints.proper_toValue, hoptions, rfl,
    hformula, fun _ h => absurd h List.not_mem_nil⟩

theorem Rule.proper_toValue {r : Rule} (hcompare : r.compare.proper = true)
    (heffect : r.effectValue.proper = true) : r.toValue.proper = true := by
  refine proper_record (by simp) ?_
  simp [proper_encode _ hcompare, proper_encode _ heffect, proper]

end

/-! ## Documents of forms -/

/-- The attributes of two forms that differ. -/
def formDifferences (old new : Schema) : List String :=
  [("id", decide (old.id ≠ new.id)),
   ("title", decide (old.title ≠ new.title)),
   ("description", decide (old.description ≠ new.description)),
   ("version", decide (old.version ≠ new.version)),
   ("layout", decide (old.layout ≠ new.layout))].filterMap fun (name, differs) =>
    if differs then some name else none

namespace Value

theorem alike_int (m n : Int) : alike (int m) (int n) = decide (m = n) := by
  have halike : alike (int m) (int n) =
      decide (Binary64.extentOfInt m = Binary64.extentOfInt n) := by
    simp only [alike, equiv]
    rfl
  rw [halike]
  exact decide_eq_decide.mpr Binary64.extentOfInt_inj

theorem alike_map_iff {α : Type} {f : α → Value} (h : ∀ x y, alike (f x) (f y) = true ↔ x = y)
    {xs ys : List α} : alike (list (xs.map f)) (list (ys.map f)) = true ↔ xs = ys := by
  have hshared : sharedNaN (list (xs.map f)) (list (ys.map f)) = false := rfl
  rw [alike, hshared, Bool.false_or, equiv]
  clear hshared
  induction xs generalizing ys with
  | nil => cases ys <;> simp [equivAll]
  | cons x xs ih =>
    cases ys with
    | nil => simp [equivAll]
    | cons y ys =>
      rw [List.map_cons, List.map_cons, equivAll, Bool.and_eq_true, List.cons.injEq]
      exact and_congr (h x y) ih

theorem alike_texts {xs ys : List String} : alike (texts xs) (texts ys) = true ↔ xs = ys :=
  alike_map_iff fun x y => by rw [alike_text, decide_eq_true_eq]

end Value

theorem Column.alike_toValue (c d : Column) : c.toValue.alike d.toValue = true ↔ c = d := by
  have hnames : ∀ c : Column, c.toValue.restrict ["span", "fields"] = c.toValue := fun c => by
    simp [toValue, restrict, lookup_record_cons]
  have hshared : sharedNaN c.toValue d.toValue = false := rfl
  rw [alike, hshared, Bool.false_or, equiv_iff_of_restrict (hnames c) (hnames d)]
  cases c
  cases d
  simp [toValue, lookup_record_cons, alike_int, alike_texts]

theorem Row.alike_toValue (r q : Row) : r.toValue.alike q.toValue = true ↔ r = q := by
  have hnames : ∀ r : Row, r.toValue.restrict ["columns"] = r.toValue := fun r => by
    simp [toValue, restrict, lookup_record_cons]
  have hshared : sharedNaN r.toValue q.toValue = false := rfl
  rw [alike, hshared, Bool.false_or, equiv_iff_of_restrict (hnames r) (hnames q)]
  cases r
  cases q
  simp [toValue, lookup_record_cons, alike_map_iff Column.alike_toValue]

namespace Schema

variable {old new : Schema}

theorem restrict_formValue (s : Schema) : s.formValue.restrict formAttributes = s.formValue := by
  have hlookup : ∀ k ∈ formAttributes, s.formValue.lookup k = s.toValue.lookup k := fun k hk => by
    rw [formValue, lookup_restrict, if_pos hk]
  rw [formValue, restrict, restrict]
  exact congrArg record
    (List.map_congr_left fun k hk => by rw [← hlookup k hk, formValue, restrict])

/-- **The attributes of two forms differ as declared.** -/
theorem changedAttributes_formValue (old new : Schema) :
    old.formValue.changedAttributes new.formValue = formDifferences old new := by
  have hint : ∀ m n : Int, Value.equiv (int m) (int n) = decide (m = n) := alike_int
  have htext : ∀ x y : String, Value.equiv (text x) (text y) = decide (x = y) := alike_text
  have hlayout : Value.equiv (list (old.layout.map Row.toValue))
      (list (new.layout.map Row.toValue)) = decide (old.layout = new.layout) :=
    Bool.eq_iff_iff.mpr ((alike_map_iff Row.alike_toValue).trans decide_eq_true_iff.symm)
  rw [changedAttributes_eq old.restrict_formValue new.restrict_formValue, formDifferences,
    ← List.filterMap_eq_filter]
  simp [formValue, lookup_restrict, formAttributes, toValue, lookup_record_cons, htext, hint,
    hlayout, List.filterMap_cons, Option.guard]

end Schema

end LiveForm
