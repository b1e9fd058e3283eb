import Mathlib.Data.List.Perm.Basic
import LiveForm.Proofs.History.Change

/-!
# Changes applied and reversed

The changes from one schema to another lead from the parts of the first to those of the second, in
any order. Reversed, they are the changes of the way back.

* `Schema.parts`, `Change.apply`: a schema as tables of its parts, and what a change does to them;
* **`applied_changesBetween`**: the changes lead to the new schema;
* `Change.reversed`, **`reversed_changesBetween`**: the way back;
* **`changesBetween_complete_reversible`**: the changes are complete, and can be reversed;
* `not_changed_iff_differ`: equal documents that share a NaN are told of as well.
-/

namespace LiveForm

/-- Two tables have the same keys, with equal values. -/
def Table.Alike (t t' : Table String Value) : Prop :=
  ∀ key, Option.Rel (fun v w => v.alike w = true) (t.get? key) (t'.get? key)

/-- The attributes of the form, the fields by key and the rules by id. -/
def Schema.parts (s : Schema) : Part → Table String Value
  | .form => .ofKeys formAttributes s.formValue.lookup
  | .field => s.fieldValues
  | .rule => s.ruleValues

namespace Change

/-! ## Applying -/

/-- What a change does to the table of its kind of part: that of the form gives attributes anew,
others give a document or take it away. -/
def patch (c : Change) (t : Table String Value) : Table String Value :=
  match c.part, c.kind with
  | .form, _ => c.after.attributes.foldl (fun t k => t.set k (c.after.lookup k)) t
  | _, .removed => t.erase c.id
  | _, _ => t.set c.id c.after

/-- The parts of a schema after a change. -/
def apply (parts : Part → Table String Value) (c : Change) : Part → Table String Value :=
  fun part => if part = c.part then c.patch (parts part) else parts part

/-- The parts of a schema after changes, one by one. -/
def applyAll (cs : List Change) (parts : Part → Table String Value) : Part → Table String Value :=
  cs.foldl apply parts

variable {c : Change} {cs : List Change} {part : Part} {parts : Part → Table String Value}
  {id : String}

theorem get?_patch (hpart : c.part ≠ .form) (t : Table String Value) (id : String) :
    (c.patch t).get? id =
      if c.id = id then if c.kind = .removed then none else some c.after else t.get? id := by
  obtain ⟨kind, part, cid, details, before, after⟩ := c
  cases part with
  | form => exact absurd rfl hpart
  | field | rule => cases kind <;> simp [patch, Table.get?_erase, Table.get?_set]

theorem applyAll_of_part_ne (h : ∀ c ∈ cs, c.part ≠ part) (parts : Part → Table String Value) :
    applyAll cs parts part = parts part := by
  induction cs generalizing parts with
  | nil => rfl
  | cons c cs ih =>
    obtain ⟨hc, hcs⟩ := List.forall_mem_cons.mp h
    rw [applyAll, List.foldl_cons, ← applyAll, ih hcs, apply, if_neg (Ne.symm hc)]

theorem get?_applyAll_of_ne (hform : part ≠ .form) (h : ∀ c ∈ cs, c.part = part → c.id ≠ id)
    (parts : Part → Table String Value) :
    (applyAll cs parts part).get? id = (parts part).get? id := by
  induction cs generalizing parts with
  | nil => rfl
  | cons c cs ih =>
    obtain ⟨hc, hcs⟩ := List.forall_mem_cons.mp h
    rw [applyAll, List.foldl_cons, ← applyAll, ih hcs, apply]
    split
    · next hpart =>
      rw [get?_patch (hpart ▸ hform), if_neg (hc hpart.symm)]
    · rfl

/-- A change that is the only one of its part decides what becomes of the part. -/
theorem get?_applyAll_of_mem (hunique : (cs.map subject).Nodup) (hc : c ∈ cs)
    (hform : c.part ≠ .form) (parts : Part → Table String Value) :
    (applyAll cs parts c.part).get? c.id =
      if c.kind = .removed then none else some c.after := by
  obtain ⟨before, after, rfl⟩ := List.append_of_mem hc
  rw [List.map_append, List.map_cons, List.nodup_middle, List.nodup_cons] at hunique
  have hafter : ∀ d ∈ after, d.part = c.part → d.id ≠ c.id := by
    intro d hd hpart hid
    refine hunique.1 (List.mem_append_right _ (List.mem_map.mpr ⟨d, hd, ?_⟩))
    rw [subject, subject, hpart, hid]
  rw [applyAll, List.foldl_append, List.foldl_cons, ← applyAll, ← applyAll,
    get?_applyAll_of_ne hform hafter, apply, if_pos rfl, get?_patch hform, if_pos rfl]

theorem Tells.outcome {old new : Option Value} (h : Tells part id old new c) :
    (if c.kind = .removed then none else some c.after) = new := by
  cases h <;> simp [altered]

theorem rel_of_not_tells {names : List String} {old new : Option Value}
    (hold : ∀ v, old = some v → v.restrict names = v)
    (hnew : ∀ v, new = some v → v.restrict names = v) (h : ∀ c, ¬ Tells part id old new c) :
    Option.Rel (fun v w => v.alike w = true) old new := by
  cases old with
  | none =>
    cases new with
    | none => exact .none
    | some after => exact absurd (.added after) (h _)
  | some before =>
    cases new with
    | none => exact absurd (.removed before) (h _)
    | some after =>
      have hequal := mt (Value.changedAttributes_ne_nil (hold _ rfl) (hnew _ rfl)).mpr
        fun hne => h _ (.changed hne)
      rw [not_or, Bool.not_eq_false] at hequal
      exact .some (Bool.or_eq_true_iff.mpr (Or.inr hequal.1))

end Change

variable {old new : Schema} {cs : List Change} {part : Part}

theorem get?_parts (h : old.Distinct) (hform : part ≠ .form) (id : String) :
    (old.parts part).get? id = old.document part id := by
  cases part with
  | form => exact absurd rfl hform
  | field => exact Schema.get?_fieldValues h id
  | rule => exact Schema.get?_ruleValues h id

theorem applied_part (hold : old.Distinct) (hnew : new.Distinct) (hform : part ≠ .form)
    (hcs : cs.Perm (changesBetween (some old) new)) :
    (Change.applyAll cs old.parts part).Alike (new.parts part) := by
  have hunique : (cs.map Change.subject).Nodup :=
    (hcs.map Change.subject).nodup_iff.mpr (nodup_changesBetween hold hnew)
  have hmem : ∀ {id : String} {c : Change},
      Change.Tells part id (old.document part id) (new.document part id) c → c ∈ cs :=
    fun h => hcs.mem_iff.mpr ((mem_changesBetween hold hnew).mpr (Or.inr ⟨_, _, h⟩))
  intro id
  rw [get?_parts hnew hform]
  by_cases htold : ∃ c ∈ cs, c.part = part ∧ c.id = id
  · obtain ⟨c, hc, rfl, rfl⟩ := htold
    rw [Change.get?_applyAll_of_mem hunique hc hform]
    rcases (mem_changesBetween hold hnew).mp (hcs.mem_iff.mp hc) with hc | ⟨p, id, h⟩
    · exact absurd (part_of_mem_formChanges hc) hform
    · obtain rfl := h.part_eq
      obtain rfl := h.id_eq
      rw [h.outcome]
      cases new.document c.part c.id with
      | none => exact .none
      | some v => exact .some (Value.alike_refl v)
  · have hother : ∀ c ∈ cs, c.part = part → c.id ≠ id := fun c hc hpart hid =>
      htold ⟨c, hc, hpart, hid⟩
    rw [Change.get?_applyAll_of_ne hform hother, get?_parts hold hform]
    exact Change.rel_of_not_tells (fun _ => Schema.restrict_document)
      (fun _ => Schema.restrict_document)
      fun c h => htold ⟨c, hmem h, h.part_eq, h.id_eq⟩

theorem get?_parts_form (s : Schema) (key : String) : (s.parts .form).get? key =
    if key ∈ formAttributes then some (s.formValue.lookup key) else none :=
  Table.get?_ofKeys formAttributes s.formValue.lookup key

theorem mem_formDifferences {key : String} : key ∈ formDifferences old new ↔
    (old.formValue.lookup key).equiv (new.formValue.lookup key) = false := by
  rw [← Schema.changedAttributes_formValue,
    Value.mem_changedAttributes old.restrict_formValue new.restrict_formValue]

theorem formDifferences_subset : formDifferences old new ⊆ formAttributes := by
  rw [← Schema.changedAttributes_formValue,
    Value.changedAttributes_eq old.restrict_formValue new.restrict_formValue]
  exact List.filter_subset_self _

theorem rel_form (key : String) : Option.Rel (fun v w => v.alike w = true)
    (if key ∈ formDifferences old new then some (new.formValue.lookup key)
      else (old.parts .form).get? key)
    ((new.parts .form).get? key) := by
  rw [get?_parts_form, get?_parts_form]
  by_cases hdiffer : key ∈ formDifferences old new
  · rw [if_pos hdiffer, if_pos (formDifferences_subset hdiffer)]
    exact .some (Value.alike_refl _)
  · have hequal := mt mem_formDifferences.mpr hdiffer
    rw [Bool.not_eq_false] at hequal
    rw [if_neg hdiffer]
    split
    · exact .some (Bool.or_eq_true_iff.mpr (Or.inr hequal))
    · exact .none

theorem get?_applied_form (hold : old.Distinct) (hnew : new.Distinct)
    (hcs : cs.Perm (changesBetween (some old) new)) (key : String) :
    (Change.applyAll cs old.parts .form).get? key =
      if key ∈ formDifferences old new then some (new.formValue.lookup key)
      else (old.parts .form).get? key := by
  have hform : ∀ c, c ∈ cs ∧ c.part = .form ↔ c ∈ formChanges old new := by
    intro c
    rw [hcs.mem_iff]
    exact mem_changesBetween_form hold hnew
  by_cases htold : ∃ c ∈ cs, c.part = .form
  · obtain ⟨c, hc, hpart⟩ := htold
    have hunique : (cs.map Change.subject).Nodup :=
      (hcs.map Change.subject).nodup_iff.mpr (nodup_changesBetween hold hnew)
    have hafter : c.after = new.formValue.restrict (formDifferences old new) := by
      rw [(mem_formChanges.mp ((hform c).mp ⟨hc, hpart⟩)).2]
      rfl
    have hsubject : ∀ d ∈ cs, d.part = .form → d.subject = c.subject := by
      intro d hd hdpart
      rw [(mem_formChanges.mp ((hform c).mp ⟨hc, hpart⟩)).2,
        (mem_formChanges.mp ((hform d).mp ⟨hd, hdpart⟩)).2]
    obtain ⟨first, last, rfl⟩ := List.append_of_mem hc
    rw [List.map_append, List.map_cons, List.nodup_middle, List.nodup_cons, ← List.map_append]
      at hunique
    have hother : ∀ d ∈ first ++ last, d.part ≠ .form := by
      intro d hd hdpart
      have hd' := List.perm_middle.mem_iff.mpr (List.mem_cons_of_mem c hd)
      exact hunique.1 (List.mem_map.mpr ⟨d, hd, hsubject d hd' hdpart⟩)
    obtain ⟨hfirst, hlast⟩ := List.forall_mem_append.mp hother
    rw [Change.applyAll, List.foldl_append, List.foldl_cons, ← Change.applyAll,
      ← Change.applyAll, Change.applyAll_of_part_ne hlast, Change.apply, if_pos hpart.symm,
      Change.applyAll_of_part_ne hfirst, Change.patch, hpart, hafter, Value.attributes_restrict]
    dsimp only
    rw [Table.get?_foldl_set, Value.lookup_restrict]
    split <;> rfl
  · have hnone : formDifferences old new = [] := by
      by_contra hne
      obtain ⟨hc, hpart⟩ := (hform _).mpr (mem_formChanges.mpr ⟨hne, rfl⟩)
      exact htold ⟨_, hc, hpart⟩
    rw [Change.applyAll_of_part_ne fun c hc hpart => htold ⟨c, hc, hpart⟩, hnone,
      if_neg List.not_mem_nil]

/-- **The changes lead to the new schema**, in any order. -/
theorem applied_changesBetween (hold : old.Distinct) (hnew : new.Distinct)
    (hcs : cs.Perm (changesBetween (some old) new)) (part : Part) :
    (Change.applyAll cs old.parts part).Alike (new.parts part) := by
  by_cases hform : part = .form
  · subst hform
    intro key
    rw [get?_applied_form hold hnew hcs]
    exact rel_form key
  · exact applied_part hold hnew hform hcs

/-! ## Reversing -/

/-- The kind of a change on the way back. -/
def ChangeKind.reversed : ChangeKind → ChangeKind
  | .added => .removed
  | .changed => .changed
  | .removed => .added

/-- A change on the way back. The form goes by the id that it had. -/
def Change.reversed (formId : String) (c : Change) : Change where
  kind := c.kind.reversed
  part := c.part
  id := if c.part = .form then formId else c.id
  details := c.details
  before := c.after
  after := c.before

namespace Change

variable {id formId : String} {c : Change}

theorem reversed_reversed (h : c.part = .form → c.id = id) :
    (c.reversed formId).reversed id = c := by
  obtain ⟨kind, part, cid, details, before, after⟩ := c
  cases kind <;> cases part <;> simp_all [reversed, ChangeKind.reversed]

theorem Tells.reversed {part : Part} {old new : Option Value} {names : List String}
    (hold : ∀ v, old = some v → v.restrict names = v ∧ v.proper = true)
    (hnew : ∀ v, new = some v → v.restrict names = v ∧ v.proper = true) (hform : part ≠ .form)
    (h : Tells part id old new c) : Tells part id new old (c.reversed formId) := by
  cases h with
  | added after =>
    rw [Change.reversed, if_neg hform]
    exact .removed after
  | removed before =>
    rw [Change.reversed, if_neg hform]
    exact .added before
  | @changed before after h =>
    have hcomm := Value.changedAttributes_comm (hold _ rfl).1 (hnew _ rfl).1 (hold _ rfl).2
      (hnew _ rfl).2
    rw [Change.reversed, altered, if_neg hform, ← hcomm]
    exact .changed (hcomm ▸ h)

end Change

theorem formDifferences_comm (old new : Schema) :
    formDifferences new old = formDifferences old new := by
  simp only [formDifferences, ne_comm]

theorem reversed_formChanges (old new : Schema) :
    formChanges new old = (formChanges old new).map (Change.reversed old.id) := by
  rw [formChanges, formChanges, Schema.changedAttributes_formValue,
    Schema.changedAttributes_formValue, formDifferences_comm]
  split
  · rfl
  · rfl

theorem Schema.Proper.document {s : Schema} (h : s.Proper) {id : String} {v : Value}
    (hv : s.document part id = some v) : v.proper = true := by
  cases part with
  | form => cases hv
  | field =>
    obtain ⟨f, hf, rfl⟩ := Option.map_eq_some_iff.mp hv
    have hmem := List.mem_of_find?_eq_some hf
    exact Field.proper_toValue (h.defaults f hmem) (h.choices f hmem)
  | rule =>
    obtain ⟨r, hr, rfl⟩ := Option.map_eq_some_iff.mp hv
    have hmem := List.mem_of_find?_eq_some hr
    exact Rule.proper_toValue (h.compares r hmem) (h.effects r hmem)

theorem id_of_mem_form (hold : old.Distinct) (hnew : new.Distinct) {c : Change}
    (hc : c ∈ changesBetween (some old) new) (hpart : c.part = .form) : c.id = new.id := by
  rw [(mem_formChanges.mp ((mem_changesBetween_form hold hnew).mp ⟨hc, hpart⟩)).2]
  rfl

theorem reversed_mem (hold : old.Distinct) (hnew : new.Distinct) (hpold : old.Proper)
    (hpnew : new.Proper) {c : Change} (hc : c ∈ changesBetween (some old) new) :
    c.reversed old.id ∈ changesBetween (some new) old := by
  rcases (mem_changesBetween hold hnew).mp hc with hc | ⟨part, id, h⟩
  · refine (mem_changesBetween hnew hold).mpr (Or.inl ?_)
    rw [reversed_formChanges]
    exact List.mem_map_of_mem hc
  · have hform : part ≠ .form := by
      rintro rfl
      cases h
    exact (mem_changesBetween hnew hold).mpr (Or.inr ⟨part, id, h.reversed
      (fun _ hv => ⟨Schema.restrict_document hv, hpold.document hv⟩)
      (fun _ hv => ⟨Schema.restrict_document hv, hpnew.document hv⟩) hform⟩)

/-- **The way back has the reversed changes**, perhaps in another order. -/
theorem reversed_changesBetween (hold : old.Distinct) (hnew : new.Distinct) (hpold : old.Proper)
    (hpnew : new.Proper) : (changesBetween (some new) old).Perm
      ((changesBetween (some old) new).map (Change.reversed old.id)) := by
  have htwice : ∀ c ∈ changesBetween (some old) new,
      (c.reversed old.id).reversed new.id = c := fun c hc =>
    Change.reversed_reversed fun hpart => id_of_mem_form hold hnew hc hpart
  have hback := (nodup_changesBetween hnew hold).of_map Change.subject
  have hforth : ((changesBetween (some old) new).map (Change.reversed old.id)).Nodup := by
    refine ((nodup_changesBetween hold hnew).of_map Change.subject).map_on fun c hc d hd h => ?_
    rw [← htwice c hc, h, htwice d hd]
  refine (List.perm_ext_iff_of_nodup hback hforth).mpr fun c => ⟨fun hc => ?_, fun hc => ?_⟩
  · have hreversed := reversed_mem hnew hold hpnew hpold hc
    refine List.mem_map.mpr ⟨_, hreversed, ?_⟩
    exact Change.reversed_reversed fun hpart => id_of_mem_form hnew hold hc hpart
  · obtain ⟨d, hd, rfl⟩ := List.mem_map.mp hc
    exact reversed_mem hold hnew hpold hpnew hd

/-! ## Completeness and reversal -/

/-- **The changes between two schemas are complete, lead from one to the other in any order, and
are reversed on the way back.** -/
theorem changesBetween_complete_reversible (old new : Schema) (hold : old.Distinct)
    (hnew : new.Distinct) (hpold : old.Proper) (hpnew : new.Proper) :
    Change.Exact old new (changesBetween (some old) new) ∧
      (∀ cs, cs.Perm (changesBetween (some old) new) → ∀ part,
        (Change.applyAll cs old.parts part).Alike (new.parts part)) ∧
      (changesBetween (some new) old).Perm
        ((changesBetween (some old) new).map (Change.reversed old.id)) :=
  ⟨exact_changesBetween hold hnew, fun _ hcs part => applied_changesBetween hold hnew hcs part,
    reversed_changesBetween hold hnew hpold hpnew⟩

/-- A survey whose only field has a default. -/
def survey (default : Value) : Schema where
  id := "survey"
  version := 1
  title := "Survey"
  description := ""
  fields := [
    { key := "score", type := .number, label := "", default, constraints := {}, choices := [],
      visible := true, formula := none }]
  rules := []
  layout := []

/-- The survey with a new version and a second field. -/
def longSurvey : Schema :=
  { survey (.int 2) with
    version := 2
    fields := (survey (.int 2)).fields ++ [
      { key := "note", type := .text, label := "", default := .null, constraints := {},
        choices := [], visible := true, formula := none }] }

theorem distinct_survey (default : Value) : (survey default).Distinct :=
  ⟨List.nodup_singleton _, List.nodup_nil⟩

theorem distinct_longSurvey : longSurvey.Distinct := ⟨by decide, List.nodup_nil⟩

theorem proper_survey : (survey (.int 1)).Proper :=
  ⟨by decide, by decide, by decide, by decide⟩

theorem proper_longSurvey : longSurvey.Proper := ⟨by decide, by decide, by decide, by decide⟩

theorem survey_revised : (survey (.int 1)).Distinct ∧ longSurvey.Distinct ∧
    (survey (.int 1)).Proper ∧ longSurvey.Proper ∧
    Change.Exact (survey (.int 1)) longSurvey (changesBetween (some (survey (.int 1))) longSurvey) ∧
    (∀ cs, cs.Perm (changesBetween (some (survey (.int 1))) longSurvey) → ∀ part,
      (Change.applyAll cs (survey (.int 1)).parts part).Alike (longSurvey.parts part)) ∧
    (changesBetween (some longSurvey) (survey (.int 1))).Perm
      ((changesBetween (some (survey (.int 1))) longSurvey).map (Change.reversed "survey")) :=
  ⟨distinct_survey _, distinct_longSurvey, proper_survey, proper_longSurvey,
    changesBetween_complete_reversible (survey (.int 1)) longSurvey (distinct_survey _)
      distinct_longSurvey proper_survey proper_longSurvey⟩

/-- **Documents that are equal are told of as changed where they share a NaN.** -/
theorem not_changed_iff_differ : ¬ ∀ old new : Schema, old.Distinct → new.Distinct → ∀ key,
    (∃ c ∈ changesBetween (some old) new, c.part = .field ∧ c.id = key ∧ c.kind = .changed) ↔
      ∃ before after, (old.field? key).map Field.toValue = some before ∧
        (new.field? key).map Field.toValue = some after ∧ before.equiv after = false := by
  intro h
  have hdistinct := distinct_survey (.float (.nan 0))
  have hchanged := ((exact_changesBetween hdistinct hdistinct).fields.changed "score").mpr
    ⟨_, _, rfl, rfl, Or.inr ⟨"default_value", by decide +kernel⟩⟩
  obtain ⟨before, after, hbefore, hafter, hdiffer⟩ :=
    (h _ _ hdistinct hdistinct "score").mp hchanged
  obtain rfl := Option.some.inj (hbefore.symm.trans hafter)
  obtain rfl := Option.some.inj hbefore
  rw [Value.equiv_refl _ rfl] at hdiffer
  cases hdiffer

end LiveForm
