import LiveForm.Pattern.Parser
import LiveForm.Proofs.Field.Check
import LiveForm.Proofs.Schema.Script

/-!
# Choices that can be made

The fields of an accepted schema offer choices of any value that can be written as JSON, but a field
that picks one of its choices holds a text. So a choice can be made just when it is a text, and one
of another kind is told to have the wrong type whenever it is made. A list of choices may hold what
the field offers, of any kind.

* `Field.PicksOne`, `Field.Unlimited`: fields that hold one of their choices, and fields without
  limits on texts;
* `Field.check_choice_iff`, `Field.check_list_of_choices`: which choices are let stand;
* `Schema.choices_of_report`: a field of an accepted schema that picks a choice has one;
* **`Schema.choosable_of_report`**: the choices of an accepted schema that can be made;
* `Schema.not_choosable_of_errors`: not all of them can.
-/

namespace LiveForm

namespace Value

variable {v : Value}

theorem eq_text_of_kind (h : v.kind = .text) : ∃ s, v = text s := by
  cases v with
  | text s => exact ⟨s, rfl⟩
  | _ => cases h

/-- Nothing but the text itself equals a text. -/
theorem eq_of_alike_text {s : String} (h : v.alike (text s) = true) : v = text s := by
  cases v <;> simp_all [alike, sharedNaN, equiv, scalarEquiv, extent?, number?]

end Value

namespace Field

open Value

variable {search : Pattern.Search} {f : Field} {v raw : Value} {required : Bool}
  {items : List Value}

/-- The field holds one of its choices. -/
def PicksOne (f : Field) : Prop := f.type = .select ∨ f.type = .radio

/-- The field limits neither the length nor the form of a text. -/
structure Unlimited (f : Field) : Prop where
  minLength : f.constraints.minLength = none
  maxLength : f.constraints.maxLength = none
  pattern : f.constraints.pattern = none

/-! ## Picking one choice -/

theorem offers_text_iff {s : String} : f.Offers (text s) ↔ text s ∈ f.choiceValues := by
  rw [choiceValues, List.mem_map]
  constructor
  · rintro ⟨c, hc, halike⟩
    exact ⟨c, hc, eq_of_alike_text halike⟩
  · rintro ⟨c, hc, heq⟩
    exact ⟨c, hc, by rw [heq, alike_refl]⟩

theorem read_text (hf : f.PicksOne) {s : String} (hs : (text s).isBlank = false) :
    Typed.read (some f.type) (text s) = .text s := by
  unfold Typed.read
  rw [if_neg (Bool.eq_false_iff.mp hs)]
  rcases hf with hf | hf <;> rw [hf]

/-- **What is no text has the wrong type** for a field that picks one choice. -/
theorem check_of_not_text (hf : f.PicksOne) (hblank : raw.isBlank = false)
    (hkind : raw.kind ≠ .text) :
    f.check search raw required = .ok [.fieldType f.key f.type.name raw.kindName] := by
  refine check_of_isInvalid ?_
  unfold Typed.read
  rw [if_neg (Bool.eq_false_iff.mp hblank)]
  cases raw with
  | text s => exact absurd rfl hkind
  | _ => rcases hf with hf | hf <;> rw [hf] <;> rfl

/-- **A text is let stand** when it is offered, if there is no limit on it. -/
theorem check_text_iff (hf : f.PicksOne) (hfree : f.Unlimited) (hchoices : f.choices ≠ [])
    {s : String} (hs : (text s).isBlank = false) :
    f.check search (text s) required = .ok [] ↔ text s ∈ f.choiceValues := by
  have hread := read_text hf hs
  have hchosen : f.chosen (.text s) = [text s] := by
    unfold chosen
    rcases hf with hf | hf <;> rw [hf] <;> rfl
  have hfits : (Typed.read (some f.type) (text s)).Fits := by
    rw [hread]
    exact ⟨rfl, rfl⟩
  rw [check_eq_nil_iff hfits, hread, ← offers_text_iff]
  constructor
  · rintro ⟨-, -, -, hoffered⟩
    exact hoffered hchoices (text s) (hchosen ▸ List.mem_cons_self)
  · intro hoffers
    refine ⟨fun n hn => (nomatch hn), fun t _ => ⟨fun m hm => ?_, fun m hm => ?_⟩,
      fun t _ p hp => ?_, fun _ w hw => ?_⟩
    · rw [hfree.minLength] at hm
      cases hm
    · rw [hfree.maxLength] at hm
      cases hm
    · rw [hfree.pattern] at hp
      cases hp
    · rw [hchosen, List.mem_singleton] at hw
      exact hw ▸ hoffers

/-- **A choice is let stand** when it is a text. -/
theorem check_choice_iff (hf : f.PicksOne) (hfree : f.Unlimited) (hv : v ∈ f.choiceValues)
    (hblank : v.isBlank = false) : f.check search v required = .ok [] ↔ v.kind = .text := by
  by_cases hkind : v.kind = .text
  · obtain ⟨s, rfl⟩ := eq_text_of_kind hkind
    have hchoices : f.choices ≠ [] := by
      rintro hnil
      rw [choiceValues, hnil] at hv
      cases hv
    exact iff_of_true ((check_text_iff hf hfree hchoices hblank).mpr hv) rfl
  · rw [check_of_not_text hf hblank hkind]
    exact iff_of_false (fun hnil => List.cons_ne_nil _ _ (Except.ok.inj hnil)) hkind

/-- **A field that needs a choice can be filled** when a text that is not empty is among its
choices. -/
theorem exists_check_iff (hf : f.PicksOne) (hfree : f.Unlimited) (hchoices : f.choices ≠ []) :
    (∃ raw, f.check search raw true = .ok []) ↔
      ∃ v ∈ f.choiceValues, v.isBlank = false ∧ v.kind = .text := by
  constructor
  · rintro ⟨raw, hraw⟩
    have hblank : raw.isBlank = false := by
      by_contra hblank
      have hempty : (Typed.read (some f.type) raw).isEmpty = true := by
        unfold Typed.read
        rw [if_pos ((Bool.not_eq_false _).mp hblank)]
        rfl
      rw [check_of_isEmpty hempty, if_pos rfl] at hraw
      cases hraw
    by_cases hkind : raw.kind = .text
    · obtain ⟨s, rfl⟩ := eq_text_of_kind hkind
      exact ⟨text s, (check_text_iff hf hfree hchoices hblank).mp hraw, hblank, rfl⟩
    · rw [check_of_not_text hf hblank hkind] at hraw
      cases hraw
  · rintro ⟨v, hv, hblank, hkind⟩
    exact ⟨v, (check_choice_iff hf hfree hv hblank).mpr hkind⟩

/-! ## Checking several choices -/

/-- **A list of choices is let stand**, whatever their kinds. -/
theorem check_list_of_choices (hf : f.type = .checkbox) (hne : items ≠ [])
    (hitems : ∀ v ∈ items, v ∈ f.choiceValues) : f.check search (list items) required = .ok [] := by
  have hread : Typed.read (some f.type) (list items) = .list items := by
    unfold Typed.read
    rw [hf, isBlank, List.isEmpty_eq_false_iff.mpr hne]
    rfl
  have hchosen : f.chosen (.list items) = items := by
    unfold chosen
    rw [hf]
  refine check_eq_nil_iff_admits.mpr (Or.inr ?_)
  rw [hread]
  refine ⟨⟨rfl, rfl⟩, ⟨fun _ hn => (nomatch hn), fun _ hs => (nomatch hs),
    fun _ hs => (nomatch hs), fun _ v hv => ?_⟩⟩
  rw [hchosen] at hv
  obtain ⟨c, hc, rfl⟩ := List.mem_map.mp (hitems v hv)
  exact ⟨c, hc, alike_refl c.value⟩

/-- **The choices of a field that can be made.** -/
structure Choosable (search : Pattern.Search) (f : Field) : Prop where
  /-- A field that picks a choice has one. -/
  offers : f.PicksOne → f.choices ≠ []
  /-- If texts are not limited, a choice is let stand when it is a text, required or not. -/
  picked : f.PicksOne → f.Unlimited → ∀ v ∈ f.choiceValues, v.isBlank = false →
    ∀ required, f.check search v required = .ok [] ↔ v.kind = .text
  /-- A choice of another kind has the wrong type. -/
  refused : f.PicksOne → ∀ v ∈ f.choiceValues, v.isBlank = false → v.kind ≠ .text →
    ∀ required, f.check search v required = .ok [.fieldType f.key f.type.name v.kindName]
  /-- So a required field cannot be filled if no choice is a text. -/
  fillable : f.PicksOne → f.Unlimited →
    ((∃ raw, f.check search raw true = .ok []) ↔
      ∃ v ∈ f.choiceValues, v.isBlank = false ∧ v.kind = .text)
  /-- A list of choices is let stand, whatever their kinds. -/
  listed : f.type = .checkbox → ∀ items, items ≠ [] → (∀ v ∈ items, v ∈ f.choiceValues) →
    ∀ required, f.check search (list items) required = .ok []

end Field

/-! ## Accepted schemas -/

namespace Schema

open LiveForm.Field

variable {s : Schema} {overrides : Value} {report : Report} {f : Field}

theorem choices_of_choiceFindings {path : String} (h : OnlyWarnings (choiceFindings path f))
    (hf : f.PicksOne) : f.choices ≠ [] := by
  intro hnil
  rw [choiceFindings, hnil, if_neg (by simp)] at h
  rcases hf with hf | hf <;> rw [hf] at h <;> exact not_onlyWarnings_error h

theorem choices_of_fieldFindings {index : ℕ} {before : List String} {fs : List Field}
    (h : OnlyWarnings (fieldFindings index before fs)) : ∀ f ∈ fs, f.PicksOne → f.choices ≠ [] := by
  induction fs generalizing index before with
  | nil => exact fun _ hf => absurd hf List.not_mem_nil
  | cons f fs ih =>
    rw [fieldFindings] at h
    simp only [onlyWarnings_append] at h
    obtain ⟨⟨⟨⟨-, hchoices⟩, -⟩, -⟩, hrest⟩ := h
    exact List.forall_mem_cons.mpr ⟨choices_of_choiceFindings hchoices, ih hrest⟩

theorem choices_of_report {grid : ℤ} (h : (s.report grid).errors = []) :
    ∀ f ∈ s.fields, f.PicksOne → f.choices ≠ [] := by
  have hfound := onlyWarnings_of_report h
  simp only [findings, onlyWarnings_append] at hfound
  obtain ⟨⟨⟨⟨-, hfields⟩, -⟩, -⟩, -⟩ := hfound
  exact choices_of_fieldFindings hfields

/-- **The choices of an accepted schema that can be made**: the texts where one is picked, and all
of them in a list. -/
theorem choosable_of_report (h : s.reportFor overrides = .ok report) (herrors : report.errors = [])
    (hf : f ∈ s.fields) (search : Pattern.Search) : f.Choosable search := by
  obtain ⟨grid, rfl⟩ := exists_grid_of_reportFor h
  have hchoices := choices_of_report herrors f hf
  exact {
    offers := hchoices
    picked := fun hpicks hfree v hv hblank required => check_choice_iff hpicks hfree hv hblank
    refused := fun hpicks v _ hblank hkind required => check_of_not_text hpicks hblank hkind
    fillable := fun hpicks hfree => exists_check_iff hpicks hfree (hchoices hpicks)
    listed := fun htype items hne hitems required => check_list_of_choices htype hne hitems }

/-- A field with sizes to pick one of, which is required. -/
def sizeField : Field where
  key := "size"
  type := .select
  label := "Size"
  default := .null
  constraints := { required := true }
  choices := [⟨.int 41, "41"⟩, ⟨.int 42, "42"⟩, ⟨.text "other", "Other"⟩]
  visible := true
  formula := none

/-- A form with that field. -/
def shoeForm : Schema where
  id := "shoes"
  version := 1
  title := "Shoes"
  description := ""
  fields := [sizeField]
  rules := []
  layout := []

theorem shoeForm_errors : (shoeForm.report 12).errors = [] :=
  errors_eq_nil_of_advance (by decide +kernel) (by decide +kernel)

theorem shoeForm_reportFor : shoeForm.reportFor .null = .ok (shoeForm.report 12) :=
  reportFor_null shoeForm (by decide +kernel)

theorem size_choosable : ∃ report, (shoeForm.reportFor .null = .ok report ∧ report.errors = []) ∧
    sizeField ∈ shoeForm.fields ∧ sizeField.Choosable Pattern.search :=
  ⟨_, ⟨shoeForm_reportFor, shoeForm_errors⟩, List.mem_cons_self,
    choosable_of_report shoeForm_reportFor shoeForm_errors List.mem_cons_self Pattern.search⟩

/-- **Not every choice of an accepted schema can be made**: a size that is a number cannot. -/
theorem not_choosable_of_errors : ¬ ∀ (search : Pattern.Search) (s : Schema) (overrides : Value)
    (report : Report), s.reportFor overrides = .ok report → report.errors = [] →
      ∀ f ∈ s.fields, f.PicksOne → f.Unlimited → ∀ v ∈ f.choiceValues, v.isBlank = false →
        ∀ required, f.check search v required = .ok [] := by
  intro h
  have hsize := h Pattern.search shoeForm .null _ shoeForm_reportFor shoeForm_errors sizeField
    List.mem_cons_self (Or.inl rfl) ⟨rfl, rfl, rfl⟩ (.int 42) (by simp [choiceValues, sizeField])
    rfl true
  rw [check_of_not_text (Or.inl rfl) rfl (by decide)] at hsize
  cases hsize

end Schema

end LiveForm
