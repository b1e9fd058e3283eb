import LiveForm.FieldCheck
import LiveForm.Proofs.Result
import LiveForm.Proofs.Rule.Coherent

/-!
# What a check lets stand

The check of a raw value gives notices. It gives none exactly for the values that the field admits:
no value where none is required, and else one of the field's type that meets its limits, its pattern
and its choices. The notices tell what is wrong, each limit once and each unoffered value by itself.
There is no answer only where the search for the pattern is broken off.

* `Field.InRange`, `Field.InLength`, `Field.Matches`, `Field.Offers`: what a reading has to meet;
* `Field.BreaksOff`: the search for the pattern is broken off;
* `Field.Admits`: the values that may stand;
* `Field.check_eq_parts`: a check looks at the parts one after another;
* `Field.Tells`: a notice that is given once, and exactly when something holds;
* **`Field.checks`**: what a check gives for any value.
-/

namespace LiveForm

namespace Typed

/-- There is a value, and it has the type that was asked for. -/
structure Fits (t : Typed) : Prop where
  notEmpty : t.isEmpty = false
  valid : t.isInvalid = false

end Typed

namespace Field

variable {search : Pattern.Search} {f : Field} {t : Typed} {raw : Value} {required : Bool}
  {ns : List Notice} {cause : Pattern.Interruption}

/-! ## What a reading has to meet -/

/-- A number is neither below the least nor above the greatest allowed one. -/
def InRange (f : Field) (t : Typed) : Prop := ∀ n, t = .number n →
  (∀ m, f.constraints.min = some m → n.lt m = false) ∧
    ∀ m, f.constraints.max = some m → m.lt n = false

/-- A text is neither too short nor too long. -/
def InLength (f : Field) (t : Typed) : Prop := ∀ s, t = .text s →
  (∀ m, f.constraints.minLength = some m → m ≤ s.length) ∧
    ∀ m, f.constraints.maxLength = some m → (s.length : ℤ) ≤ m

/-- The pattern, unless it is empty, occurs in a text. -/
def Matches (search : Pattern.Search) (f : Field) (t : Typed) : Prop := ∀ s, t = .text s →
  ∀ p, f.constraints.pattern = some p → p ≠ "" → search p s = .ok true

/-- The search for the pattern in a text is broken off. -/
def BreaksOff (search : Pattern.Search) (f : Field) (t : Typed) (cause : Pattern.Interruption) :
    Prop :=
  ∃ s, t = .text s ∧ ∃ p, f.constraints.pattern = some p ∧ p ≠ "" ∧
    search p s = .error (.interrupted cause)

/-- The value is one of the choices. -/
def Offers (f : Field) (v : Value) : Prop := ∃ c ∈ f.choices, c.value.alike v = true

/-- The values of a reading that have to be choices: the one that was selected, or the members of a
list of checked ones. -/
def chosen (f : Field) (t : Typed) : List Value :=
  match f.type with
  | .select | .radio => [t.toValue]
  | .checkbox =>
    match t with
    | .list items => items
    | _ => []
  | _ => []

/-- **What a field asks of the reading of a value.** -/
structure Meets (search : Pattern.Search) (f : Field) (t : Typed) : Prop where
  range : f.InRange t
  length : f.InLength t
  pattern : f.Matches search t
  offered : f.choices ≠ [] → ∀ v ∈ f.chosen t, f.Offers v

/-- **The values that may stand**: none where none is required, and those that fit the type and meet
what is asked. -/
def Admits (search : Pattern.Search) (f : Field) (raw : Value) (required : Bool) : Prop :=
  let t := Typed.read (some f.type) raw
  (t.isEmpty = true ∧ required = false) ∨ t.Fits ∧ f.Meets search t

/-! ## Limits -/

theorem outOfRange_iff {n : Number} :
    f.constraints.outOfRange n = true ↔ ¬ f.InRange (.number n) := by
  unfold Constraints.outOfRange InRange
  cases f.constraints.min <;> cases f.constraints.max <;> grind

theorem badLength_iff {s : String} :
    f.constraints.badLength s.length = true ↔ ¬ f.InLength (.text s) := by
  unfold Constraints.badLength InLength
  cases f.constraints.minLength <;> cases f.constraints.maxLength <;> grind

theorem lacksPattern_iff {s : String} {lacks : Bool}
    (h : f.constraints.lacksPattern search s = .ok lacks) :
    lacks = true ↔ ¬ f.Matches search (.text s) := by
  unfold Constraints.lacksPattern at h
  unfold Matches
  split at h <;> grind

theorem lacksPattern_eq_error_iff {s : String} :
    f.constraints.lacksPattern search s = .error cause ↔ f.BreaksOff search (.text s) cause := by
  unfold Constraints.lacksPattern BreaksOff
  split <;> grind

theorem member_choiceValues {v : Value} : v.member f.choiceValues = true ↔ f.Offers v := by
  simp [Value.member, choiceValues, Offers]

/-! ## The parts of a check -/

/-- The notice about the range of a number. -/
def rangePart (f : Field) : Typed → List Notice
  | .number n => f.checkNumber n
  | _ => []

/-- The notice about the length of a text. -/
def lengthPart (f : Field) : Typed → List Notice
  | .text s =>
    let c := f.constraints
    if c.badLength s.length then
      [.fieldLength f.key s.length c.minLength c.maxLength c.message] else []
  | _ => []

/-- The notice about the pattern of a text. -/
def patternPart (search : Pattern.Search) (f : Field) :
    Typed → Except Pattern.Interruption (List Notice)
  | .text s =>
    let c := f.constraints
    (c.lacksPattern search s).map fun lacks =>
      if lacks then [.fieldPattern f.key (c.pattern.getD "") c.message] else []
  | _ => .ok []

/-- **A check looks at the parts one after another**: the range, the length, the pattern, and the
choices. -/
theorem check_eq_parts (h : t.Fits) (ht : Typed.read (some f.type) raw = t) :
    f.check search raw required = (f.patternPart search t).map fun notices =>
      f.rangePart t ++ f.lengthPart t ++ notices ++ f.checkChoices (f.chosen t) := by
  have hreads := Typed.reads f.type raw
  have hnone : f.checkChoices [] = [] := by simp [checkChoices]
  obtain ⟨hempty, hvalid⟩ := h
  unfold check chosen
  rw [ht] at hreads ⊢
  generalize f.type = type at hreads
  cases hreads with
  | blank | nan => cases hempty
  | invalid => cases hvalid
  | number => simp [rangePart, lengthPart, patternPart, hnone, Except.map]
  | @text _ s htype =>
    dsimp only [checkText, rangePart, lengthPart, patternPart]
    cases f.constraints.lacksPattern search s with
    | error cause => rfl
    | ok lacks =>
      -- Only two of the types that hold a text have choices.
      cases type <;> simp [hnone, Typed.toValue, Except.map, bind, Except.bind] at htype ⊢
  | boolean | date | list => simp [rangePart, lengthPart, patternPart, hnone, Except.map]

/-! ## Single notices -/

/-- **The part of a check about one kind of finding**: at most one notice, of that kind, given
exactly when something holds. -/
structure IsPart (ns : List Notice) (kind : Notice.Kind) (p : Prop) : Prop where
  kinds : ∀ n ∈ ns, n.kind = kind
  short : ns.length ≤ 1
  ne_nil_iff : ns ≠ [] ↔ p

theorem isPart_nil {kind : Notice.Kind} {p : Prop} (h : ¬ p) : IsPart [] kind p :=
  ⟨fun _ hn => absurd hn List.not_mem_nil, Nat.zero_le 1, iff_of_false (fun hne => hne rfl) h⟩

theorem isPart_ite {b : Bool} {n : Notice} {p : Prop} (h : b = true ↔ p) :
    IsPart (if b = true then [n] else []) n.kind p := by
  cases b with
  | false => exact isPart_nil fun hp => Bool.false_ne_true (h.mpr hp)
  | true =>
    refine ⟨fun m hm => ?_, Nat.le_refl 1, iff_of_true (List.cons_ne_nil n []) (h.mp rfl)⟩
    rw [List.mem_singleton.mp hm]

theorem isPart_rangePart (f : Field) (t : Typed) :
    IsPart (f.rangePart t) .fieldRange (¬ f.InRange t) := by
  cases t with
  | number n => exact isPart_ite outOfRange_iff
  | _ => exact isPart_nil fun h => h fun _ hn => nomatch hn

theorem isPart_lengthPart (f : Field) (t : Typed) :
    IsPart (f.lengthPart t) .fieldLength (¬ f.InLength t) := by
  cases t with
  | text s => exact isPart_ite badLength_iff
  | _ => exact isPart_nil fun h => h fun _ hs => nomatch hs

theorem isPart_patternPart (h : f.patternPart search t = .ok ns) :
    IsPart ns .fieldPattern (¬ f.Matches search t) := by
  cases t with
  | text s =>
    obtain ⟨lacks, hlacks, rfl⟩ := map_eq_ok.mp h
    exact isPart_ite (lacksPattern_iff hlacks)
  | _ =>
    cases h
    exact isPart_nil fun h => h fun _ hs => nomatch hs

theorem patternPart_eq_error_iff :
    f.patternPart search t = .error cause ↔ f.BreaksOff search t cause := by
  cases t with
  | text s =>
    rw [← lacksPattern_eq_error_iff, patternPart]
    cases f.constraints.lacksPattern search s <;> simp [Except.map]
  | _ => exact iff_of_false nofun fun ⟨_, hs, _⟩ => nomatch hs

theorem BreaksOff.not_matches (h : f.BreaksOff search t cause) : ¬ f.Matches search t := by
  obtain ⟨s, hs, p, hp, hne, hbroken⟩ := h
  intro hmatches
  rw [hmatches s hs p hp hne] at hbroken
  cases hbroken

theorem patternPart_eq_nil_iff : f.patternPart search t = .ok [] ↔ f.Matches search t := by
  cases h : f.patternPart search t with
  | error cause =>
    exact iff_of_false nofun (patternPart_eq_error_iff.mp h).not_matches
  | ok found =>
    rw [Except.ok.injEq]
    exact not_iff_not.mp (isPart_patternPart h).ne_nil_iff

/-! ## Choices -/

theorem checkChoices_of_nil (hchoices : f.choices = []) (vs : List Value) :
    f.checkChoices vs = [] := by
  simp [checkChoices, choiceValues, hchoices]

/-- **The notices about choices** are one for each value that is not offered, in order. -/
theorem checkChoices_eq (hchoices : f.choices ≠ []) (vs : List Value) : f.checkChoices vs =
    (vs.filter fun v => !v.member f.choiceValues).map fun v =>
      .fieldChoice f.key v f.choiceValues := by
  simp [checkChoices, choiceValues, hchoices]

theorem kind_of_mem_checkChoices {vs : List Value} {n : Notice} (h : n ∈ f.checkChoices vs) :
    n.kind = .fieldChoice := by
  by_cases hchoices : f.choices = []
  · simp [checkChoices_of_nil hchoices] at h
  · rw [checkChoices_eq hchoices] at h
    obtain ⟨v, -, rfl⟩ := List.mem_map.mp h
    rfl

theorem checkChoices_eq_nil_iff {vs : List Value} :
    f.checkChoices vs = [] ↔ (f.choices ≠ [] → ∀ v ∈ vs, f.Offers v) := by
  by_cases hchoices : f.choices = []
  · simp [checkChoices_of_nil hchoices, hchoices]
  · simp [checkChoices_eq hchoices, ← member_choiceValues, hchoices]

/-! ## The whole check -/

theorem countP_of_kinds {kind kind' : Notice.Kind} (h : ∀ n ∈ ns, n.kind = kind') :
    ns.countP (·.kind = kind) = if kind' = kind then ns.length else 0 := by
  split
  · next hkind => exact List.countP_eq_length.mpr fun n hn => by simp [h n hn, hkind]
  · next hkind => exact List.countP_eq_zero.mpr fun n hn => by simp [h n hn, hkind]

/-- **A notice is given at most once, and exactly when something holds.** -/
structure Tells (ns : List Notice) (kind : Notice.Kind) (p : Prop) : Prop where
  once : ns.countP (·.kind = kind) ≤ 1
  iff : (∃ n ∈ ns, n.kind = kind) ↔ p

theorem IsPart.tells {part : List Notice} {kind : Notice.Kind} {p : Prop} (h : IsPart part kind p)
    (hcount : ns.countP (·.kind = kind) = part.length) : Tells ns kind p := by
  refine ⟨hcount ▸ h.short, ?_⟩
  have hpos : 0 < ns.countP (·.kind = kind) ↔ ∃ n ∈ ns, n.kind = kind := by simp
  rw [← hpos, hcount, ← h.ne_nil_iff, List.length_pos_iff]

/-- **What the check of a value gives.** -/
structure Checks (search : Pattern.Search) (f : Field) (raw : Value) (required : Bool) : Prop where
  /-- There are no notices for the values that may stand, and for no others. -/
  admits : f.check search raw required = .ok [] ↔ f.Admits search raw required
  /-- A missing value that is required is all that is told of. -/
  missing : (Typed.read (some f.type) raw).isEmpty = true → required = true →
    f.check search raw required = .ok [.fieldRequired f.key f.constraints.message]
  /-- So is a value of another type. -/
  unfit : (Typed.read (some f.type) raw).isInvalid = true →
    f.check search raw required = .ok [.fieldType f.key f.type.name raw.kindName]
  /-- Nothing but a search for the pattern breaks the check off. -/
  broken : ∀ cause, f.check search raw required = .error cause ↔
    f.BreaksOff search (.read (some f.type) raw) cause
  /-- Else each limit, and the pattern, is told of once when it is not met. -/
  limits : (Typed.read (some f.type) raw).Fits → ∀ ns, f.check search raw required = .ok ns →
    Tells ns .fieldRange (¬ f.InRange (.read (some f.type) raw)) ∧
    Tells ns .fieldLength (¬ f.InLength (.read (some f.type) raw)) ∧
    Tells ns .fieldPattern (¬ f.Matches search (.read (some f.type) raw))
  /-- And every value that is not among the choices is told of, in order. -/
  unoffered : (Typed.read (some f.type) raw).Fits → f.choices ≠ [] →
    ∀ ns, f.check search raw required = .ok ns → ns.filter (·.kind = .fieldChoice) =
      ((f.chosen (.read (some f.type) raw)).filter fun v => !v.member f.choiceValues).map fun v =>
        .fieldChoice f.key v f.choiceValues
  /-- Where there are no choices, none of that is told. -/
  free : (Typed.read (some f.type) raw).Fits → f.choices = [] →
    ∀ ns, f.check search raw required = .ok ns → ∀ n ∈ ns, n.kind ≠ .fieldChoice
  /-- Nothing else is told. -/
  kinds : (Typed.read (some f.type) raw).Fits → ∀ ns, f.check search raw required = .ok ns →
    ∀ n ∈ ns, n.kind ∈ [.fieldRange, .fieldLength, .fieldPattern, .fieldChoice]

section Fitting

variable (h : (Typed.read (some f.type) raw).Fits)

include h

theorem exists_parts (hns : f.check search raw required = .ok ns) : ∃ found,
    f.patternPart search (.read (some f.type) raw) = .ok found ∧
    ns = f.rangePart (.read (some f.type) raw) ++ f.lengthPart (.read (some f.type) raw) ++ found ++
      f.checkChoices (f.chosen (.read (some f.type) raw)) := by
  rw [check_eq_parts h rfl] at hns
  obtain ⟨found, hfound, rfl⟩ := map_eq_ok.mp hns
  exact ⟨found, hfound, rfl⟩

theorem check_eq_nil_iff :
    f.check search raw required = .ok [] ↔ f.Meets search (.read (some f.type) raw) := by
  have hrange := not_iff_not.mp (isPart_rangePart f (.read (some f.type) raw)).ne_nil_iff
  have hlength := not_iff_not.mp (isPart_lengthPart f (.read (some f.type) raw)).ne_nil_iff
  constructor
  · intro hnil
    obtain ⟨found, hfound, hparts⟩ := exists_parts h hnil
    simp only [List.nil_eq, List.append_eq_nil_iff, checkChoices_eq_nil_iff] at hparts
    obtain ⟨⟨⟨hnorange, hnolength⟩, rfl⟩, hoffered⟩ := hparts
    exact ⟨hrange.mp hnorange, hlength.mp hnolength, patternPart_eq_nil_iff.mp hfound, hoffered⟩
  · rintro ⟨hinrange, hinlength, hmatches, hoffered⟩
    rw [check_eq_parts h rfl, patternPart_eq_nil_iff.mpr hmatches, hrange.mpr hinrange,
      hlength.mpr hinlength, checkChoices_eq_nil_iff.mpr hoffered]
    rfl

theorem countP_check (hns : f.check search raw required = .ok ns) {found : List Notice}
    (hfound : f.patternPart search (.read (some f.type) raw) = .ok found) (kind : Notice.Kind) :
    ns.countP (·.kind = kind) =
    (if .fieldRange = kind then (f.rangePart (.read (some f.type) raw)).length else 0) +
    (if .fieldLength = kind then (f.lengthPart (.read (some f.type) raw)).length else 0) +
    (if .fieldPattern = kind then found.length else 0) +
    (if .fieldChoice = kind then
      (f.checkChoices (f.chosen (.read (some f.type) raw))).length else 0) := by
  obtain ⟨found', hfound', rfl⟩ := exists_parts h hns
  obtain rfl := Except.ok.inj (hfound.symm.trans hfound')
  rw [List.countP_append, List.countP_append, List.countP_append,
    countP_of_kinds (isPart_rangePart f _).kinds, countP_of_kinds (isPart_lengthPart f _).kinds,
    countP_of_kinds (isPart_patternPart hfound).kinds,
    countP_of_kinds fun _ => kind_of_mem_checkChoices]

theorem kind_of_mem_check (hns : f.check search raw required = .ok ns) {n : Notice} (hn : n ∈ ns) :
    n.kind ∈ [.fieldRange, .fieldLength, .fieldPattern, .fieldChoice] := by
  obtain ⟨found, hfound, rfl⟩ := exists_parts h hns
  rw [List.mem_append, List.mem_append, List.mem_append] at hn
  rcases hn with ((hn | hn) | hn) | hn
  · simp [(isPart_rangePart f _).kinds n hn]
  · simp [(isPart_lengthPart f _).kinds n hn]
  · simp [(isPart_patternPart hfound).kinds n hn]
  · simp [kind_of_mem_checkChoices hn]

theorem filter_check (hns : f.check search raw required = .ok ns) :
    ns.filter (·.kind = .fieldChoice) =
      f.checkChoices (f.chosen (.read (some f.type) raw)) := by
  have hother : ∀ {part : List Notice} {kind : Notice.Kind} {p : Prop}, IsPart part kind p →
      kind ≠ .fieldChoice → part.filter (·.kind = .fieldChoice) = [] := by
    intro part kind p hpart hkind
    exact List.filter_eq_nil_iff.mpr fun n hn => by simp [hpart.kinds n hn, hkind]
  have hself : ∀ vs, (f.checkChoices vs).filter (·.kind = .fieldChoice) = f.checkChoices vs :=
    fun vs => List.filter_eq_self.mpr fun n hn => by simp [kind_of_mem_checkChoices hn]
  obtain ⟨found, hfound, rfl⟩ := exists_parts h hns
  rw [List.filter_append, List.filter_append, List.filter_append, hself,
    hother (isPart_rangePart f _) (by simp), hother (isPart_lengthPart f _) (by simp),
    hother (isPart_patternPart hfound) (by simp)]
  rfl

end Fitting

theorem check_of_isEmpty (h : (Typed.read (some f.type) raw).isEmpty = true) :
    f.check search raw required =
      .ok (if required then [.fieldRequired f.key f.constraints.message] else []) := by
  unfold check
  cases hread : Typed.read (some f.type) raw with
  | empty => rfl
  | _ => simp [hread, Typed.isEmpty] at h

theorem check_of_isInvalid (h : (Typed.read (some f.type) raw).isInvalid = true) :
    f.check search raw required = .ok [.fieldType f.key f.type.name raw.kindName] := by
  unfold check
  cases hread : Typed.read (some f.type) raw with
  | invalid => rfl
  | _ => simp [hread, Typed.isInvalid] at h

theorem isEmpty_or_isInvalid_or_fits (t : Typed) :
    t.isEmpty = true ∨ t.isInvalid = true ∨ t.Fits := by
  cases hempty : t.isEmpty with
  | true => exact .inl rfl
  | false =>
    cases hinvalid : t.isInvalid with
    | true => exact .inr (.inl rfl)
    | false => exact .inr (.inr ⟨hempty, hinvalid⟩)

/-- **The check lets stand what the field admits.** -/
theorem check_eq_nil_iff_admits :
    f.check search raw required = .ok [] ↔ f.Admits search raw required := by
  unfold Admits
  dsimp only
  rcases isEmpty_or_isInvalid_or_fits (.read (some f.type) raw) with hempty | hinvalid | hfits
  · have hunfit : ¬ (Typed.read (some f.type) raw).Fits := fun h => by
      simp [h.notEmpty] at hempty
    rw [check_of_isEmpty hempty]
    cases required <;> simp [hempty, hunfit]
  · have hunfit : ¬ (Typed.read (some f.type) raw).Fits := fun h => by
      simp [h.valid] at hinvalid
    have hempty : (Typed.read (some f.type) raw).isEmpty = false := by
      cases hread : Typed.read (some f.type) raw <;> simp_all [Typed.isEmpty, Typed.isInvalid]
    rw [check_of_isInvalid hinvalid]
    simp [hempty, hunfit]
  · rw [check_eq_nil_iff hfits]
    simp [hfits, hfits.notEmpty]

/-- **A check is broken off with the search for the pattern.** -/
theorem check_eq_error_iff : f.check search raw required = .error cause ↔
    f.BreaksOff search (.read (some f.type) raw) cause := by
  rcases isEmpty_or_isInvalid_or_fits (.read (some f.type) raw) with hempty | hinvalid | hfits
  · rw [check_of_isEmpty hempty]
    refine iff_of_false nofun fun ⟨s, hs, _⟩ => ?_
    rw [hs] at hempty
    cases hempty
  · rw [check_of_isInvalid hinvalid]
    refine iff_of_false nofun fun ⟨s, hs, _⟩ => ?_
    rw [hs] at hinvalid
    cases hinvalid
  · rw [check_eq_parts hfits rfl, ← patternPart_eq_error_iff]
    cases f.patternPart search (.read (some f.type) raw) <;> simp [Except.map]

/-- **What a check gives for any value.** -/
theorem checks (search : Pattern.Search) (f : Field) (raw : Value) (required : Bool) :
    f.Checks search raw required where
  admits := check_eq_nil_iff_admits
  missing hempty hrequired := by
    rw [check_of_isEmpty hempty, if_pos hrequired]
  unfit hinvalid := check_of_isInvalid hinvalid
  broken _ := check_eq_error_iff
  limits h ns hns := by
    obtain ⟨found, hfound, -⟩ := exists_parts h hns
    refine ⟨(isPart_rangePart f _).tells ?_, (isPart_lengthPart f _).tells ?_,
      (isPart_patternPart hfound).tells ?_⟩ <;> simp [countP_check h hns hfound]
  unoffered h hchoices ns hns := by
    rw [filter_check h hns, checkChoices_eq hchoices]
  free h hchoices ns hns n hn hkind := by
    have hnone : ns.filter (·.kind = .fieldChoice) = [] := by
      rw [filter_check h hns, checkChoices_of_nil hchoices]
    exact List.filter_eq_nil_iff.mp hnone n hn (decide_eq_true hkind)
  kinds h _ hns _ hn := kind_of_mem_check h hns hn

end Field

end LiveForm
