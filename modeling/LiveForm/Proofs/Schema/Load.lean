import Mathlib.Data.List.TakeWhile
import LiveForm.Schema.Load
import LiveForm.Proofs.Files.Tree
import LiveForm.Proofs.Json.Native
import LiveForm.Proofs.Schema.RoundTrip
import LiveForm.Proofs.Value.Decidable

/-!
# Round trips of schemas

A schema is saved as a document, in memory or in a JSON file, and read from there. It comes back as
it was, with its dates as dates and its moments as moments, just when no moment in it has an offset
below a second: the text of such an offset is written, and then read as UTC.

That a JSON text is read back as the document it was written from is not shown here. What concerns
files assumes it of the text at hand, and there is none when an integer is too long to be written.

* `Path.lowerSuffix_of_isBlankText`: a path with a suffix is not blank;
* `Schema.render_eq`: the JSON text of a native document, if it has one;
* `Schema.dump_eq`, `Schema.load_eq`, **`Schema.load_dump`**: a saved schema is loaded;
* `Schema.RoundTrips`: a schema is read back from its document and from a file;
* **`Schema.roundTrips_iff`**: so is what was read of a document, just when its moments can be read.
-/

namespace LiveForm

/-! ## Paths -/

namespace Path

theorem mem_of_mem_splitSlashes {cs part : List Char} (h : part ∈ splitSlashes cs) :
    ∀ c ∈ part, c ∈ cs := by
  induction cs generalizing part with
  | nil =>
    rw [List.mem_singleton.mp h]
    exact fun _ hc => hc
  | cons d cs ih =>
    rw [splitSlashes.eq_def] at h
    dsimp only at h
    split at h
    · rcases List.mem_cons.mp h with rfl | h
      · exact fun _ hc => absurd hc List.not_mem_nil
      · exact fun c hc => List.mem_cons_of_mem _ (ih h c hc)
    · next first rest _ hsplit =>
      have hfirst : ∀ c ∈ first, c ∈ cs := ih (by rw [hsplit]; exact List.mem_cons_self)
      have hrest : ∀ q ∈ rest, ∀ c ∈ q, c ∈ cs := fun q hq =>
        ih (by rw [hsplit]; exact List.mem_cons_of_mem _ hq)
      rcases List.mem_cons.mp h with rfl | h
      · exact List.cons_subset_cons _ hfirst
      · exact fun c hc => List.mem_cons_of_mem _ (hrest part h c hc)
    · rw [List.mem_singleton.mp h]
      exact fun c hc => List.mem_cons.mpr (Or.inl (List.mem_singleton.mp hc))

theorem suffixOf_eq_nil {name : List Char} (h : '.' ∉ name) : suffixOf name = [] := by
  have htake : name.reverse.takeWhile (· ≠ '.') = name.reverse := by
    refine List.takeWhile_eq_self_iff.mpr fun c hc => ?_
    rw [decide_eq_true_eq]
    rintro rfl
    exact h (List.mem_reverse.mp hc)
  rw [suffixOf, htake, List.reverse_reverse]
  exact if_pos (Or.inr (by omega))

theorem lowerSuffix_of_isBlankText {s : String} (h : isBlankText s = true) :
    (ofText s).lowerSuffix = "" := by
  have hname : '.' ∉ (ofText s).name.toList := by
    intro hpoint
    rw [name] at hpoint
    cases hlast : (ofText s).names.getLast? with
    | none =>
      rw [hlast] at hpoint
      cases hpoint
    | some last =>
      rw [hlast, Option.getD_some] at hpoint
      obtain ⟨hmem, -⟩ := List.mem_filter.mp (List.mem_of_getLast? hlast)
      obtain ⟨part, hpart, rfl⟩ := List.mem_map.mp hmem
      rw [String.toList_ofList] at hpoint
      exact absurd (List.all_eq_true.mp h _ (mem_of_mem_splitSlashes hpart _ hpoint)) (by decide)
  rw [lowerSuffix, suffix, suffixOf_eq_nil hname]
  rfl

end Path

namespace Schema

variable {s : Schema} {yaml : Yaml.Library} {fs fs' : Files} {p : Path} {text : String}

/-! ## Files -/

theorem render_eq (h : s.toValue.isNative = true) : Format.render yaml s.entries .json =
    if s.toValue.longest ≤ digitLimit then .ok (Json.tree false s.toValue).indented
    else .error .digits := by
  have hentries : s.toValue = .map s.entries := rfl
  rw [Format.render, ← hentries, Json.ofValue_eq false _ h]
  split_ifs <;> rfl

theorem dump_eq (hsuffix : p.lowerSuffix = ".json") : dump yaml fs s p =
    ((Format.render yaml s.entries .json).mapError .value).bind fun text =>
      (fs.saveText p text).mapError .file := by
  have hformat : Format.ofSuffix? p.lowerSuffix = some .json := by
    rw [hsuffix]
    rfl
  unfold dump
  rw [hformat]
  rfl

theorem load_eq {path : String} (hsuffix : (Path.ofText path).lowerSuffix = ".json")
    (hhas : fs.has (Path.ofText path) = true)
    (hread : fs.readText (Path.ofText path) = .ok text) {entries : Entries}
    (hparse : Format.parse yaml .json text = .ok (.map entries)) :
    load yaml fs (some path) = (Schema.ofValue (.map entries)).mapError .shape := by
  have hformat : Format.ofSuffix? (Path.ofText path).lowerSuffix = some .json := by
    rw [hsuffix]
    rfl
  have hblank : (!isBlankText path) = true := by
    cases hblank : isBlankText path with
    | false => rfl
    | true =>
      rw [Path.lowerSuffix_of_isBlankText hblank] at hsuffix
      exact absurd hsuffix (by decide)
  have hpath : (some path).filter (!isBlankText ·) = some path := by
    rw [Option.filter_some, if_pos hblank]
  rw [load, hpath]
  simp only [hhas, hformat, hread, Except.mapError, ok_bind, hparse, Bool.not_true,
    Bool.false_eq_true, if_false]

/-- **A schema that was saved as JSON is loaded**, as far as its text is read back as its
document. -/
theorem load_dump {path : String} (hsuffix : (Path.ofText path).lowerSuffix = ".json")
    (hrender : Format.render yaml s.entries .json = .ok text)
    (hparse : Format.parse yaml .json text = .ok (.map s.entries))
    (hread : Schema.ofValue s.toValue = .ok s)
    (hsave : fs.saveText (Path.ofText path) text = .ok fs') :
    dump yaml fs s (Path.ofText path) = .ok fs' ∧ load yaml fs' (some path) = .ok s := by
  have hentries : s.toValue = .map s.entries := rfl
  obtain ⟨hhas, htext⟩ := Files.readText_saveText hsave
  refine ⟨by rw [dump_eq hsuffix, hrender]; exact congrArg (Except.mapError _) hsave, ?_⟩
  rw [load_eq hsuffix hhas htext hparse, ← hentries, hread]
  rfl

/-! ## Round trips -/

/-- **What a schema is read back from**: its document, which is native, and a JSON file. -/
structure RoundTrips (s : Schema) : Prop where
  native : s.toValue.isNative = true
  reads : ofValue s.toValue = .ok s
  /-- All documents after the first one are the same. -/
  stable : ∀ s', ofValue s.toValue = .ok s' → s'.toValue = s.toValue
  /-- There is a text to save, unless an integer is too long. Where it is read back as the document,
  and the files can be written, the schema is loaded from there. -/
  files : s.toValue.longest ≤ digitLimit → ∀ yaml : Yaml.Library,
    ∃ text, Format.render yaml s.entries .json = .ok text ∧
      (Format.parse yaml .json text = .ok (.map s.entries) →
        ∀ path : String, (Path.ofText path).lowerSuffix = ".json" → ∀ fs : Files,
          (∀ cause, fs.saveText (Path.ofText path) text = .error cause →
            dump yaml fs s (Path.ofText path) = .error (.file cause)) ∧
          ∀ fs', fs.saveText (Path.ofText path) text = .ok fs' →
            dump yaml fs s (Path.ofText path) = .ok fs' ∧ load yaml fs' (some path) = .ok s)
  /-- With such an integer nothing is saved. -/
  unsaved : digitLimit < s.toValue.longest → ∀ (yaml : Yaml.Library) (path : String),
    (Path.ofText path).lowerSuffix = ".json" → ∀ fs : Files,
      dump yaml fs s (Path.ofText path) = .error (.value .digits)

theorem Restored.roundTrips (h : s.Restored) : s.RoundTrips := by
  have hnative := h.serializable.isNative_toValue
  have hread := ofValue_toValue h
  refine ⟨hnative, hread, fun s' hs' => ?_, fun hshort yaml => ?_,
    fun hlong yaml path hsuffix fs => ?_⟩
  · rw [Except.ok.inj (hs'.symm.trans hread)]
  · have hrender := (@render_eq _ yaml hnative).trans (if_pos hshort)
    refine ⟨_, hrender, fun hparse path hsuffix fs => ⟨fun cause hsave => ?_, fun fs' hsave =>
      load_dump hsuffix hrender hparse hread hsave⟩⟩
    rw [dump_eq hsuffix, hrender]
    exact congrArg (Except.mapError _) hsave
  · rw [dump_eq hsuffix, render_eq hnative, if_neg (Nat.not_le.mpr hlong)]
    rfl

/-! ## Documents with dates -/

deriving instance DecidableEq for Choice, Field, Rule, Schema

/-- A form with a date to start with, and a rule that compares it with another. -/
def dueDocument : Value := .record [
  ("id", .text "due"),
  ("title", .text "Due"),
  ("fields", .list [
    .record [("key", .text "due"), ("type", .text "date"),
      ("default_value", .date ⟨2024, 1, 31, by decide⟩)],
    .record [("key", .text "note"), ("type", .text "text")]]),
  ("rules", .list [
    .record [("id", .text "late"), ("trigger_field", .text "due"),
      ("operator", .text "greater_than"), ("compare_value", .text "2024-02-28T10:30:00+01:00"),
      ("target_field", .text "note"), ("effect", .text "visibility"),
      ("effect_value", .bool true)]])]

/-- What is read of it: the text of the rule is a moment. -/
def dueForm : Schema where
  id := "due"
  version := 1
  title := "Due"
  description := ""
  fields := [
    { key := "due", type := .date, label := "", default := .date ⟨2024, 1, 31, by decide⟩,
      constraints := {}, choices := [], visible := true, formula := none },
    { key := "note", type := .text, label := "", default := .null,
      constraints := {}, choices := [], visible := true, formula := none }]
  rules := [
    { id := "late", name := "", trigger := "due", operator := .greaterThan,
      compare := .moment ⟨⟨2024, 2, 28, by decide⟩, 10, 30, 0, 0,
        some ⟨3600000000, by decide⟩, by decide⟩,
      target := "note", effect := .visibility, effectValue := .bool true }]
  layout := []

theorem ofValue_dueDocument : ofValue dueDocument = .ok dueForm :=
  eq_ok_of_toOption (by decide +kernel)

theorem given_of_items {d : Value}
    (hdefaults : ∀ v ∈ (d.lookup "fields").items, ∃ type ∈ FieldType.all,
      v.lookup "type" = .text type.name ∧ Value.FreeFor (some type) (v.lookup "default_value"))
    (hchoices : ∀ v ∈ (d.lookup "fields").items, ∀ w ∈ (v.lookup "options").items,
      (w.lookup "value").isNative = true)
    (hrules : ∀ v ∈ (d.lookup "rules").items,
      (v.lookup "compare_value").isNative = true ∧ (v.lookup "effect_value").isNative = true) :
    Given d s where
  defaults v hv path f hf := by
    obtain ⟨type, htype, hname, hfree⟩ := hdefaults v hv
    obtain ⟨hread, -, -⟩ := Field.of_ofValue hf
    rw [hname, Value.asName_name (by decide) htype] at hread
    rwa [← Except.ok.inj hread]
  choices := hchoices
  compares v hv _ _ _ := .native (hrules v hv).1
  effects v hv _ _ _ := .native (hrules v hv).2

theorem given_dueDocument : Given dueDocument dueForm :=
  given_of_items (by decide +kernel) (by decide +kernel) (by decide +kernel)

theorem regular_dueForm : dueForm.Regular where
  defaults := List.forall_mem_cons.mpr
    ⟨fun _ hm => (nomatch hm), List.forall_mem_singleton.mpr fun _ hm => (nomatch hm)⟩
  compares := List.forall_mem_singleton.mpr fun m hm o ho => by
    cases hm
    cases ho
    exact Or.inr (by decide)
  effects := List.forall_mem_singleton.mpr fun _ hm => (nomatch hm)

theorem parse_dueForm (yaml : Yaml.Library) :
    ∃ text, Format.render yaml dueForm.entries .json = .ok text ∧
      Format.parse yaml .json text = .ok (.map dueForm.entries) := by
  refine ⟨_, rfl, ?_⟩
  -- The characters are taken before they are encoded as a text.
  rw [Format.parse, Value.ofJsonText, Json.parse, Json.indented, String.toList_ofList]
  exact eq_ok_of_toOption (by decide +kernel)

/-- Half a thousandth of a second. -/
def driftOffset : Offset := ⟨500, by decide⟩

/-- A form whose date to start with has an offset. -/
def driftForm (offset : Offset) : Schema where
  id := "drift"
  version := 1
  title := "Drift"
  description := ""
  fields := [
    { key := "due", type := .date, label := "",
      default := .moment ⟨⟨2024, 1, 31, by decide⟩, 10, 0, 0, 0, some offset, by decide⟩,
      constraints := {}, choices := [], visible := true, formula := none }]
  rules := []
  layout := []

/-- A document that gives this offset. -/
def driftDocument : Value := .record [
  ("id", .text "drift"),
  ("title", .text "Drift"),
  ("fields", .list [
    .record [("key", .text "due"), ("type", .text "date"),
      ("default_value", .moment ⟨⟨2024, 1, 31, by decide⟩, 10, 0, 0, 0,
        some driftOffset, by decide⟩)]])]

theorem given_driftDocument : Given driftDocument (driftForm driftOffset) :=
  given_of_items (by decide +kernel) (by decide +kernel) (by decide +kernel)

/-! ## Documents that were read -/

/-- **A schema that was read makes round trips just when its moments can be read.** -/
theorem roundTrips_iff {d : Value} (h : ofValue d = .ok s) (hgiven : Given d s) :
    s.RoundTrips ↔ s.Regular :=
  ⟨fun htrips => regular_of_ofValue_toValue htrips.reads,
    fun hregular => (restored_of_ofValue h hgiven hregular).roundTrips⟩

theorem due_roundTrips : ofValue dueDocument = .ok dueForm ∧ Given dueDocument dueForm ∧
    (∀ yaml : Yaml.Library, ∃ text, Format.render yaml dueForm.entries .json = .ok text ∧
      Format.parse yaml .json text = .ok (.map dueForm.entries)) ∧ dueForm.RoundTrips :=
  ⟨ofValue_dueDocument, given_dueDocument, parse_dueForm,
    (roundTrips_iff ofValue_dueDocument given_dueDocument).mpr regular_dueForm⟩

/-- The offset is written, and read as UTC: another moment. -/
theorem drift_not_roundTrips :
    ofValue driftDocument = .ok (driftForm driftOffset) ∧
    Given driftDocument (driftForm driftOffset) ∧
    ofValue (driftForm driftOffset).toValue = .ok (driftForm .utc) ∧
    (driftForm driftOffset).equiv (driftForm .utc) = false ∧
    ¬ (driftForm driftOffset).RoundTrips := by
  have hdiffer : (driftForm driftOffset).equiv (driftForm .utc) = false := by decide +kernel
  refine ⟨eq_ok_of_toOption (by decide +kernel), given_driftDocument,
    eq_ok_of_toOption (by decide +kernel), hdiffer, fun htrips => ?_⟩
  have hdefaults := (regular_of_ofValue_toValue htrips.reads).defaults
  rcases hdefaults _ List.mem_cons_self _ rfl _ rfl with hutc | hlong
  · exact absurd hutc (by decide)
  · exact absurd hlong (by decide)

end Schema

end LiveForm
