import LiveForm.Proofs.Config.Path
import LiveForm.Proofs.Result
import LiveForm.Proofs.Schema.Script
import LiveForm.Proofs.Value.Printable

/-!
# When there is a report

A report needs the number of columns of the layout grid. The overrides of a configuration may take
it away and still fit the defaults: a layout that is set to null has no options, and a grid that is
set to null, to a list, to a NaN or to an infinite number has no whole number of columns. What a
report writes out may also hold an integer with too many digits: the grid itself, or what a rule has
in the place of a boolean. In all other cases there is a report.

* `Config.section_of_resolve`: what resolving leaves of a section of the defaults;
* `Gridless`, `Schema.NoGrid`: values without a number of columns, and overrides that leave none;
* `Config.gridColumns_eq_error_iff`: they are why a resolved configuration has no grid;
* `Schema.TooLong`: what a report would write out and cannot;
* **`Schema.reportFor_reports`**: when there is a report, and when it is valid;
* `Schema.not_reports_of_resolve`: not every configuration that resolves has one.
-/

namespace LiveForm

open Value

/-! ## Sections of a resolved configuration -/

namespace Config

variable {overrides config : Value} {part : String} {b : Entries}

theorem lookup?_of_not_truthy (h : overrides.truthy = false) (key : String) :
    overrides.lookup? key = none := by
  cases overrides with
  | map o =>
    rw [truthy, Bool.not_eq_false', List.isEmpty_iff] at h
    rw [h]
    rfl
  | _ => rfl

theorem merges_of_resolve (hkeys : overrides.wellKeyed = true)
    (h : resolve overrides = .ok config) : ∃ d o r, defaults = .map d ∧ config = .map r ∧
      (Value.map o).wellKeyed = true ∧ Merges d o r ∧
        ∀ key, find? (text key) o = overrides.lookup? key := by
  obtain ⟨d, hd⟩ : ∃ d, defaults = .map d := ⟨_, rfl⟩
  obtain ⟨hdkeyed, -⟩ := wellKeyed_map.mp (hd ▸ wellKeyed_defaults)
  rw [resolve, hd] at h
  split at h
  · cases overrides with
    | map o =>
      rw [deepMerge] at h
      obtain ⟨r, hr, rfl⟩ := map_eq_ok.mp h
      exact ⟨d, o, r, hd, rfl, hkeys,
        merges_of_mergeEntries hdkeyed (wellKeyed_map.mp hkeys).1 hr, fun key => rfl⟩
    | _ => cases h
  · next hfalse =>
    have hmerges : Merges d [] d := merges_of_mergeEntries hdkeyed Keyed.nil (by rw [mergeEntries])
    exact ⟨d, [], d, hd, (Except.ok.inj h).symm, rfl, hmerges, fun key =>
      (lookup?_of_not_truthy (Bool.eq_false_iff.mpr hfalse) key).symm⟩

/-- **What resolving leaves of a section**: the section itself, null in its place, or its merge with
the entries that the overrides have for it. -/
theorem section_of_resolve (hkeys : overrides.wellKeyed = true)
    (h : resolve overrides = .ok config) (hpart : defaults.lookup? part = some (.map b)) :
    (overrides.lookup? part = none ∧ config.lookup? part = some (.map b)) ∨
    (overrides.lookup? part = some null ∧ config.lookup? part = some null) ∨
    ∃ o r, overrides.lookup? part = some (.map o) ∧ config.lookup? part = some (.map r) ∧
      Merges b o r := by
  obtain ⟨d, o, r, hd, rfl, hokeys, hmerges, hlookup⟩ := merges_of_resolve hkeys h
  rw [hd] at hpart
  change find? (text part) d = some (.map b) at hpart
  rw [← hlookup]
  cases ho : find? (text part) o with
  | none => exact Or.inl ⟨rfl, (hmerges.absent _ ho).trans hpart⟩
  | some override =>
    obtain ⟨merged, hmerged, hat⟩ := hmerges.present _ _ ho
    rw [hpart] at hat
    rcases mergeAt_eq_ok.mp hat with ⟨b', o', r', hb', rfl, hr', rfl⟩ | ⟨hboth, hfit, rfl⟩
    · obtain rfl := Value.map.inj hb'
      have hokeyed := (wellKeyed_map.mp (wellKeyed_of_find? hokeys ho)).1
      have hbkeyed := (wellKeyed_map.mp (wellKeyed_of_find? (hd ▸ wellKeyed_defaults) hpart)).1
      exact Or.inr (Or.inr ⟨o', r', rfl, hmerged, merges_of_mergeEntries hbkeyed hokeyed hr'⟩)
    · -- Only null may stand over a mapping without being merged with it.
      have hnull : merged = null := by
        cases merged <;> simp_all [replaceable, kind, isNumber, number?]
      subst hnull
      exact Or.inr (Or.inl ⟨rfl, hmerged⟩)

end Config

/-! ## The number of columns -/

/-- **A value without a number of columns**, and why it has none. -/
inductive Gridless : Value → IntegerError → Prop
  | null : Gridless null (.kind .null)
  | list (items : List Value) : Gridless (list items) (.kind .list)
  | nan (label : ℕ) : Gridless (float (.nan label)) .notANumber
  | infinite (negative : Bool) : Gridless (float (.infinite negative)) .infinite

theorem toInteger_eq_error_iff {n : ℤ} {v : Value} {cause : IntegerError}
    (hfit : replaceable (int n) v = true) : v.toInteger = .error cause ↔ Gridless v cause := by
  constructor
  · intro h
    cases v with
    | null => exact Except.error.inj h ▸ .null
    | list items => exact Except.error.inj h ▸ .list items
    | float x =>
      cases x with
      | finite negative code => cases h
      | infinite negative => exact Except.error.inj h ▸ .infinite negative
      | nan label => exact Except.error.inj h ▸ .nan label
    | int m => cases h
    | _ => simp [replaceable, kind, isNumber, number?] at hfit
  · rintro (_ | items | label | negative) <;> rfl

namespace Config

variable {overrides config v : Value} {cause : IntegerError}

theorem option?_of_section {part key : String} {es : Entries}
    (h : config.lookup? part = some (.map es)) : option? config part key = find? (text key) es := by
  rw [option?, lookup, h]
  rfl

theorem option?_of_no_section {part : String}
    (h : config.lookup? part = none ∨ config.lookup? part = some null) (key : String) :
    option? config part key = none := by
  rw [option?, lookup]
  rcases h with h | h <;> rw [h] <;> rfl

end Config

namespace Schema

variable {overrides v : Value} {cause : IntegerError}

/-- **Overrides that leave no grid**: they set the layout to null, or its grid to a value without a
number of columns. -/
inductive NoGrid (overrides : Value) : IntegerError → Prop
  | layout : overrides.lookup? "layout" = some null → NoGrid overrides (.kind .null)
  | columns {v : Value} {cause : IntegerError} :
      Config.option? overrides "layout" "grid_columns" = some v → Gridless v cause →
        NoGrid overrides cause

theorem noGrid_iff_of_null (h : overrides.lookup? "layout" = some null) :
    NoGrid overrides cause ↔ cause = .kind .null := by
  constructor
  · rintro (- | ⟨hcolumns, -⟩)
    · rfl
    · rw [Config.option?_of_no_section (Or.inr h)] at hcolumns
      cases hcolumns
  · rintro rfl
    exact .layout h

theorem noGrid_iff_of_option (h : Config.option? overrides "layout" "grid_columns" = some v) :
    NoGrid overrides cause ↔ Gridless v cause := by
  constructor
  · rintro (hnull | ⟨hcolumns, hgridless⟩)
    · rw [Config.option?_of_no_section (Or.inr hnull)] at h
      cases h
    · exact Option.some.inj (h.symm.trans hcolumns) ▸ hgridless
  · exact .columns h

theorem not_noGrid (hlayout : overrides.lookup? "layout" ≠ some null)
    (h : Config.option? overrides "layout" "grid_columns" = none) : ¬ NoGrid overrides cause := by
  rintro (hnull | ⟨hcolumns, -⟩)
  · exact hlayout hnull
  · rw [h] at hcolumns
    cases hcolumns

end Schema

namespace Config

open Schema

variable {overrides config v : Value} {cause : IntegerError}

theorem gridColumns_of_option (h : option? config "layout" "grid_columns" = some v) :
    gridColumns config = v.toInteger := by
  rw [gridColumns, h]

/-- The layout of the defaults. -/
def layoutDefaults : Entries := Value.fields [("grid_columns", int 12)]

theorem lookup?_layout_defaults : defaults.lookup? "layout" = some (.map layoutDefaults) := by
  simp [defaults, record, Value.fields, lookup?, find?_cons, alike_text, layoutDefaults]

theorem find?_layoutDefaults : find? (text "grid_columns") layoutDefaults = some (int 12) := by
  simp [layoutDefaults, Value.fields, find?_cons, alike_text]

theorem gridColumns_eq_error_of_merges {o r : Entries} (hmerges : Merges layoutDefaults o r)
    (hcolumns : find? (text "grid_columns") o = some v)
    (hconfig : config.lookup? "layout" = some (.map r)) :
    gridColumns config = .error cause ↔ Gridless v cause := by
  obtain ⟨merged, hmerged, hat⟩ := hmerges.present _ _ hcolumns
  rw [find?_layoutDefaults] at hat
  rcases mergeAt_eq_ok.mp hat with ⟨_, _, _, hmap, -⟩ | ⟨-, hfit, rfl⟩
  · cases hmap
  · rw [gridColumns_of_option ((option?_of_section hconfig).trans hmerged)]
    exact toInteger_eq_error_iff hfit

/-- **Why a resolved configuration has no grid**: the overrides leave none. -/
theorem gridColumns_eq_error_iff (hkeys : overrides.wellKeyed = true)
    (h : resolve overrides = .ok config) :
    gridColumns config = .error cause ↔ NoGrid overrides cause := by
  have htwelve : ∀ {es}, config.lookup? "layout" = some (.map es) →
      find? (text "grid_columns") es = some (int 12) → gridColumns config ≠ .error cause := by
    intro es hes hcolumns herror
    rw [gridColumns_of_option ((option?_of_section hes).trans hcolumns)] at herror
    cases herror
  rcases section_of_resolve hkeys h lookup?_layout_defaults with
    ⟨ho, hconfig⟩ | ⟨ho, hconfig⟩ | ⟨o, r, ho, hconfig, hmerges⟩
  · refine iff_of_false (htwelve hconfig find?_layoutDefaults)
      (not_noGrid ?_ (option?_of_no_section (Or.inl ho) _))
    rw [ho]
    exact nofun
  · rw [noGrid_iff_of_null ho, gridColumns, option?_of_no_section (Or.inr hconfig), lookup, hconfig]
    exact ⟨fun herror => (Except.error.inj herror).symm, fun hcause => hcause ▸ rfl⟩
  · have hoption := @option?_of_section _ "layout" "grid_columns" _ ho
    cases hcolumns : find? (text "grid_columns") o with
    | none =>
      refine iff_of_false
        (htwelve hconfig ((hmerges.absent _ hcolumns).trans find?_layoutDefaults))
        (not_noGrid ?_ (hoption.trans hcolumns))
      rw [ho]
      exact nofun
    | some v =>
      rw [noGrid_iff_of_option (hoption.trans hcolumns)]
      exact gridColumns_eq_error_of_merges hmerges hcolumns hconfig

end Config

/-! ## Reports -/

namespace Schema

variable {s : Schema} {overrides config : Value} {report : Report} {grid : ℤ}

/-- **What a report would write out is too long**: what stands in the place of a boolean and is no
JSON, or the grid that a column or a row does not fit. -/
inductive TooLong (s : Schema) (grid : ℤ) : Prop
  | effect {r : Rule} : r ∈ s.rules → r.effect ≠ .setValue → r.effectValue.kind ≠ .bool →
      r.effectValue.serializable = false → r.effectValue.HoldsLong → TooLong s grid
  | column {row : Row} {c : Column} : row ∈ s.layout → c ∈ row.columns →
      c.span < 1 ∨ grid < c.span → digitLimit < digitCount grid → TooLong s grid
  | row {row : Row} : row ∈ s.layout → grid < rowWidth row → digitLimit < digitCount grid →
      TooLong s grid

theorem ruleWritable_eq_false_iff {r : Rule} : ruleWritable r = false ↔ r.effect ≠ .setValue ∧
    r.effectValue.kind ≠ .bool ∧ r.effectValue.serializable = false ∧ r.effectValue.HoldsLong := by
  simp [ruleWritable, lacksBoolean, and_assoc, ← printable_eq_false_iff]

theorem rowWritable_eq_false_iff {row : Row} : rowWritable grid row = false ↔
    digitLimit < digitCount grid ∧
      ((∃ c ∈ row.columns, c.span < 1 ∨ grid < c.span) ∨ grid < rowWidth row) := by
  have hmisfits : row.columns.any (misfits grid) = true ↔
      ∃ c ∈ row.columns, c.span < 1 ∨ grid < c.span := by simp [misfits]
  rw [rowWritable, Bool.or_eq_false_iff, Bool.not_eq_false', Bool.or_eq_true, hmisfits, printable,
    decide_eq_false_iff_not, Nat.not_le, overflows, decide_eq_true_eq]

theorem writable_eq_false_iff : s.writable grid = false ↔ s.TooLong grid := by
  rw [writable, Bool.and_eq_false_iff, List.all_eq_false, List.all_eq_false]
  simp only [Bool.not_eq_true, ruleWritable_eq_false_iff, rowWritable_eq_false_iff]
  constructor
  · rintro (⟨r, hr, heffect, hkind, hjson, hlong⟩ | ⟨row, hrow, hlong, ⟨c, hc, hspan⟩ | hwidth⟩)
    · exact .effect hr heffect hkind hjson hlong
    · exact .column hrow hc hspan hlong
    · exact .row hrow hwidth hlong
  · rintro (⟨hr, heffect, hkind, hjson, hlong⟩ | ⟨hrow, hc, hspan, hlong⟩ | ⟨hrow, hwidth, hlong⟩)
    · exact Or.inl ⟨_, hr, heffect, hkind, hjson, hlong⟩
    · exact Or.inr ⟨_, hrow, hlong, Or.inl ⟨_, hc, hspan⟩⟩
    · exact Or.inr ⟨_, hrow, hlong, Or.inr hwidth⟩

/-- **Why there is no report**: the overrides leave no grid, or what would be written out is too
long. -/
inductive Unreported (s : Schema) (overrides config : Value) : ReportError → Prop
  | grid {cause : IntegerError} : NoGrid overrides cause →
      Unreported s overrides config (.grid cause)
  | digits {grid : ℤ} : Config.gridColumns config = .ok grid → s.TooLong grid →
      Unreported s overrides config .digits

/-- **A schema is reported on** unless there is one of these reasons to fail, and its report is
valid when there are no errors in it. -/
structure Reports (s : Schema) (overrides config : Value) : Prop where
  exists_iff : (∃ report, s.reportFor overrides = .ok report) ↔
    ∀ e, ¬ s.Unreported overrides config e
  error_iff : ∀ e, s.reportFor overrides = .error e ↔ s.Unreported overrides config e
  valid_iff : ∀ report, s.reportFor overrides = .ok report →
    (report.valid = true ↔ report.errors = [])

/-- **When there is a report**, for every schema and every configuration that resolves. -/
theorem reportFor_reports (s : Schema) (hkeys : overrides.wellKeyed = true)
    (h : Config.resolve overrides = .ok config) : s.Reports overrides config := by
  have hgrid := fun cause => @Config.gridColumns_eq_error_iff _ _ cause hkeys h
  have herror : ∀ e, s.reportFor overrides = .error e ↔ s.Unreported overrides config e := by
    intro e
    simp only [reportFor, h]
    cases hcolumns : Config.gridColumns config with
    | error cause =>
      constructor
      · intro he
        cases he
        exact .grid ((hgrid cause).mp hcolumns)
      · rintro (hnone | ⟨hcolumns', -⟩)
        · rw [(hgrid _).mpr hnone] at hcolumns
          cases hcolumns
          rfl
        · rw [hcolumns'] at hcolumns
          cases hcolumns
    | ok grid =>
      dsimp only
      cases hwritable : s.writable grid with
      | true =>
        refine iff_of_false nofun ?_
        rintro (hnone | ⟨hcolumns', hlong⟩)
        · rw [(hgrid _).mpr hnone] at hcolumns
          cases hcolumns
        · rw [hcolumns'] at hcolumns
          cases hcolumns
          rw [writable_eq_false_iff.mpr hlong] at hwritable
          cases hwritable
      | false =>
        constructor
        · intro he
          cases he
          exact .digits hcolumns (writable_eq_false_iff.mp hwritable)
        · rintro (hnone | ⟨-, -⟩)
          · rw [(hgrid _).mpr hnone] at hcolumns
            cases hcolumns
          · rfl
  refine ⟨?_, herror, fun report _ => List.isEmpty_iff⟩
  simp only [← herror]
  cases s.reportFor overrides with
  | ok report => exact iff_of_true ⟨_, rfl⟩ fun e he => nomatch he
  | error e => exact iff_of_false (fun ⟨_, hok⟩ => nomatch hok) fun hnone => hnone e rfl

/-- Overrides of the layout alone. -/
def layoutOverrides (layout : Value) : Value := record [("layout", layout)]

/-- The defaults with another layout. -/
def layoutConfig (layout : Value) : Value := record [
  ("runtime", record [("notify_on_validate", .bool true), ("revalidate_on_change", .bool true)]),
  ("compute", record [("concat_separator", text ""), ("precision", .null)]),
  ("activation", record [("block_on_errors", .bool true)]),
  ("layout", layout),
  ("versioning", record [("default_author", text "system")])]

/-- A layout whose grid has a fraction of columns. -/
def fractionLayout : Value := record [("grid_columns", float (.ofDecimal false 75 (-1)))]

theorem fraction_reports : (layoutOverrides fractionLayout).wellKeyed = true ∧
    Config.resolve (layoutOverrides fractionLayout) = .ok (layoutConfig fractionLayout) ∧
    (greetingForm "Oi").Reports (layoutOverrides fractionLayout)
      (layoutConfig fractionLayout) := by
  have hkeys : (layoutOverrides fractionLayout).wellKeyed = true := by decide +kernel
  have hresolve :
      Config.resolve (layoutOverrides fractionLayout) = .ok (layoutConfig fractionLayout) :=
    eq_ok_of_toOption (by decide +kernel)
  exact ⟨hkeys, hresolve, reportFor_reports (greetingForm "Oi") hkeys hresolve⟩

/-- **Not every configuration that resolves has a report**: a layout of null resolves. -/
theorem not_reports_of_resolve : ¬ ∀ (s : Schema) (overrides config : Value),
    overrides.wellKeyed = true → Config.resolve overrides = .ok config →
      ∃ report, s.reportFor overrides = .ok report := by
  intro hall
  have hkeys : (layoutOverrides null).wellKeyed = true := by decide +kernel
  have hresolve : Config.resolve (layoutOverrides null) = .ok (layoutConfig null) :=
    eq_ok_of_toOption (by decide +kernel)
  have hlayout : (layoutOverrides null).lookup? "layout" = some null := by
    simp [layoutOverrides, record, Value.fields, lookup?, find?_cons, alike_text]
  have hgrid := (Config.gridColumns_eq_error_iff hkeys hresolve).mpr (.layout hlayout)
  obtain ⟨report, hreport⟩ := hall (greetingForm "Oi") _ _ hkeys hresolve
  simp only [reportFor, hresolve, hgrid] at hreport
  cases hreport

end Schema

end LiveForm
