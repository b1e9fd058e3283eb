import Mathlib.Data.List.Infix
import LiveForm.Proofs.Graph.Unresolved
import LiveForm.Proofs.Schema.Accepted
import LiveForm.Proofs.Value.Decidable

/-!
# Scripts in rules

A report looks for the marks of scripts in the values of rules. It goes through lists and tuples at
any depth, but not into mappings: a text in a mapping may hold a mark, and the report finds no
error. So the rules of an accepted schema hold no mark just when their mappings hold none.

* `Value.Inside`, `Value.Listed`: what a value holds at any depth, and through lists only;
* `Marked`, `holdsMark_iff`: texts that hold a mark;
* `Value.holdsScript_of_listed`: what the search for marks does not miss;
* `Schema.ScriptFree`: no text in the values of rules holds a mark;
* **`Schema.scriptFree_iff_of_report`**: when that is so for a schema without errors;
* `Schema.not_scriptFree_of_errors`: it is not so for all of them.
-/

namespace LiveForm

/-! ## Marks in texts -/

theorem occursIn_iff {part whole : List Char} : occursIn part whole = true ↔ part <:+: whole := by
  induction whole with
  | nil => simp [occursIn]
  | cons c cs ih => simp [occursIn, ih, List.infix_cons_iff]

/-- A text holds the mark of a script. -/
def Marked (s : String) : Prop := ∃ mark ∈ scriptMarks, mark.toList <:+: s.toList

theorem holdsMark_iff {s : String} : holdsMark s = true ↔ Marked s := by
  simp [holdsMark, Marked, textOccursIn, occursIn_iff]

namespace Value

variable {w : Value} {items : List Value}

/-! ## Parts of values -/

/-- What is inside a value at any depth, through lists, tuples and mappings. -/
inductive Inside (w : Value) : Value → Prop
  | self : Inside w w
  | list {items : List Value} {v : Value} : v ∈ items → Inside w v → Inside w (list items)
  | tuple {items : List Value} {v : Value} : v ∈ items → Inside w v → Inside w (tuple items)
  | key {entries : Entries} {e : Value × Value} : e ∈ entries → Inside w e.1 →
      Inside w (map entries)
  | value {entries : Entries} {e : Value × Value} : e ∈ entries → Inside w e.2 →
      Inside w (map entries)

/-- What is inside a value through lists and tuples alone. -/
inductive Listed (w : Value) : Value → Prop
  | self : Listed w w
  | list {items : List Value} {v : Value} : v ∈ items → Listed w v → Listed w (list items)
  | tuple {items : List Value} {v : Value} : v ∈ items → Listed w v → Listed w (tuple items)

theorem Inside.of_listed {u v : Value} (h : Listed u v) (hu : Inside w u) : Inside w v := by
  induction h with
  | self => exact hu
  | list hmem _ ih => exact .list hmem ih
  | tuple hmem _ ih => exact .tuple hmem ih

/-- **What is inside a value** is there through lists, or inside a mapping that is. -/
theorem Inside.listed_or {v : Value} (h : Inside w v) :
    Listed w v ∨ ∃ entries, Listed (map entries) v ∧ Inside w (map entries) := by
  induction h with
  | self => exact Or.inl .self
  | list hmem _ ih =>
    rcases ih with h | ⟨entries, h, hinside⟩
    · exact Or.inl (.list hmem h)
    · exact Or.inr ⟨entries, .list hmem h, hinside⟩
  | tuple hmem _ ih =>
    rcases ih with h | ⟨entries, h, hinside⟩
    · exact Or.inl (.tuple hmem h)
    · exact Or.inr ⟨entries, .tuple hmem h, hinside⟩
  | key hmem h => exact Or.inr ⟨_, .self, .key hmem h⟩
  | value hmem h => exact Or.inr ⟨_, .self, .value hmem h⟩

/-! ## The search for marks -/

theorem anyScript_iff : anyScript items = true ↔ ∃ v ∈ items, v.holdsScript = true := by
  induction items with
  | nil => simp [anyScript]
  | cons v vs ih => simp [anyScript, ih]

/-- **The search misses no mark** that is there through lists and tuples. -/
theorem holdsScript_of_listed {s : String} {v : Value} (hs : Marked s) (h : Listed (text s) v) :
    v.holdsScript = true := by
  induction h with
  | self =>
    rw [holdsScript]
    exact holdsMark_iff.mpr hs
  | list hmem _ ih | tuple hmem _ ih =>
    rw [holdsScript]
    exact anyScript_iff.mpr ⟨_, hmem, ih⟩

end Value

/-! ## Schemas -/

namespace Schema

open Value

variable {s : Schema} {overrides : Value} {report : Report}

/-- The free values of the rules. -/
def operands (s : Schema) : List Value := s.rules.flatMap fun r => [r.compare, r.effectValue]

/-- **The rules hold no script**: no text in their values, at any depth, holds a mark. -/
def ScriptFree (s : Schema) : Prop :=
  ∀ v ∈ s.operands, ∀ t, Inside (text t) v → ¬ Marked t

/-- The mappings in the rules hold no script. -/
def ScriptFreeMappings (s : Schema) : Prop :=
  ∀ v ∈ s.operands, ∀ entries, Listed (map entries) v →
    ∀ t, Inside (text t) (map entries) → ¬ Marked t

theorem exists_grid_of_reportFor (h : s.reportFor overrides = .ok report) :
    ∃ grid, report = s.report grid := by
  unfold reportFor at h
  split at h
  · cases h
  · split at h
    · cases h
    · split at h
      · exact ⟨_, (Except.ok.inj h).symm⟩
      · cases h

theorem holdsScript_operand (h : s.reportFor overrides = .ok report)
    (herrors : report.errors = []) {v : Value} (hv : v ∈ s.operands) :
    v.holdsScript = false := by
  obtain ⟨grid, rfl⟩ := exists_grid_of_reportFor h
  obtain ⟨r, hr, hv⟩ := List.mem_flatMap.mp hv
  obtain ⟨hcompare, heffect⟩ := holdsScript_of_report herrors r hr
  rcases List.mem_pair.mp hv with rfl | rfl
  · exact hcompare
  · exact heffect

/-- **An accepted schema holds no script in the lists of its rules**, at any depth; so its rules
hold none at all just when their mappings hold none. -/
theorem scriptFree_iff_of_report (h : s.reportFor overrides = .ok report)
    (herrors : report.errors = []) :
    (∀ v ∈ s.operands, ∀ t, Listed (text t) v → ¬ Marked t) ∧
      (s.ScriptFree ↔ s.ScriptFreeMappings) := by
  have hlists : ∀ v ∈ s.operands, ∀ t, Listed (text t) v → ¬ Marked t := by
    intro v hv t ht hmark
    have hfound := holdsScript_of_listed hmark ht
    rw [holdsScript_operand h herrors hv] at hfound
    cases hfound
  refine ⟨hlists, fun hfree v hv entries hlisted t ht => ?_, fun hfree v hv t ht => ?_⟩
  · exact hfree v hv t (ht.of_listed hlisted)
  · rcases ht.listed_or with hlisted | ⟨entries, hlisted, hinside⟩
    · exact hlists v hv t hlisted
    · exact hfree v hv entries hlisted t hinside

theorem errors_eq_nil_of_advance {grid : ℤ} (hfound : (s.findings grid).isEmpty = true)
    (hlen : ((Graph.ofSchema s).advance (Graph.ofSchema s).size []).length =
      (Graph.ofSchema s).size) :
    (s.report grid).errors = [] := by
  have hcycle : (Graph.ofSchema s).cycle? = none := by
    rw [← Option.not_isSome_iff_eq_none, Graph.isSome_cycle? (Graph.bounded_ofSchema s)]
    exact Graph.exists_order_iff.mp ⟨_, Graph.order_eq_ok_of_advance ⟨hlen, rfl⟩⟩
  simp [report, List.isEmpty_iff.mp hfound, hcycle]

theorem reportFor_null (s : Schema) (h : s.writable 12 = true) :
    s.reportFor .null = .ok (s.report 12) := by
  have hresolve : Config.resolve .null = .ok Config.defaults := rfl
  have hgrid : Config.gridColumns Config.defaults = .ok 12 :=
    eq_ok_of_toOption (by decide +kernel)
  unfold reportFor
  rw [hresolve]
  dsimp only
  rw [hgrid]
  exact if_pos h

/-- A form that greets one of some names with a card. -/
def greetingForm (html : String) : Schema where
  id := "greeting"
  version := 1
  title := "Greeting"
  description := ""
  fields := [field "name", field "card"]
  rules := [{
    id := "greet", name := "greet", trigger := "name", operator := .equals
    compare := .list [.text "Ana", .list [.text "Rui"]]
    target := "card", effect := .setValue
    effectValue := .list [.record [("html", .text html)]] }]
  layout := []
where
  field (key : String) : Field :=
    { key, type := .text, label := key, default := .null, constraints := {}, choices := [],
      visible := true, formula := none }

/-- A card without a script: the form is accepted, and its lists are searched. -/
theorem greeting_scriptFree_iff : ∃ report,
    ((greetingForm "<b>Oi</b>").reportFor .null = .ok report ∧ report.errors = []) ∧
    (∀ v ∈ (greetingForm "<b>Oi</b>").operands, ∀ t, Listed (text t) v → ¬ Marked t) ∧
    ((greetingForm "<b>Oi</b>").ScriptFree ↔ (greetingForm "<b>Oi</b>").ScriptFreeMappings) := by
  have hreport := reportFor_null (greetingForm "<b>Oi</b>") (by decide +kernel)
  have herrors : ((greetingForm "<b>Oi</b>").report 12).errors = [] :=
    errors_eq_nil_of_advance (by decide +kernel) (by decide +kernel)
  exact ⟨_, ⟨hreport, herrors⟩, scriptFree_iff_of_report hreport herrors⟩

/-- **Not every accepted schema is free of scripts**: a mapping in a rule may hold one. -/
theorem not_scriptFree_of_errors : ¬ ∀ (s : Schema) (overrides : Value) (report : Report),
    s.reportFor overrides = .ok report → report.errors = [] → s.ScriptFree := by
  intro h
  have herrors : ((greetingForm "$\x7balert(1)\x7d").report 12).errors = [] :=
    errors_eq_nil_of_advance (by decide +kernel) (by decide +kernel)
  refine h _ .null _ (reportFor_null _ (by decide +kernel)) herrors
    (.list [.record [("html", .text "$\x7balert(1)\x7d")]]) (by simp [operands, greetingForm])
    "$\x7balert(1)\x7d" ?_ (holdsMark_iff.mp (by decide +kernel))
  exact .list List.mem_cons_self (.value List.mem_cons_self .self)

end Schema

end LiveForm
