import Mathlib.Tactic.SplitIfs
import LiveForm.Session.State

/-!
# Reported changes

A set of changes has an entry for each declared field of which something differs between two
states.

* `State.moved`, `State.differs`: the value of a field, or any aspect, differs between two states;
* `ChangeSet.mem_aspectsOf`: then it is among the reported aspects;
* **`ChangeSet.mem_between`, `ChangeSet.exists_mem_between`**: the entries, and that there is one;
* `ChangeSet.reports_between`: the aspects of a field that the entries report.
-/

namespace LiveForm

/-- The value of a field differs between two states. -/
def State.moved (before after : State) (key : String) : Bool :=
  !(before.value key).same (after.value key)

theorem State.moved_eq_false {before after : State} {key : String} :
    before.moved after key = false ↔ (before.value key).same (after.value key) = true := by
  rw [moved, Bool.not_eq_false']

theorem State.moved_eq_true {before after : State} {key : String} :
    before.moved after key = true ↔ (before.value key).same (after.value key) = false := by
  rw [moved, Bool.not_eq_true']

/-- An aspect of a field differs between two states. -/
def State.differs (p : Plan) (before after : State) (key : String) : Aspect → Bool
  | .value => before.moved after key
  | .visibility => before.visible key != after.visible key
  | .required => before.requires key != after.requires key
  | .errors => !listEquiv Notice.equiv (before.errors p key) (after.errors p key)

namespace ChangeSet

variable {p : Plan} {before after : State} {written : List String}
  {setters : Table String String} {key : String} {c : FieldChange} {trigger : Option String}
  {origin : Origin} {aspect : Aspect}

/-- **The reported aspects are those that differ.** -/
theorem mem_aspectsOf :
    aspect ∈ aspectsOf p before after key ↔ before.differs p after key aspect = true := by
  rw [aspectsOf]
  split_ifs <;> cases aspect <;> simp_all [State.differs, State.moved]

theorem value_mem_aspectsOf :
    Aspect.value ∈ aspectsOf p before after key ↔ before.moved after key = true := mem_aspectsOf

theorem changeOf?_eq_some (h : changeOf? p before after written setters key = some c) :
    c.key = key ∧ c.aspects = aspectsOf p before after key ∧ c.ruleId = setters.get? key ∧
      c.origin = if written.contains key && c.aspects.contains .value && c.ruleId.isNone
        then .user else .engine := by
  rw [changeOf?] at h
  dsimp only at h
  split at h
  · cases h
  · rw [← Option.some.inj h]
    exact ⟨rfl, rfl, rfl, rfl⟩

theorem exists_changeOf? (written : List String) (setters : Table String String)
    (h : aspect ∈ aspectsOf p before after key) :
    ∃ c, changeOf? p before after written setters key = some c := by
  rw [changeOf?]
  dsimp only
  rw [if_neg fun hempty => by
    rw [List.isEmpty_iff.mp hempty] at h
    exact List.not_mem_nil h]
  exact ⟨_, rfl⟩

/-- **The entries of a set of changes.** -/
theorem mem_between : c ∈ (between p before after trigger origin written setters).changes ↔
    ∃ key ∈ p.schema.fieldKeys, changeOf? p before after written setters key = some c :=
  List.mem_filterMap

/-- **A field whose value differs has an entry.** -/
theorem exists_mem_between (hkey : key ∈ p.schema.fieldKeys) (h : before.moved after key = true) :
    ∃ c ∈ (between p before after trigger origin written setters).changes, c.key = key := by
  obtain ⟨c, hc⟩ := exists_changeOf? written setters (value_mem_aspectsOf.mpr h)
  exact ⟨c, mem_between.mpr ⟨key, hkey, hc⟩, (changeOf?_eq_some hc).1⟩

/-- A set of changes reports an aspect of a field. -/
def reports (c : ChangeSet) (key : String) (aspect : Aspect) : Bool :=
  c.changes.any fun f => f.key == key && decide (aspect ∈ f.aspects)

theorem changed_of_reports {c : ChangeSet} (h : c.reports key aspect = true) :
    c.changed = true := by
  obtain ⟨f, hf, -⟩ := List.any_eq_true.mp h
  rw [changed, Bool.not_eq_true', List.isEmpty_eq_false_iff]
  exact List.ne_nil_of_mem hf

/-- **What is reported of a declared field is what differs.** -/
theorem reports_between (hkey : key ∈ p.schema.fieldKeys) :
    (between p before after trigger origin written setters).reports key aspect =
      before.differs p after key aspect := by
  rw [Bool.eq_iff_iff, reports, List.any_eq_true, ← mem_aspectsOf]
  constructor
  · rintro ⟨c, hc, h⟩
    obtain ⟨k, -, hk⟩ := mem_between.mp hc
    obtain ⟨rfl, haspects, -⟩ := changeOf?_eq_some hk
    rw [Bool.and_eq_true, beq_iff_eq, decide_eq_true_eq] at h
    rw [← h.1, ← haspects]
    exact h.2
  · intro h
    obtain ⟨c, hc⟩ := exists_changeOf? written setters h
    obtain ⟨rfl, haspects, -⟩ := changeOf?_eq_some hc
    refine ⟨c, mem_between.mpr ⟨c.key, hkey, hc⟩, ?_⟩
    rw [Bool.and_eq_true, beq_iff_eq, decide_eq_true_eq, haspects]
    exact ⟨rfl, h⟩

end ChangeSet

end LiveForm
