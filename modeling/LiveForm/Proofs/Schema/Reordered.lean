import LiveForm.Proofs.Graph.Topological
import LiveForm.Proofs.Rule.Deciding

/-!
# Reordered schemas

Two schemas may declare the same fields and the same rules in different orders. What counts is the
order of the rules with one effect on one target, since the last satisfied one decides.

* `Schema.Reordered`: the schemas differ in the order of fields and rules only;
* `Schema.Reordered.field?`, `Schema.Reordered.feeds`: fields by key, and what feeds what;
* `Schema.renumber`: the position that a rule of the first schema has in the second;
* `Schema.rule_positionOf`: a rule is found by its id.
-/

namespace LiveForm

namespace Schema

/-- **The schemas differ only in the order of their fields and rules**, and rules with one effect on
one target keep their order. -/
structure Reordered (s s' : Schema) : Prop where
  fields : s.fields.Perm s'.fields
  rules : s.rules.Perm s'.rules
  groups : ∀ target effect,
    s'.rules.filter (Rule.aims target effect) = s.rules.filter (Rule.aims target effect)
  /-- The ids of rules are distinct. -/
  ids : (s.rules.map Rule.id).Nodup
  /-- All else is the same. -/
  rest : { s' with fields := s.fields, rules := s.rules } = s

namespace Reordered

variable {s s' : Schema} {key : String} (h : s.Reordered s')

include h

theorem symm : s'.Reordered s where
  fields := h.fields.symm
  rules := h.rules.symm
  groups target effect := (h.groups target effect).symm
  ids := (h.rules.map Rule.id).nodup_iff.mp h.ids
  rest := by rw [← h.rest]

theorem fieldKeys : s.fieldKeys.Perm s'.fieldKeys := h.fields.map Field.key

theorem mem_fieldKeys : key ∈ s'.fieldKeys ↔ key ∈ s.fieldKeys := h.fieldKeys.mem_iff.symm

theorem feeds (source target : String) : s'.Feeds source target ↔ s.Feeds source target := by
  rw [feeds_iff, feeds_iff]
  simp only [h.fields.mem_iff, h.rules.mem_iff]

theorem field? (hnodup : s.fieldKeys.Nodup) (key : String) : s'.field? key = s.field? key := by
  refine Option.ext fun f => ?_
  rw [field?_eq_some_iff hnodup, field?_eq_some_iff (h.fieldKeys.nodup_iff.mp hnodup),
    h.fields.mem_iff]

end Reordered

/-! ## Positions of rules -/

/-- The position of the rule with an id. -/
def positionOf (s : Schema) (id : String) : ℕ := s.rules.findIdx (·.id == id)

/-- The position in another schema of the rule at a position. -/
def renumber (s s' : Schema) (i : ℕ) : ℕ := ((s.rules[i]?).map fun r => s'.positionOf r.id).getD i

variable {s s' : Schema} {i : ℕ} {r : Rule}

theorem positionOf_eq (hids : (s.rules.map Rule.id).Nodup) (hr : s.rules[i]? = some r) :
    s.positionOf r.id = i := by
  obtain ⟨hi, rfl⟩ := List.getElem?_eq_some_iff.mp hr
  rw [positionOf, List.findIdx_eq hi]
  refine ⟨beq_self_eq_true _, fun j hj => ?_⟩
  rw [beq_eq_false_iff_ne]
  intro hid
  have hlt : j < s.rules.length := by omega
  have hji : j = i :=
    (List.getElem?_inj (by simpa using hlt) hids).mp (by simpa [hlt, hi] using hid)
  omega

theorem renumber_eq (s' : Schema) (hr : s.rules[i]? = some r) :
    s.renumber s' i = s'.positionOf r.id := by
  rw [renumber, hr]
  rfl

theorem rule_positionOf (hids : (s.rules.map Rule.id).Nodup) (hr : r ∈ s.rules) :
    s.rules[s.positionOf r.id]? = some r := by
  obtain ⟨i, hi⟩ := List.getElem?_of_mem hr
  rw [positionOf_eq hids hi, hi]

end Schema

end LiveForm
