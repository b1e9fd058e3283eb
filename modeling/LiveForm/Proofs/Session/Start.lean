import LiveForm.Pattern.Parser
import LiveForm.Proofs.Json.Native
import LiveForm.Proofs.Session.Reachable

/-!
# Opening sessions

A schema without problems, whose graph has an order and which can be written as JSON, can be
opened.

* `Session.startable_declared`: what it takes to open a session is there;
* **`Session.exists_opened`**: the session that is opened under the usual configuration;
* `orderForm`: a form with a formula and with rules of each effect.
-/

namespace LiveForm

namespace Session

theorem exists_schemaDigest {schema : Schema} (h : schema.toValue.isNative = true)
    (hdigits : schema.toValue.longest ≤ digitLimit) :
    ∃ digest, schemaDigest schema = .ok digest := by
  rw [schemaDigest, canonicalJson_eq h, if_pos hdigits]
  exact ⟨_, rfl⟩

theorem exists_configDigest {entries : Entries} (h : (Value.map entries).isNative = true)
    (hdigits : (Value.map entries).longest ≤ digitLimit) :
    ∃ digest, Config.digest (.map entries) = .ok digest := by
  rw [Config.digest, canonicalJson_eq h, if_pos hdigits]
  exact ⟨_, rfl⟩

theorem startable_declared {schema : Schema} {order : List String}
    (hproblems : schema.graphProblems = []) (horder : (Graph.ofSchema schema).order = .ok order)
    (hschema : schema.toValue.isNative = true)
    (hdigits : schema.toValue.longest ≤ digitLimit) :
    Startable schema [] .null Config.defaults order (declaredData schema) where
  resolves := rfl
  problems := hproblems
  orders := horder
  fills := rfl
  schemaDigest := exists_schemaDigest hschema hdigits
  configDigest := exists_configDigest (by decide +kernel) (by decide +kernel)

theorem exists_opened {schema : Schema} {order : List String}
    (hproblems : schema.graphProblems = []) (horder : (Graph.ofSchema schema).order = .ok order)
    (hschema : schema.toValue.isNative = true)
    (hdigits : schema.toValue.longest ≤ digitLimit) (search : Pattern.Search) :
    ∃ s : Session, s.Opened ∧ s.plan =
      planOf search schema Config.defaults (.ofSchema schema) order (declaredData schema) := by
  obtain ⟨s, hs, hplan⟩ :=
    (startable_declared hproblems horder hschema hdigits).exists_start search {}
  exact ⟨s, ⟨_, _, _, _, _, hs⟩, hplan⟩

theorem Opened.state_eq {s : Session} (h : s.Opened) :
    s.state = (settleAll s.plan (declaredState s.plan.schema s.plan.initial)).state := by
  obtain ⟨_, _, _, _, _, hs⟩ := h
  exact (start_eq_ok hs).2

end Session

/-! ## A form -/

/-- An order: a price and a fee, their total, and a note. A price above 5 sets the fee, shows the
note, and a total above 10 requires it. -/
def orderForm : Schema where
  id := "order"
  version := 1
  title := "Order"
  description := ""
  fields := [
    field "price" .number none true,
    field "total" .number (some ⟨.sum, ["price", "fee"], none, none⟩) true,
    field "fee" .number none true,
    field "note" .text none false]
  rules := [
    rule "fee" "price" 5 "fee" .setValue (.int 2),
    rule "shown" "price" 5 "note" .visibility (.bool true),
    rule "needed" "total" 10 "note" .required (.bool true)]
  layout := []
where
  field (key : String) (type : FieldType) (formula : Option Formula) (visible : Bool) : Field :=
    { key, type, label := key, default := .null, constraints := {}, choices := [], visible,
      formula }
  rule (id trigger : String) (bound : Int) (target : String) (effect : Effect) (value : Value) :
      Rule :=
    { id, name := id, trigger, operator := .greaterThan, compare := .int bound, target, effect,
      effectValue := value }

/-- The plan of a session on the form as it is declared. -/
def orderPlan : Plan :=
  Session.planOf Pattern.search orderForm Config.defaults (.ofSchema orderForm)
    ["price", "fee", "total", "note"] (Session.declaredData orderForm)

theorem order_orderForm :
    (Graph.ofSchema orderForm).order = .ok ["price", "fee", "total", "note"] :=
  Graph.order_eq_ok_of_advance (by decide +kernel)

/-- The state of a session on the form that was just opened. -/
def orderState : State :=
  (settleAll orderPlan (Session.declaredState orderForm (Session.declaredData orderForm))).state

theorem exists_order : ∃ s : Session, s.Opened ∧ s.plan = orderPlan ∧ s.state = orderState := by
  obtain ⟨s, hs, hplan⟩ := Session.exists_opened (by decide +kernel) order_orderForm
    (by decide +kernel) (by decide +kernel) Pattern.search
  have hstate := hs.state_eq
  rw [hplan] at hstate
  exact ⟨s, hs, hplan, hstate⟩

theorem State.nanFree_of_entries {s : State}
    (h : (s.data.entries.all fun e => !e.2.isNaN) = true) : s.NaNFree := by
  intro key
  rw [State.value]
  cases hv : s.data.get? key with
  | none => rfl
  | some v =>
    obtain ⟨k, hmem⟩ := s.data.exists_mem_of_get? hv
    exact (Bool.not_eq_true' _).mp (List.all_eq_true.mp h _ hmem)

theorem nanFree_orderState : orderState.NaNFree :=
  State.nanFree_of_entries (by decide +kernel)

end LiveForm
