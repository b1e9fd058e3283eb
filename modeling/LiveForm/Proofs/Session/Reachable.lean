import LiveForm.Proofs.Session.Pass

/-!
# Reachable sessions

A session that was opened and used in any way has a well-formed plan, and all its fields are
settled.

* `Session.Opened`, `Session.Reachable`: the sessions that `Session.start` opens, and those that
  operations lead to;
* `Session.Sound`: the invariant of sessions;
* `Session.Startable`: what it takes to open a session;
* `Session.start_eq_ok`: what an opened session is;
* **`Session.Reachable.sound`**: every reachable session is sound.
-/

namespace LiveForm

/-- **An operation was interrupted**: a check of a field was broken off. -/
def Outcome.Interrupted {α : Type} (o : Outcome (Except Session.OperationError α)) : Prop :=
  ∃ cause, o.answer = .error (.interrupted cause)

namespace Session

/-- The session is one that was just opened. -/
def Opened (s : Session) : Prop :=
  ∃ search journal schema given overrides,
    (start search journal schema given overrides).2 = .ok s

/-- **The sessions that operations lead to**, accepted, refused or interrupted. -/
inductive Reachable : Session → Prop
  | opened {s : Session} (h : Opened s) : Reachable s
  | set {s : Session} (h : Reachable s) (key : String) (value : Value) :
    Reachable (s.set key value).session
  | settle {s : Session} (h : Reachable s) : Reachable s.settle.session
  | reset {s : Session} (h : Reachable s) : Reachable s.reset.session
  | check {s : Session} (h : Reachable s) : Reachable s.check.session

/-- The plan of a session is well-formed and starts computed fields with their defaults. -/
structure Planned (p : Plan) : Prop extends p.WellFormed where
  initial : ∀ f ∈ p.schema.fields, f.isComputed = true →
    p.initial.get? f.key = some (initialValue f)

/-- **The invariant of sessions**: the plan is well-formed, and all fields are settled. -/
structure Sound (s : Session) : Prop where
  planned : Planned s.plan
  settled : ∀ f ∈ s.plan.schema.fields, s.plan.FieldSettled s.state f

variable {s : Session} {schema : Schema} {key : String} {v : Value} {f : Field}
  {search : Pattern.Search}

/-! ## Opening -/

theorem writable_eq_ok {operation : String} (h : writable schema key operation = .ok f) :
    schema.field? key = some f ∧ f.isComputed = false := by
  rw [writable] at h
  split at h
  · cases h
  · split at h
    · cases h
    · next hf hcomputed =>
      obtain rfl := Except.ok.inj h
      exact ⟨hf, Bool.eq_false_iff.mpr hcomputed⟩

theorem writable_congr {schema' : Schema} (h : schema'.field? key = schema.field? key)
    (operation : String) : writable schema' key operation = writable schema key operation := by
  rw [writable, writable, h]

theorem get?_of_fill {given : Entries} {data data' : Table String Value}
    (h : fill schema data given = .ok data') (hkey : schema.field? key = some f)
    (hf : f.isComputed = true) : data'.get? key = data.get? key := by
  induction given generalizing data with
  | nil => rw [Except.ok.inj h]
  | cons e given ih =>
    obtain ⟨k, v⟩ := e
    cases k with
    | text k =>
      rw [fill] at h
      split at h
      · cases h
      · next g hg =>
        obtain ⟨hfield, hwritable⟩ := writable_eq_ok hg
        have hne : k ≠ key := by
          intro he
          rw [he, hkey] at hfield
          rw [← Option.some.inj hfield, hf] at hwritable
          exact Bool.noConfusion hwritable
        rw [ih h, Table.get?_set, if_neg hne]
    | _ => cases h

/-- The values that fields are declared with. -/
def declaredData (schema : Schema) : Table String Value :=
  .ofKeys schema.fieldKeys fun key => ((schema.field? key).map initialValue).getD .null

/-- **What it takes to open a session**: a configuration, a graph with an order, values that may be
given at the start, and digests of schema and configuration. -/
structure Startable (schema : Schema) (given : Entries) (overrides config : Value)
    (order : List String) (data : Table String Value) : Prop where
  resolves : Config.resolve overrides = .ok config
  problems : schema.graphProblems = []
  orders : (Graph.ofSchema schema).order = .ok order
  fills : fill schema (declaredData schema) given = .ok data
  schemaDigest : ∃ digest, Session.schemaDigest schema = .ok digest
  configDigest : ∃ digest, Config.digest config = .ok digest

theorem settled_eq_ok {plan : Plan} {journal : Journal} (h : (settled plan journal).2 = .ok s) :
    (∃ digest, schemaDigest plan.schema = .ok digest) ∧
      (∃ digest, Config.digest plan.config = .ok digest) ∧ s.plan = plan ∧
      s.state = (settleAll plan (declaredState plan.schema plan.initial)).state := by
  rw [settled] at h
  dsimp only at h
  split at h
  · cases h
  · next digest hdigest =>
    split at h
    · cases h
    · next cdigest hcdigest =>
      rw [← Except.ok.inj h]
      exact ⟨⟨digest, hdigest⟩, ⟨cdigest, hcdigest⟩, rfl, rfl⟩

/-- **An opened session had what it takes**, and its state comes from a pass. -/
theorem startable_of_start {journal : Journal} {given : Entries} {overrides : Value}
    (h : (start search journal schema given overrides).2 = .ok s) :
    ∃ config order data, Startable schema given overrides config order data ∧
      s.plan = planOf search schema config (.ofSchema schema) order data ∧
      s.state = (settleAll s.plan (declaredState schema data)).state := by
  rw [start] at h
  split at h
  · cases h
  next config hconfig =>
  split at h
  · cases h
  next graph hgraph =>
  split at h
  · cases h
  next order horder =>
  dsimp only at h
  split at h
  · cases h
  next data hdata =>
  obtain ⟨hproblems, rfl⟩ := Graph.strict_eq_ok hgraph
  obtain ⟨hdigest, hcdigest, hplan, hstate⟩ := settled_eq_ok h
  exact ⟨config, order, data, ⟨hconfig, hproblems, horder, hdata, hdigest, hcdigest⟩, hplan,
    hplan ▸ hstate⟩

/-- **What it takes is enough**: there is a session. -/
theorem Startable.exists_start {given : Entries} {overrides config : Value} {order : List String}
    {data : Table String Value} (h : Startable schema given overrides config order data)
    (search : Pattern.Search) (journal : Journal) :
    ∃ s, (start search journal schema given overrides).2 = .ok s ∧
      s.plan = planOf search schema config (.ofSchema schema) order data := by
  obtain ⟨digest, hdigest⟩ := h.schemaDigest
  obtain ⟨cdigest, hcdigest⟩ := h.configDigest
  have hdata := h.fills
  rw [declaredData] at hdata
  rw [start, h.resolves]
  dsimp only
  rw [Graph.strict_of_problems h.problems]
  dsimp only
  rw [h.orders]
  dsimp only
  rw [hdata]
  dsimp only [settled, planOf]
  rw [hdigest, hcdigest]
  exact ⟨_, rfl, rfl⟩

theorem Startable.planned {given : Entries} {overrides config : Value} {order : List String}
    {data : Table String Value} (h : Startable schema given overrides config order data) :
    Planned (planOf search schema config (.ofSchema schema) order data) := by
  have hwf : (planOf search schema config (.ofSchema schema) order data).WellFormed :=
    ⟨h.problems, rfl, h.orders⟩
  refine ⟨hwf, ?_⟩
  intro f hf hcomputed
  have hfield : schema.field? f.key = some f := hwf.field?_key hf
  have hmem : f.key ∈ schema.fieldKeys := List.mem_map_of_mem hf
  change data.get? f.key = some (initialValue f)
  rw [get?_of_fill h.fills hfield hcomputed, declaredData, Table.get?_ofKeys, if_pos hmem, hfield]
  rfl

/-- **An opened session**: its plan, and the pass that made its state. -/
theorem start_eq_ok {journal : Journal} {given : Entries} {overrides : Value}
    (h : (start search journal schema given overrides).2 = .ok s) :
    Planned s.plan ∧
      s.state = (settleAll s.plan (declaredState s.plan.schema s.plan.initial)).state := by
  obtain ⟨config, order, data, hstart, hplan, hstate⟩ := startable_of_start h
  rw [hplan] at hstate ⊢
  exact ⟨hstart.planned, hstate⟩

theorem flagDeclared_declaredState {p : Plan} (hp : p.WellFormed) (hf : f ∈ p.schema.fields)
    (data : Table String Value) (d : Flag) :
    p.FlagDeclared (declaredState p.schema data) f d := by
  intro _
  have hmem : f.key ∈ p.schema.fieldKeys := List.mem_map_of_mem hf
  cases d with
  | visibility =>
    rw [declaredState, State.flags, Table.get?_ofKeys, if_pos hmem, hp.field?_key hf]
    rfl
  | required =>
    rw [declaredState, State.flags, Table.get?_ofKeys, if_pos hmem, hp.field?_key hf]
    rfl

theorem Opened.sound (h : Opened s) : Sound s := by
  obtain ⟨search, journal, schema, given, overrides, h⟩ := h
  obtain ⟨hp, hstate⟩ := start_eq_ok h
  refine ⟨hp, ?_⟩
  intro f hf
  rw [hstate]
  exact settled_settleAll hp.toWellFormed hf (flagDeclared_declaredState hp.toWellFormed hf _)

/-! ## Operations -/

theorem settled_recheck {p : Plan} {before after : State} (h : p.FieldSettled after f) :
    p.FieldSettled (recheck p before after).state f := by
  obtain ⟨errors, he⟩ := recheck_eq p before after
  rw [he]
  exact h.withCheckErrors errors

/-- The look at the fields after an accepted write of a new value. -/
def afterWrite (s : Session) (key : String) (v : Value) : Recheck :=
  recheck s.plan s.state
    (propagate s.plan { s.state with data := s.state.data.set key v } key).state

/-- The state that an accepted write of a new value leads to. -/
def written (s : Session) (key : String) (v : Value) : State := (s.afterWrite key v).state

theorem value_written (s : Session) (key : String) (v : Value) : (s.written key v).value =
    (propagate s.plan { s.state with data := s.state.data.set key v } key).state.value :=
  value_recheck _ _ _

/-- The look at the fields after a pass over all of them. -/
def afterSettle (s : Session) : Recheck :=
  recheck s.plan s.state (settleAll s.plan s.state).state

/-- The changes that it makes. -/
def writeChanges (s : Session) (key : String) (v : Value) : ChangeSet :=
  .between s.plan s.state (s.written key v) (some key) .user [key]
    (propagate s.plan { s.state with data := s.state.data.set key v } key).setters

section Set

variable (hf : writable s.plan.schema key "set_value" = .ok f)
  (hv : (s.state.value key).same v = false)

include hf hv

theorem set_of_interruption {cause : Pattern.Interruption}
    (h : (s.afterWrite key v).interruption = some cause) :
    s.set key v = s.interrupt
      (propagate s.plan { s.state with data := s.state.data.set key v } key).lines
      (s.written key v) cause := by
  rw [afterWrite] at h
  rw [set, hf, written, afterWrite]
  simp only [hv, h]
  rfl

theorem set_of_calm (h : (s.afterWrite key v).interruption = none) : ∃ lines,
    s.set key v = {
      session := { s.noting lines with state := s.written key v }
      answer := .ok (s.writeChanges key v)
      told := tell (s.writeChanges key v) } := by
  rw [afterWrite] at h
  rw [set, hf, writeChanges, written, afterWrite]
  simp only [hv, h]
  exact ⟨_, rfl⟩

theorem state_set_of_ne : (s.set key v).session.state = s.written key v := by
  cases h : (s.afterWrite key v).interruption with
  | some cause => rw [set_of_interruption hf hv h]; rfl
  | none =>
    obtain ⟨lines, hset⟩ := set_of_calm hf hv h
    rw [hset]

theorem interrupted_set_iff :
    (s.set key v).Interrupted ↔ ∃ cause, (s.afterWrite key v).interruption = some cause := by
  cases h : (s.afterWrite key v).interruption with
  | some cause =>
    rw [set_of_interruption hf hv h]
    exact iff_of_true ⟨cause, rfl⟩ ⟨cause, rfl⟩
  | none =>
    obtain ⟨lines, hset⟩ := set_of_calm hf hv h
    rw [hset]
    exact iff_of_false nofun nofun

/-- A write is answered with its changes, unless it is interrupted. -/
theorem answer_set_of_ne (h : ¬ (s.set key v).Interrupted) :
    (s.set key v).answer = .ok (s.writeChanges key v) := by
  have hcalm : (s.afterWrite key v).interruption = none := by
    rw [Option.eq_none_iff_forall_ne_some]
    exact fun cause hcause => h ((interrupted_set_iff hf hv).mpr ⟨cause, hcause⟩)
  obtain ⟨lines, hset⟩ := set_of_calm hf hv hcalm
  rw [hset]

end Set

/-- A write is of a new value for a field that may be written, or it is not. -/
theorem new_or_not (s : Session) (key : String) (v : Value) :
    (∃ f, writable s.plan.schema key "set_value" = .ok f ∧ (s.state.value key).same v = false) ∨
      ∀ f, writable s.plan.schema key "set_value" = .ok f → (s.state.value key).same v = true := by
  by_cases hnew : ∃ f, writable s.plan.schema key "set_value" = .ok f ∧
      (s.state.value key).same v = false
  · exact .inl hnew
  · exact .inr fun f hf => (Bool.not_eq_false _).mp fun hv => hnew ⟨f, hf, hv⟩

theorem not_interrupted_set_of_not (h : ∀ f, writable s.plan.schema key "set_value" = .ok f →
    (s.state.value key).same v = true) : ¬ (s.set key v).Interrupted := by
  rw [Session.set]
  split
  · exact nofun
  · next f hf =>
    rw [h f hf]
    exact nofun

/-- **What a write can do**: nothing at all to the state, when it is refused or repeats a value, or
else a pass. -/
theorem set_cases (s : Session) (key : String) (v : Value) :
    (s.set key v).session.plan = s.plan ∧
      ((s.set key v).session.state = s.state ∨
        ∃ f, writable s.plan.schema key "set_value" = .ok f ∧
          (s.state.value key).same v = false ∧
          (s.set key v).session.state = s.written key v) := by
  cases hf : writable s.plan.schema key "set_value" with
  | error r =>
    rw [set, hf]
    exact ⟨rfl, Or.inl rfl⟩
  | ok f =>
    cases hv : (s.state.value key).same v with
    | true =>
      rw [set, hf]
      simp only [hv]
      exact ⟨rfl, Or.inl rfl⟩
    | false =>
      refine ⟨?_, Or.inr ⟨f, rfl, rfl, state_set_of_ne hf hv⟩⟩
      cases h : (s.afterWrite key v).interruption with
      | some cause => rw [set_of_interruption hf hv h]; rfl
      | none =>
        obtain ⟨lines, hset⟩ := set_of_calm hf hv h
        rw [hset]
        rfl

theorem plan_set (s : Session) (key : String) (v : Value) :
    (s.set key v).session.plan = s.plan := (set_cases s key v).1

/-- The changes that settling makes. -/
def settleChanges (s : Session) : ChangeSet :=
  .between s.plan s.state s.afterSettle.state none .engine [] .empty

theorem settle_of_interruption {cause : Pattern.Interruption}
    (h : s.afterSettle.interruption = some cause) :
    s.settle = s.interrupt (settleAll s.plan s.state).lines s.afterSettle.state cause := by
  rw [afterSettle] at h
  rw [Session.settle, afterSettle]
  simp only [h]

theorem settle_of_calm (h : s.afterSettle.interruption = none) : ∃ lines,
    s.settle = {
      session := { s.noting lines with state := s.afterSettle.state }
      answer := .ok s.settleChanges
      told := tell s.settleChanges } := by
  rw [afterSettle] at h
  rw [Session.settle, settleChanges, afterSettle]
  simp only [h]
  exact ⟨_, rfl⟩

theorem interrupted_settle_iff :
    s.settle.Interrupted ↔ ∃ cause, s.afterSettle.interruption = some cause := by
  cases h : s.afterSettle.interruption with
  | some cause =>
    rw [settle_of_interruption h]
    exact iff_of_true ⟨cause, rfl⟩ ⟨cause, rfl⟩
  | none =>
    obtain ⟨lines, hsettle⟩ := settle_of_calm h
    rw [hsettle]
    exact iff_of_false nofun nofun

/-- Settling is answered with its changes, unless it is interrupted. -/
theorem answer_settle (h : ¬ s.settle.Interrupted) : s.settle.answer = .ok s.settleChanges := by
  rw [interrupted_settle_iff, ← Option.isSome_iff_exists, Option.not_isSome_iff_eq_none] at h
  obtain ⟨lines, hsettle⟩ := settle_of_calm h
  rw [hsettle]

theorem settle_cases (s : Session) :
    s.settle.session.plan = s.plan ∧ s.settle.session.state = s.afterSettle.state := by
  cases h : s.afterSettle.interruption with
  | some cause => rw [settle_of_interruption h]; exact ⟨rfl, rfl⟩
  | none =>
    obtain ⟨lines, hsettle⟩ := settle_of_calm h
    rw [hsettle]
    exact ⟨rfl, rfl⟩

theorem plan_settle (s : Session) : s.settle.session.plan = s.plan := (settle_cases s).1

theorem state_settle (s : Session) : s.settle.session.state = s.afterSettle.state :=
  (settle_cases s).2

theorem value_settle (s : Session) :
    s.settle.session.state.value = (settleAll s.plan s.state).state.value := by
  rw [state_settle, afterSettle, value_recheck]

/-- **What a check can do**: it finds the errors of all fields, or it is interrupted and does
nothing. -/
theorem check_cases (s : Session) : s.check.session.plan = s.plan ∧
    ((∃ cause, s.found = .error cause ∧ s.check.session.state = s.state) ∨
      ∃ errors, s.found = .ok errors ∧
        s.check.session.state = { s.state with checkErrors := errors }) := by
  rw [Session.check]
  cases hfound : s.found with
  | error cause => exact ⟨rfl, Or.inl ⟨cause, rfl, rfl⟩⟩
  | ok errors => exact ⟨rfl, Or.inr ⟨errors, rfl, rfl⟩⟩

theorem interrupted_check_iff : s.check.Interrupted ↔ ∃ cause, s.found = .error cause := by
  rw [Session.check]
  cases s.found with
  | error cause => exact iff_of_true ⟨cause, rfl⟩ ⟨cause, rfl⟩
  | ok errors => exact iff_of_false nofun nofun

theorem plan_check (s : Session) : s.check.session.plan = s.plan := (check_cases s).1

theorem Sound.of_eq {s' : Session} (h : Sound s) (hplan : s'.plan = s.plan)
    (hsettled : ∀ f ∈ s.plan.schema.fields, s.plan.FieldSettled s'.state f) : Sound s' := by
  refine ⟨hplan ▸ h.planned, ?_⟩
  rw [hplan]
  exact hsettled

theorem not_computed_of_writable {p : Plan} (hp : p.WellFormed) {operation : String} {g : Field}
    (hf : writable p.schema key operation = .ok f) (hg : g ∈ p.schema.fields)
    (hkey : g.key = key) : g.isComputed = false := by
  obtain ⟨hfield, hwritable⟩ := writable_eq_ok hf
  have hgfield := hp.field?_key hg
  rw [hkey, hfield] at hgfield
  rw [← Option.some.inj hgfield, hwritable]

theorem mem_fieldKeys_of_writable {operation : String}
    (hf : writable schema key operation = .ok f) : key ∈ schema.fieldKeys := by
  obtain ⟨hfield, -⟩ := writable_eq_ok hf
  obtain ⟨hmem, rfl⟩ := Schema.mem_of_field? hfield
  exact List.mem_map_of_mem hmem

theorem Sound.set (h : Sound s) (key : String) (v : Value) : Sound (s.set key v).session := by
  have hp := h.planned.toWellFormed
  obtain ⟨hplan, hstate | ⟨f, hf, -, hstate⟩⟩ := set_cases s key v
  · apply h.of_eq hplan
    intro g hg
    rw [hstate]
    exact h.settled g hg
  · apply h.of_eq hplan
    intro g hg
    rw [hstate]
    exact settled_recheck (settled_propagate hp hg (h.settled g hg)
      (mem_fieldKeys_of_writable hf) (not_computed_of_writable hp hf hg))

theorem Sound.settle (h : Sound s) : Sound s.settle.session := by
  refine h.of_eq (plan_settle s) fun f hf => ?_
  rw [state_settle]
  exact settled_recheck (settled_settleAll h.planned.toWellFormed hf fun d =>
    ((h.settled f hf).flags d).flagDeclared)

/-- A reset starts from other values, but from flags as they are. -/
theorem Sound.reset (h : Sound s) : Sound s.reset.session := by
  have hplan : s.reset.session.plan = s.plan := rfl
  apply h.of_eq hplan
  intro f hf
  apply settled_settleAll h.planned.toWellFormed hf
  intro d hnil
  have hdeclared := ((h.settled f hf).flags d).flagDeclared hnil
  cases d <;> exact hdeclared

theorem Sound.check (h : Sound s) : Sound s.check.session := by
  obtain ⟨hplan, ⟨cause, -, hstate⟩ | ⟨errors, -, hstate⟩⟩ := check_cases s
  · exact h.of_eq hplan fun f hf => hstate ▸ h.settled f hf
  · exact h.of_eq hplan fun f hf => hstate ▸ (h.settled f hf).withCheckErrors errors

/-- **Every reachable session is sound.** -/
theorem Reachable.sound (h : Reachable s) : Sound s := by
  induction h with
  | opened h => exact h.sound
  | set _ key v ih => exact ih.set key v
  | settle _ ih => exact ih.settle
  | reset _ ih => exact ih.reset
  | check _ ih => exact ih.check

end Session

end LiveForm
