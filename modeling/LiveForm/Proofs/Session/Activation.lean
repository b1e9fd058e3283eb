import LiveForm.Session.Activation
import LiveForm.Proofs.Config.Merge
import LiveForm.Proofs.Result
import LiveForm.Proofs.Schema.Script
import LiveForm.Proofs.Session.Start
import LiveForm.Proofs.Value.Decidable

/-!
# Activating schemas

The report on a schema and the session on it look at the same schema in two ways. What the one lets
pass, the other can work with: where there is no cycle and no error, only the values that are given
at the start can still refuse a session, or an integer of the schema that is too long for its
digest.

* `Config.Blocking`: the configurations under which errors refuse a session;
* `Session.GivenRefused`: the failures for a key of the given values;
* `Session.Ready.view_start`: what is opened follows from the form, the given values and the
  resolved configuration;
* `Schema.Opening`, `Schema.Agreement`: what is promised of a session that is opened, and of all
  ends of an activation;
* **`Schema.agreement`**: it is so for every schema;
* `Schema.not_refused_by_given`: a schema that no given values are to blame for.
-/

namespace LiveForm

variable {search : Pattern.Search} {s : Schema} {given : Entries} {overrides config : Value}
  {report : Report} {grid : ℤ}

/-! ## Configurations -/

namespace Config

/-- **A configuration under which errors refuse a session**: each mapping of the overrides has each
key once, and once resolved it can be written as JSON, with a width for the grid. -/
structure Blocking (overrides config : Value) : Prop where
  wellKeyed : overrides.wellKeyed = true
  resolves : resolve overrides = .ok config
  writable : ∃ text, canonicalJson config = .ok text
  grid : ∃ grid, gridColumns config = .ok grid
  blocks : ∃ v, option? config "activation" "block_on_errors" = some v ∧ v.truthy = true

theorem Blocking.again (h : Blocking overrides config) : resolve config = .ok config :=
  resolve_resolve h.wellKeyed h.resolves

theorem Blocking.exists_digest (h : Blocking overrides config) :
    ∃ digest, Config.digest config = .ok digest := by
  obtain ⟨-, -, r, -, -, -, rfl⟩ := exists_merge_of_resolve h.wellKeyed h.resolves
  obtain ⟨text, htext⟩ := h.writable
  exact ⟨textDigest text, by rw [Config.digest, htext]⟩

end Config

/-! ## What is opened -/

namespace Session

/-- **A failure for a key of the given values**: no field has it, or a computed field. -/
inductive GivenRefused (s : Schema) (given : Entries) : Failure → Prop
  | unknown {key v : Value} (hmem : (key, v) ∈ given) (h : ∀ f ∈ s.fields, .text f.key ≠ key) :
    GivenRefused s given (.unknownField key "initial_data")
  | computed {f : Field} {v : Value} (hmem : (.text f.key, v) ∈ given) (hf : f ∈ s.fields)
    (h : f.isComputed = true) : GivenRefused s given (.readOnlyField f.key)

theorem GivenRefused.mono {given' : Entries} {f : Failure} (h : GivenRefused s given f)
    (hsub : given ⊆ given') : GivenRefused s given' f := by
  cases h with
  | unknown hmem h => exact .unknown (hsub hmem) h
  | computed hmem hf h => exact .computed (hsub hmem) hf h

theorem givenRefused_of_fill {data : Table String Value} {r : Refusal}
    (h : fill s data given = .error r) : GivenRefused s given r.2 := by
  induction given generalizing data with
  | nil => cases h
  | cons e given ih =>
    obtain ⟨key, v⟩ := e
    have hmem : (key, v) ∈ (key, v) :: given := List.mem_cons_self
    cases key with
    | text k =>
      rw [fill] at h
      split at h
      · next r' hr =>
        obtain rfl := Except.error.inj h
        rw [writable] at hr
        split at hr
        · next hfield =>
          obtain rfl := Except.error.inj hr
          refine .unknown hmem fun f hf hkey => ?_
          exact absurd (Value.text.inj hkey) (Schema.field?_eq_none_iff.mp hfield f hf)
        · next f hfield =>
          obtain ⟨hf, rfl⟩ := Schema.mem_of_field? hfield
          split at hr
          · next hcomputed =>
            obtain rfl := Except.error.inj hr
            exact .computed hmem hf hcomputed
          · cases hr
      · exact (ih h).mono (List.subset_cons_self _ _)
    | _ =>
      obtain rfl := Except.error.inj h
      exact .unknown hmem fun f _ hkey => Value.noConfusion hkey

/-- What there is of a session but for its journal. -/
def view (t : Session) : Plan × State := (t.plan, t.state)

/-- **What it takes to open a session, but for the given values** and the length of the integers in
the schema. -/
structure Ready (s : Schema) (overrides config : Value) (order : List String) : Prop where
  resolves : Config.resolve overrides = .ok config
  problems : s.graphProblems = []
  orders : (Graph.ofSchema s).order = .ok order
  native : s.toValue.isNative = true
  configDigest : ∃ digest, Config.digest config = .ok digest

theorem schemaDigest_eq (h : s.toValue.isNative = true) : schemaDigest s =
    if s.toValue.longest ≤ digitLimit then .ok (textDigest (Json.tree true s.toValue).compact)
    else .error .digits := by
  rw [schemaDigest, canonicalJson_eq h]
  split <;> rfl

theorem exists_schemaDigest_iff_longest (h : s.toValue.isNative = true) :
    (∃ digest, schemaDigest s = .ok digest) ↔ s.toValue.longest ≤ digitLimit := by
  rw [schemaDigest_eq h]
  split
  · next hle => exact iff_of_true ⟨_, rfl⟩ hle
  · next hlong => exact iff_of_false (fun hdigest => nomatch hdigest.choose_spec) hlong

theorem view_settled {plan : Plan} (journal : Journal) (h : plan.schema.toValue.isNative = true)
    (hconfig : ∃ digest, Config.digest plan.config = .ok digest) :
    (settled plan journal).2.map view =
      if plan.schema.toValue.longest ≤ digitLimit then
        .ok (plan, (settleAll plan (declaredState plan.schema plan.initial)).state)
      else .error (.schemaDigest .digits) := by
  obtain ⟨digest, hdigest⟩ := hconfig
  rw [settled, hdigest, schemaDigest_eq h]
  by_cases hlong : plan.schema.toValue.longest ≤ digitLimit
  · rw [if_pos hlong, if_pos hlong]
    rfl
  · rw [if_neg hlong, if_neg hlong]
    rfl

section

variable {order : List String} (h : Ready s overrides config order)

include h

/-- **What is opened follows from the form, the given values and the resolved configuration.** -/
theorem Ready.view_start (journal : Journal) :
    (start search journal s given overrides).2.map view =
      match fill s (declaredData s) given with
      | .error r => .error (.failure r.2)
      | .ok data =>
        if s.toValue.longest ≤ digitLimit then
          let plan := planOf search s config (.ofSchema s) order data
          .ok (plan, (settleAll plan (declaredState s data)).state)
        else .error (.schemaDigest .digits) := by
  rw [start, h.resolves]
  dsimp only
  rw [Graph.strict_of_problems h.problems]
  dsimp only
  rw [h.orders]
  dsimp only
  rw [← declaredData]
  cases fill s (declaredData s) given with
  | error r => rfl
  | ok data => exact view_settled journal h.native h.configDigest

/-- **What keeps a session from being opened**: the given values, or an integer of the schema. -/
theorem Ready.start_error {journal : Journal} {e : StartError}
    (he : (start search journal s given overrides).2 = .error e) :
    (∃ f, e = .failure f ∧ GivenRefused s given f) ∨
      (e = .schemaDigest .digits ∧ digitLimit < s.toValue.longest) := by
  have hview : (start search journal s given overrides).2.map view = _ := h.view_start journal
  rw [he] at hview
  cases hfill : fill s (declaredData s) given with
  | error r =>
    rw [hfill] at hview
    exact Or.inl ⟨r.2, Except.error.inj hview, givenRefused_of_fill hfill⟩
  | ok data =>
    rw [hfill] at hview
    dsimp only at hview
    split at hview
    · cases hview
    · next hlong => exact Or.inr ⟨Except.error.inj hview, Nat.not_le.mp hlong⟩

theorem Ready.start_ne_ok (hlong : digitLimit < s.toValue.longest) (journal : Journal)
    (t : Session) : (start search journal s given overrides).2 ≠ .ok t := by
  intro ht
  have hview : (start search journal s given overrides).2.map view = _ := h.view_start journal
  rw [ht] at hview
  cases hfill : fill s (declaredData s) given with
  | error r =>
    rw [hfill] at hview
    cases hview
  | ok data =>
    rw [hfill] at hview
    dsimp only at hview
    rw [if_neg (Nat.not_le.mpr hlong)] at hview
    cases hview

end

end Session

/-! ## How an activation ends -/

/-- The failure that kept a session from being opened. -/
def ActivationError.failure? : ActivationError → Option Failure
  | .refused f | .start (.failure f) => some f
  | _ => none

/-- An activation ends in a failure of a kind. -/
def FailsWith (r : Except ActivationError Session) (kind : Notice.Kind) : Prop :=
  ∃ e f, r = .error e ∧ e.failure? = some f ∧ f.kind = kind

namespace Schema

/-- **What is promised of opening a session on a schema that was let pass**: its graph is built and
has an order, it has a digest unless one of its integers is too long, only such an integer or a key
of the given values refuses it, and it is the one that is opened without a report. -/
structure Opening (search : Pattern.Search) (s : Schema) (given : Entries) (overrides : Value) :
    Prop where
  strict : Graph.strict s = .ok (.ofSchema s)
  orders : ∃ order, (Graph.ofSchema s).order = .ok order
  digest : (∃ digest, Session.schemaDigest s = .ok digest) ↔ s.toValue.longest ≤ digitLimit
  refuses : ∀ e, activate search s given overrides = .error e →
    (∃ f, e = .start (.failure f) ∧ Session.GivenRefused s given f) ∨
      (e = .start (.schemaDigest .digits) ∧ digitLimit < s.toValue.longest)
  long : digitLimit < s.toValue.longest → ∀ t, activate search s given overrides ≠ .ok t
  direct : ∀ journal, (activate search s given overrides).map Session.view =
    ((Session.start search journal s given overrides).2.mapError .start).map Session.view

/-- **A report and the session agree**: a cycle ends an activation, and so do other errors; where
there are none, a session is opened. -/
structure Agrees (search : Pattern.Search) (s : Schema) (given : Entries) (overrides : Value)
    (report : Report) : Prop where
  cyclic : FailsWith (activate search s given overrides) .cyclicDependency ↔
    (Graph.ofSchema s).HasCycle
  invalid : ¬ (Graph.ofSchema s).HasCycle →
    (FailsWith (activate search s given overrides) .schemaInvalid ↔ report.errors ≠ [])
  opens : ¬ (Graph.ofSchema s).HasCycle → report.errors = [] → s.Opening search given overrides

/-- **Every report and the session agree.** There is no report when it would have to write out an
integer that is too long, and no session either. -/
structure Agreement (search : Pattern.Search) (s : Schema) (given : Entries) (overrides : Value) :
    Prop where
  reported : ∀ report, s.reportFor overrides = .ok report → s.Agrees search given overrides report
  unreported : ∀ e, s.reportFor overrides = .error e →
    e = .digits ∧ activate search s given overrides = .error (.report .digits)

theorem cycle_eq_none (h : ¬ (Graph.ofSchema s).HasCycle) : (s.report grid).cycle = none := by
  rw [← Graph.isSome_cycle? (Graph.bounded_ofSchema s), Option.not_isSome_iff_eq_none] at h
  exact h

theorem reportFor_eq (hresolves : Config.resolve overrides = .ok config)
    (hgrid : Config.gridColumns config = .ok grid) : s.reportFor overrides =
      if s.writable grid then .ok (s.report grid) else .error .digits := by
  rw [reportFor, hresolves]
  dsimp only
  rw [hgrid]

theorem activate_eq (h : Config.Blocking overrides config)
    (hgrid : Config.gridColumns config = .ok grid) (hwritable : s.writable grid = true) :
    activate search s given overrides =
      match (s.report grid).refusal? config with
      | some e => .error e
      | none =>
        (Session.start search (s.report grid).journal s given config).2.mapError .start := by
  rw [activate, h.resolves]
  dsimp only
  rw [reportFor_eq h.again hgrid, if_pos hwritable]
  dsimp only
  cases (s.report grid).refusal? config with
  | some e => rfl
  | none => cases (Session.start search (s.report grid).journal s given config).2 <;> rfl

theorem activate_of_unwritable (h : Config.Blocking overrides config)
    (hgrid : Config.gridColumns config = .ok grid) (hwritable : s.writable grid ≠ true) :
    activate search s given overrides = .error (.report .digits) := by
  rw [activate, h.resolves]
  dsimp only
  rw [reportFor_eq h.again hgrid, if_neg hwritable]

section

variable (h : Config.Blocking overrides config) (hgrid : Config.gridColumns config = .ok grid)
  (hwritable : s.writable grid = true)

include h hgrid hwritable

theorem activate_of_cycle (hcycle : (Graph.ofSchema s).HasCycle) :
    ∃ c, activate search s given overrides = .error (.refused (Report.cyclicFailure c)) := by
  obtain ⟨c, hc⟩ : ∃ c, (s.report grid).cycle = some c :=
    Option.isSome_iff_exists.mp ((Graph.isSome_cycle? (Graph.bounded_ofSchema s)).mpr hcycle)
  exact ⟨c, by rw [activate_eq h hgrid hwritable, Report.refusal?, hc]⟩

theorem activate_of_errors (hcycle : ¬ (Graph.ofSchema s).HasCycle)
    (herrors : (s.report grid).errors ≠ []) :
    activate search s given overrides = .error (.refused (s.report grid).invalidFailure) := by
  obtain ⟨v, hv, htruthy⟩ := h.blocks
  have hvalid : (s.report grid).valid = false := List.isEmpty_eq_false_iff.mpr herrors
  rw [activate_eq h hgrid hwritable, Report.refusal?, cycle_eq_none hcycle]
  dsimp only
  rw [hvalid, hv]
  dsimp only
  rw [htruthy]
  rfl

theorem activate_of_valid (hcycle : ¬ (Graph.ofSchema s).HasCycle)
    (herrors : (s.report grid).errors = []) : activate search s given overrides =
      (Session.start search (s.report grid).journal s given config).2.mapError .start := by
  have hvalid : (s.report grid).valid = true := List.isEmpty_iff.mpr herrors
  rw [activate_eq h hgrid hwritable, Report.refusal?, cycle_eq_none hcycle]
  dsimp only
  rw [hvalid, if_pos rfl]

end

theorem exists_ready (h : Config.Blocking overrides config)
    (hcycle : ¬ (Graph.ofSchema s).HasCycle) (herrors : (s.report grid).errors = []) :
    ∃ order, Session.Ready s overrides config order := by
  obtain ⟨order, horder⟩ := Graph.exists_order_of_acyclic hcycle
  exact ⟨order, h.resolves, graphProblems_of_report herrors, horder,
    (serializable_of_report herrors).isNative_toValue, h.exists_digest⟩

/-- **A session can be opened** on a schema without a cycle and without errors. -/
theorem opening (h : Config.Blocking overrides config)
    (hgrid : Config.gridColumns config = .ok grid) (hwritable : s.writable grid = true)
    (hcycle : ¬ (Graph.ofSchema s).HasCycle) (herrors : (s.report grid).errors = []) :
    s.Opening search given overrides := by
  obtain ⟨order, hready⟩ := exists_ready h hcycle herrors
  -- The configuration is resolved once more when the session is opened.
  have hagain : Session.Ready s config config order := { hready with resolves := h.again }
  have hactivate : activate search s given overrides =
      (Session.start search (s.report grid).journal s given config).2.mapError .start :=
    activate_of_valid h hgrid hwritable hcycle herrors
  refine ⟨Graph.strict_of_problems hready.problems, ⟨order, hready.orders⟩,
    Session.exists_schemaDigest_iff_longest hready.native, fun e he => ?_, fun hlong t ht => ?_,
    fun journal => ?_⟩
  · rw [hactivate] at he
    cases hstart : (Session.start search (s.report grid).journal s given config).2 with
    | error cause =>
      rw [hstart] at he
      obtain rfl := Except.error.inj he
      rcases hagain.start_error hstart with ⟨f, rfl, hf⟩ | ⟨rfl, hlong⟩
      · exact Or.inl ⟨f, rfl, hf⟩
      · exact Or.inr ⟨rfl, hlong⟩
    | ok t =>
      rw [hstart] at he
      cases he
  · rw [hactivate] at ht
    exact hagain.start_ne_ok hlong _ t (mapError_eq_ok.mp ht)
  · rw [hactivate, map_mapError, map_mapError, hagain.view_start, hready.view_start]

/-! ## Agreement -/

theorem Opening.kind_eq (h : s.Opening search given overrides) {kind : Notice.Kind}
    (hfails : FailsWith (activate search s given overrides) kind) :
    kind = .unknownField ∨ kind = .readOnlyField := by
  obtain ⟨e, f, he, hf, rfl⟩ := hfails
  rcases h.refuses e he with ⟨f', rfl, hrefused⟩ | ⟨rfl, -⟩
  · obtain rfl := Option.some.inj hf
    cases hrefused with
    | unknown => exact Or.inl rfl
    | computed => exact Or.inr rfl
  · cases hf

theorem agrees (h : Config.Blocking overrides config)
    (hgrid : Config.gridColumns config = .ok grid) (hwritable : s.writable grid = true) :
    s.Agrees search given overrides (s.report grid) := by
  have hcyclic : (Graph.ofSchema s).HasCycle →
      FailsWith (activate search s given overrides) .cyclicDependency := by
    intro hcycle
    obtain ⟨c, hc⟩ := activate_of_cycle h hgrid hwritable hcycle
    exact ⟨_, _, hc, rfl, rfl⟩
  have hinvalid : ¬ (Graph.ofSchema s).HasCycle → (s.report grid).errors ≠ [] →
      activate search s given overrides = .error (.refused (s.report grid).invalidFailure) :=
    activate_of_errors h hgrid hwritable
  refine ⟨⟨fun hfails => ?_, hcyclic⟩,
    fun hcycle => ⟨?_, fun herrors => ⟨_, _, hinvalid hcycle herrors, rfl, rfl⟩⟩,
    opening h hgrid hwritable⟩
  · by_contra hcycle
    by_cases herrors : (s.report grid).errors = []
    · rcases (opening h hgrid hwritable hcycle herrors).kind_eq hfails with hkind | hkind <;>
        cases hkind
    · obtain ⟨e, f, he, hf, hkind⟩ := hfails
      rw [hinvalid hcycle herrors] at he
      obtain rfl := Except.error.inj he
      obtain rfl := Option.some.inj hf
      cases hkind
  · intro hfails herrors
    rcases (opening h hgrid hwritable hcycle herrors).kind_eq hfails with hkind | hkind <;>
      cases hkind

/-- **A report and a session agree about every schema.** -/
theorem agreement (search : Pattern.Search) (s : Schema) (given : Entries)
    (h : Config.Blocking overrides config) : s.Agreement search given overrides := by
  obtain ⟨grid, hgrid⟩ := h.grid
  have hreport : s.reportFor overrides = _ := reportFor_eq h.resolves hgrid
  by_cases hwritable : s.writable grid = true
  · rw [if_pos hwritable] at hreport
    refine ⟨fun report hok => ?_, fun e he => ?_⟩
    · obtain rfl := Except.ok.inj (hreport.symm.trans hok)
      exact agrees h hgrid hwritable
    · rw [hreport] at he
      cases he
  · rw [if_neg hwritable] at hreport
    refine ⟨fun report hok => ?_, fun e he => ?_⟩
    · rw [hreport] at hok
      cases hok
    · exact ⟨(Except.error.inj (hreport.symm.trans he)).symm,
        activate_of_unwritable h hgrid hwritable⟩

/-- A grid of six columns. -/
def narrowGrid : Value := .record [("layout", .record [("grid_columns", .int 6)])]

/-- What it resolves to. -/
def narrowConfig : Value := .record [
  ("runtime", .record [("notify_on_validate", .bool true), ("revalidate_on_change", .bool true)]),
  ("compute", .record [("concat_separator", .text ""), ("precision", .null)]),
  ("activation", .record [("block_on_errors", .bool true)]),
  ("layout", .record [("grid_columns", .int 6)]),
  ("versioning", .record [("default_author", .text "system")])]

theorem blocking_narrowGrid : Config.Blocking narrowGrid narrowConfig where
  wellKeyed := by decide +kernel
  resolves := eq_ok_of_toOption (by decide +kernel)
  writable := by
    rw [canonicalJson_eq (by decide +kernel), if_pos (by decide +kernel)]
    exact ⟨_, rfl⟩
  grid := ⟨6, eq_ok_of_toOption (by decide +kernel)⟩
  blocks := ⟨.bool true, by decide +kernel, rfl⟩

/-- An order with a price, on a narrow grid. -/
theorem order_agreement : Config.Blocking narrowGrid narrowConfig ∧
    orderForm.Agreement Pattern.search [(.text "price", .int 10)] narrowGrid :=
  ⟨blocking_narrowGrid, agreement Pattern.search orderForm [(.text "price", .int 10)]
    blocking_narrowGrid⟩

/-- A form with a number that is too long to be written. -/
def lengthyForm : Schema where
  id := "lengthy"
  version := 1
  title := "Lengthy"
  description := ""
  fields := [{
    key := "amount", type := .number, label := "Amount", default := .int (.ofNat (Nat.pow 10 4300)),
    constraints := {}, choices := [], visible := true, formula := none }]
  rules := []
  layout := []

theorem longest_lengthyForm : digitLimit < lengthyForm.toValue.longest := by decide +kernel

/-- **Where there are no errors, the given values need not be to blame**: the number of this form
is too long for the digest of its schema. -/
theorem not_refused_by_given : ¬ ∀ (search : Pattern.Search) (s : Schema) (given : Entries)
    (overrides config : Value) (report : Report), Config.Blocking overrides config →
      s.reportFor overrides = .ok report → ¬ (Graph.ofSchema s).HasCycle → report.errors = [] →
        ∀ e, activate search s given overrides = .error e →
          ∃ f, e = .start (.failure f) ∧ Session.GivenRefused s given f := by
  intro hall
  have hgrid : Config.gridColumns narrowConfig = .ok 6 := eq_ok_of_toOption (by decide +kernel)
  have hwritable : lengthyForm.writable 6 = true := by decide +kernel
  have hcycle : ¬ (Graph.ofSchema lengthyForm).HasCycle :=
    Graph.exists_order_iff.mp ⟨["amount"], Graph.order_eq_ok_of_advance (by decide +kernel)⟩
  have herrors : (lengthyForm.report 6).errors = [] :=
    errors_eq_nil_of_advance (by decide +kernel) (by decide +kernel)
  have hreport : lengthyForm.reportFor narrowGrid = .ok (lengthyForm.report 6) := by
    rw [reportFor_eq blocking_narrowGrid.resolves hgrid, if_pos hwritable]
  have hopening : lengthyForm.Opening Pattern.search [] narrowGrid :=
    opening blocking_narrowGrid hgrid hwritable hcycle herrors
  cases hactivate : activate Pattern.search lengthyForm [] narrowGrid with
  | ok t => exact hopening.long longest_lengthyForm t hactivate
  | error e =>
    obtain ⟨f, -, hrefused⟩ := hall _ _ _ _ _ _ blocking_narrowGrid hreport hcycle herrors e
      hactivate
    cases hrefused with
    | unknown hmem => cases hmem
    | computed hmem => cases hmem

end Schema

end LiveForm
