import LiveForm.Proofs.History.Run
import LiveForm.Proofs.History.Unchanged
import LiveForm.Rule

/-!
# What two snapshots in a row tell

A snapshot tells a new schema from the one before it in two ways: by the changes, and by the
canonical text with its digest. Changes go by the keys of fields and the ids of rules, and by the
equality of values. The text goes by the order of fields and rules too, and by the kinds of values.

* `History.Digested`, `History.digested_run`: each digest is that of the text;
* `History.Detects`, **`History.run_detects`**: what two snapshots in a row tell;
* `History.edit`, `History.exists_edited`: two schemas that are kept in a row;
* **`History.not_detects_of_edits`**: edits of which only the changes tell, or only the texts.
-/

namespace LiveForm

open Value

namespace History

variable {h h' : History} {given : List (String × Schema)} {g g' : String × Schema}
  {old new : Schema} {s s' : Snapshot} {p : Option Schema} {i : ℕ}

/-! ## Digests -/

/-- **The digest of each snapshot is that of its text.** -/
def Digested (h : History) : Prop := ∀ s ∈ h.snapshots, s.schemaHash = textDigest s.schemaJson

theorem Digested.append (hd : h.Digested) (hs : s.schemaHash = textDigest s.schemaJson)
    (hsnapshots : h'.snapshots = h.snapshots ++ [s]) : h'.Digested := by
  rw [Digested, hsnapshots]
  exact List.forall_mem_append.mpr ⟨hd, List.forall_mem_singleton.mpr hs⟩

theorem Digested.twin (hd : h.Digested) (htwin : h.Twin h') : h'.Digested := by
  refine forall_of_forall₂ htwin.snapshots fun s hs s' hss' => ?_
  have hdigest := hd s hs
  rw [← hss'.rest] at hdigest
  exact hdigest

theorem snapshot_eq_ok {id author note : String} {now : Moment} {schema : Schema}
    (h₁ : h.snapshot id now schema author note = .ok (h', s)) :
    h'.snapshots = h.snapshots ++ [s] ∧ s.schemaHash = textDigest s.schemaJson := by
  rw [History.snapshot] at h₁
  obtain ⟨previous, -, h₁⟩ := bind_eq_ok.mp h₁
  obtain ⟨json, -, h₁⟩ := bind_eq_ok.mp h₁
  obtain ⟨a, -, h₁⟩ := bind_eq_ok.mp h₁
  obtain ⟨rfl, rfl⟩ := Prod.mk.inj (Except.ok.inj h₁)
  exact ⟨rfl, rfl⟩

theorem Digested.perform (hd : h.Digested) (hh : h.Holds given) (r : Request) :
    (h.perform r).1.Digested := by
  cases r with
  | snapshot id now schema author note =>
    rw [History.perform]
    cases hsnapshot : h.snapshot id now schema author note with
    | error cause => exact hd
    | ok taken =>
      obtain ⟨hsnapshots, hdigest⟩ := snapshot_eq_ok hsnapshot
      exact hd.append hdigest hsnapshots
  | get id =>
    rw [History.perform]
    split <;> exact hd
  | rollback id now =>
    have hsnapshots : (h.rollback id now).1.snapshots = h.snapshots := by
      rw [History.rollback]
      split <;> rfl
    have hsame : (h.perform (.rollback id now)).1 = (h.rollback id now).1 := by
      rw [History.perform]
      rcases h.rollback id now with ⟨h', - | -⟩ <;> rfl
    rw [Digested, hsame, hsnapshots]
    exact hd
  | diff source target =>
    rw [History.perform]
    split <;> exact hd
  | reload files path =>
    rw [History.perform]
    rcases hsave : save files h path with ⟨files', cause | text⟩
    · exact hd
    · obtain ⟨h', hload, htwin⟩ := load_save hh.sound hsave empty_null hh.config.symm
      dsimp only
      rw [hload]
      exact hd.twin htwin

theorem digested_run {rs : List Request} (hadmissible : ∀ r ∈ rs, r.Admissible)
    (hids : (rs.filterMap Request.id?).Nodup) : (run rs).Digested := by
  induction rs using List.reverseRecOn with
  | nil => exact fun _ hs => absurd hs List.not_mem_nil
  | append_singleton rs r ih =>
    obtain ⟨hbefore, -⟩ := List.forall_mem_append.mp hadmissible
    rw [List.filterMap_append] at hids
    rw [run_concat]
    exact (ih hbefore hids.of_append_left).perform (holds_run hbefore hids.of_append_left) r

/-! ## Two snapshots in a row -/

/-- **What two snapshots in a row tell** of the schemas that they keep. -/
structure Detects (old new : Schema) (s s' : Snapshot) : Prop where
  /-- No changes are told just when all parts are equal, whatever their order. -/
  changes_iff : s'.changes = [] ↔ ∀ part, (old.parts part).Alike (new.parts part)
  /-- So another order of fields and rules is no change. -/
  reordered : old.fields.Perm new.fields → old.rules.Perm new.rules →
    formDifferences old new = [] → s'.changes = []
  /-- The texts are the same just when no changes are told, the order is the same, and what is
  equal is of the same kind. -/
  text_iff : s'.schemaJson = s.schemaJson ↔
    s'.changes = [] ∧ old.SameOrder new ∧ Akin old.toValue new.toValue
  /-- So are the digests, unless two texts have one digest. -/
  digest_iff :
    (textDigest s'.schemaJson = textDigest s.schemaJson → s'.schemaJson = s.schemaJson) →
      (s'.schemaHash = s.schemaHash ↔
        s'.changes = [] ∧ old.SameOrder new ∧ Akin old.toValue new.toValue)

theorem Keeps.detects (hk : Keeps p i g s) (hk' : Keeps (some g.2) (i + 1) g' s')
    (hg : g.2.Readable) (hg' : g'.2.Readable) (hd : s.schemaHash = textDigest s.schemaJson)
    (hd' : s'.schemaHash = textDigest s'.schemaJson) (hold : g.2.Distinct)
    (hnew : g'.2.Distinct) : Detects g.2 g'.2 s s' := by
  have hnil : s'.changes = [] ↔ changesBetween (some g.2) g'.2 = [] := by
    rw [← List.length_eq_zero_iff, ← List.length_eq_zero_iff, hk'.changes.length_eq]
  have hchanges : s'.changes = [] ↔ ∀ part, (g.2.parts part).Alike (g'.2.parts part) :=
    hnil.trans (changesBetween_eq_nil_iff hold hnew (hg.legible hk.text))
  have htext : s'.schemaJson = s.schemaJson ↔
      s'.changes = [] ∧ g.2.SameOrder g'.2 ∧ Akin g.2.toValue g'.2.toValue := by
    rw [Schema.text_eq_iff hold (hg.legible hk.text) (hg'.legible hk'.text) hk.text hk'.text,
      hchanges]
  refine ⟨hchanges, fun hfields hrules hform =>
    hchanges.mpr (Schema.alike_parts_of_perm hold hfields hrules hform), htext, fun hcollide => ?_⟩
  rw [← htext, hd, hd']
  exact ⟨hcollide, congrArg textDigest⟩

/-- **Two snapshots in a row.** After any requests with distinct ids, where each schema comes back
from its text or has none, the changes of a snapshot and the texts of both tell what differs between
the schemas that were given. -/
theorem run_detects (rs : List Request) (hadmissible : ∀ r ∈ rs, r.Admissible)
    (hids : (rs.filterMap Request.id?).Nodup) (i : ℕ) (s s' : Snapshot)
    (hs : (run rs).snapshots[i]? = some s) (hs' : (run rs).snapshots[i + 1]? = some s') :
    ∃ g g', (rs.filterMap Request.given?)[i]? = some g ∧
      (rs.filterMap Request.given?)[i + 1]? = some g' ∧ s.id = g.1 ∧ s'.id = g'.1 ∧
      (g.2.Distinct → g'.2.Distinct → Detects g.2 g'.2 s s') := by
  have hh := holds_run hadmissible hids
  have hd := digested_run hadmissible hids
  obtain ⟨g, hg, hreadable, hk⟩ := hh.exists_keeps hs
  obtain ⟨g', hg', hreadable', hk'⟩ := hh.exists_keeps hs'
  rw [before, hg, Option.map_some] at hk'
  exact ⟨g, g', hg, hg', hk.id, hk'.id, hk.detects hk' hreadable hreadable'
    (hd s (List.mem_of_getElem? hs)) (hd s' (List.mem_of_getElem? hs'))⟩

/-! ### A form with two rules -/

/-- A rule on the visibility of a notice. -/
def noticeRule (id : String) (operator : Operator) (visible : Bool) : Rule where
  id := id
  name := ""
  trigger := "guests"
  operator := operator
  compare := .int 1
  target := "notice"
  effect := .visibility
  effectValue := .bool visible

/-- The notice is shown when there are guests. -/
def showRule : Rule := noticeRule "show" .isNotEmpty true

/-- The notice is hidden from a single guest. -/
def hideRule : Rule := noticeRule "hide" .equals false

/-- A form with a number of guests to start with. -/
def noticeForm (guests : Value) (rules : List Rule) : Schema where
  id := "notice"
  version := 1
  title := "Notice"
  description := ""
  fields := [
    { key := "guests", type := .number, label := "", default := guests, constraints := {},
      choices := [], visible := true, formula := none },
    { key := "notice", type := .text, label := "", default := .null, constraints := {},
      choices := [], visible := true, formula := none }]
  rules := rules
  layout := []

/-- The notice is hidden from the guest. -/
def hidingForm : Schema := noticeForm (.int 1) [showRule, hideRule]

/-- The notice is shown. -/
def showingForm : Schema := noticeForm (.int 1) [hideRule, showRule]

/-- The guest is given as a truth value. -/
def truthForm : Schema := noticeForm (.bool true) [showRule, hideRule]

def noticeForms : List Schema := [hidingForm, showingForm, truthForm]

theorem readable_of_mem_noticeForms {s : Schema} (h : s ∈ noticeForms) : s.Readable := by
  have hread : ∀ s ∈ noticeForms, (Schema.ofValue s.toValue).toOption = some s := by
    decide +kernel
  have hmoments : ∀ s ∈ noticeForms, (∀ f ∈ s.fields, f.default.kind ≠ .moment) ∧
      ∀ r ∈ s.rules, r.compare.kind ≠ .moment ∧ r.effectValue.kind ≠ .moment := by
    decide +kernel
  have hkind : ∀ {v : Value} {m : Moment}, v = .moment m → v.kind ≠ .moment → m.Regular :=
    fun hm hne => absurd (congrArg kind hm) hne
  obtain ⟨hdefaults, hrules⟩ := hmoments s h
  refine ⟨⟨s.toValue, eq_ok_of_toOption (hread s h), Schema.given_of_items ?_ ?_ ?_⟩,
    ⟨fun f hf m hm => hkind hm (hdefaults f hf), fun r hr m hm => hkind hm (hrules r hr).1,
      fun r hr m hm => hkind hm (hrules r hr).2⟩, ?_, ?_, ?_⟩
  all_goals revert s; decide +kernel

theorem exists_text_of_mem_noticeForms {s : Schema} (h : s ∈ noticeForms) :
    ∃ json, canonicalJson s.toValue = .ok json := by
  refine exists_text_of_readable (readable_of_mem_noticeForms h) ?_
  revert s
  decide +kernel

theorem distinct_of_mem_noticeForms {s : Schema} (h : s ∈ noticeForms) : s.Distinct := by
  refine ⟨?_, ?_⟩
  all_goals revert s; decide +kernel

/-- A form is kept, and then another one. -/
def edit (old new : Schema) : List Request :=
  [.snapshot "first" noon old "" "", .snapshot "second" noon new "" ""]

theorem admissible_edit (hold : old.Readable) (hnew : new.Readable) :
    ∀ r ∈ edit old new, r.Admissible := by
  simp only [edit, List.forall_mem_cons]
  exact ⟨Or.inl hold, Or.inl hnew, fun _ hr => absurd hr List.not_mem_nil⟩

theorem nodup_edit (old new : Schema) : ((edit old new).filterMap Request.id?).Nodup := by
  have hids : (edit old new).filterMap Request.id? = ["first", "second"] := rfl
  rw [hids]
  decide

theorem given_edit (hold : ∃ json, canonicalJson old.toValue = .ok json)
    (hnew : ∃ json, canonicalJson new.toValue = .ok json) :
    (edit old new).filterMap Request.given? = [("first", old), ("second", new)] := by
  obtain ⟨json, hjson⟩ := hold
  obtain ⟨json', hjson'⟩ := hnew
  rw [edit, List.filterMap_cons_some (Request.given?_snapshot hjson),
    List.filterMap_cons_some (Request.given?_snapshot hjson')]
  rfl

theorem given_edit_of_mem (hold : old ∈ noticeForms) (hnew : new ∈ noticeForms) :
    (edit old new).filterMap Request.given? = [("first", old), ("second", new)] :=
  given_edit (exists_text_of_mem_noticeForms hold) (exists_text_of_mem_noticeForms hnew)

theorem exists_edited (hold : old ∈ noticeForms) (hnew : new ∈ noticeForms) :
    ∃ s s', (run (edit old new)).snapshots = [s, s'] ∧ Keeps none 0 ("first", old) s ∧
      Keeps (some old) 1 ("second", new) s' := by
  have hh := holds_run (admissible_edit (readable_of_mem_noticeForms hold)
    (readable_of_mem_noticeForms hnew)) (nodup_edit old new)
  rw [given_edit_of_mem hold hnew] at hh
  obtain ⟨s, s', hsnapshots⟩ := List.length_eq_two.mp hh.length
  exact ⟨s, s', hsnapshots, hh.keeps 0 _ s rfl (by rw [hsnapshots]; rfl),
    hh.keeps 1 _ s' rfl (by rw [hsnapshots]; rfl)⟩

theorem hidingForm_mem : hidingForm ∈ noticeForms := List.mem_cons_self

theorem showingForm_mem : showingForm ∈ noticeForms := List.mem_cons_of_mem _ List.mem_cons_self

theorem truthForm_mem : truthForm ∈ noticeForms :=
  List.mem_cons_of_mem _ (List.mem_cons_of_mem _ List.mem_cons_self)

theorem notice_detects : (∀ r ∈ edit hidingForm showingForm, r.Admissible) ∧
    ((edit hidingForm showingForm).filterMap Request.id?).Nodup ∧
    hidingForm.Distinct ∧ showingForm.Distinct ∧
    ∃ s s', (run (edit hidingForm showingForm)).snapshots = [s, s'] ∧
      Detects hidingForm showingForm s s' := by
  have hadmissible := admissible_edit (readable_of_mem_noticeForms hidingForm_mem)
    (readable_of_mem_noticeForms showingForm_mem)
  have hids := nodup_edit hidingForm showingForm
  have hdistinct := distinct_of_mem_noticeForms hidingForm_mem
  have hdistinct' := distinct_of_mem_noticeForms showingForm_mem
  obtain ⟨s, s', hsnapshots, -, -⟩ := exists_edited hidingForm_mem showingForm_mem
  obtain ⟨g, g', hg, hg', -, -, hdetects⟩ := run_detects (edit hidingForm showingForm) hadmissible
    hids 0 s s' (by rw [hsnapshots]; rfl) (by rw [hsnapshots]; rfl)
  rw [given_edit_of_mem hidingForm_mem showingForm_mem] at hg hg'
  obtain rfl := Option.some.inj hg
  obtain rfl := Option.some.inj hg'
  exact ⟨hadmissible, hids, hdistinct, hdistinct', s, s', hsnapshots,
    hdetects hdistinct hdistinct'⟩

/-! ### Where changes and texts disagree -/

/-- An edit that is told by its text only. -/
theorem exists_silent (hold : old ∈ noticeForms) (hnew : new ∈ noticeForms)
    (hchanges : changesBetween (some old) new = [])
    (hrearranged : ¬ Rearranged old.toValue new.toValue) :
    ∃ s s', (run (edit old new)).snapshots = [s, s'] ∧ s'.changes = [] ∧
      s'.schemaJson ≠ s.schemaJson := by
  have hstorable := (readable_of_mem_noticeForms hold).storable
  have hstorable' := (readable_of_mem_noticeForms hnew).storable
  obtain ⟨s, s', hsnapshots, hk, hk'⟩ := exists_edited hold hnew
  have htold := hk'.changes
  rw [hchanges, List.forall₂_nil_left_iff] at htold
  exact ⟨s, s', hsnapshots, htold, fun h => hrearranged ((canonicalJson_eq_iff
    hstorable hstorable' hk.text hk'.text).mp h)⟩

theorem not_rearranged_showingForm : ¬ Rearranged hidingForm.toValue showingForm.toValue := by
  intro h
  have hequiv := h.equiv (readable_of_mem_noticeForms hidingForm_mem).storable
  have horder := ((Schema.equiv_toValue_iff
    (distinct_of_mem_noticeForms hidingForm_mem)).mp hequiv).2.rules
  exact absurd horder (by decide)

theorem not_rearranged_truthForm : ¬ Rearranged hidingForm.toValue truthForm.toValue := by
  intro h
  have hstorable := (readable_of_mem_noticeForms hidingForm_mem).storable
  have hfields := h.lookup hstorable "fields"
  rw [Schema.lookup_fields, Schema.lookup_fields, rearranged_list_iff, List.forall₂_map_left_iff,
    List.forall₂_map_right_iff] at hfields
  have hguests := hfields.get (i := 0) (by decide) (by decide)
  have hdefault := hguests.lookup
    ((readable_of_mem_noticeForms hidingForm_mem).storable_field _ List.mem_cons_self)
    "default_value"
  exact absurd hdefault.kind_eq (by decide +kernel)

theorem exists_restless : ∃ s s', (run (edit (limitForm 1) (limitForm 1))).snapshots = [s, s'] ∧
    s'.changes ≠ [] ∧ s'.schemaJson = s.schemaJson := by
  obtain ⟨text, htext⟩ : ∃ text, canonicalJson (limitForm 1).toValue = .ok text :=
    ⟨_, canonicalJson_limitForm⟩
  obtain ⟨a, hauthor⟩ := @exists_author start rfl ""
  let s := start.newest none "first" noon (limitForm 1) text a ""
  let h := { start with snapshots := [s] }.noting "snapshot_created" noon (record (takenPayload s))
  have hfirst : start.perform (.snapshot "first" noon (limitForm 1) "" "") = (h, none) := by
    rw [History.perform, snapshot_eq rfl htext hauthor]
    rfl
  have hprevious : h.previous = .ok (some (limitForm 0)) :=
    congrArg (Except.map some) (@schema_limitForm s htext)
  let s' := h.newest (some (limitForm 0)) "second" noon (limitForm 1) text a ""
  have hrun : (run (edit (limitForm 1) (limitForm 1))).snapshots = [s, s'] := by
    rw [run, edit, List.foldl_cons, List.foldl_cons, List.foldl_nil, hfirst, History.perform,
      snapshot_eq hprevious htext hauthor]
    rfl
  have hchanges : (changesBetween (some (limitForm 0)) (limitForm 1)).isEmpty = false := by
    decide +kernel
  refine ⟨s, s', hrun, fun hnil => ?_, rfl⟩
  have hempty : (changesBetween (some (limitForm 0)) (limitForm 1)).isEmpty = true :=
    List.isEmpty_iff.mpr hnil
  rw [hchanges] at hempty
  cases hempty

/-- The types of the fields of a form. -/
def noticeTypes : FieldTypes := fun key => (hidingForm.field? key).map Field.type

/-- A single guest. -/
def singleGuest : FormData := fun key => if key = "guests" then .int 1 else .null

/-- **No changes are told, and the text is another one**, when the rules come in another order, so
that another one decides, and when a truth value stands for an integer. For a limit that is no
number a change is told, and the text is the same. -/
theorem not_detects_of_edits :
    (hidingForm.Readable ∧ hidingForm.Distinct ∧ showingForm.Readable ∧ showingForm.Distinct ∧
      (Rule.evaluateAll hidingForm.rules noticeTypes singleGuest).visibility.get? "notice" =
        some false ∧
      (Rule.evaluateAll showingForm.rules noticeTypes singleGuest).visibility.get? "notice" =
        some true ∧
      ∃ s s', (run (edit hidingForm showingForm)).snapshots = [s, s'] ∧ s'.changes = [] ∧
        s'.schemaJson ≠ s.schemaJson) ∧
    (truthForm.Readable ∧ truthForm.Distinct ∧
      ∃ s s', (run (edit hidingForm truthForm)).snapshots = [s, s'] ∧ s'.changes = [] ∧
        s'.schemaJson ≠ s.schemaJson) ∧
    ((∃ d, Schema.ofValue d = .ok (limitForm 1) ∧ Schema.Given d (limitForm 1)) ∧
      (limitForm 1).Distinct ∧
      ∃ s s', (run (edit (limitForm 1) (limitForm 1))).snapshots = [s, s'] ∧ s'.changes ≠ [] ∧
        s'.schemaJson = s.schemaJson) := by
  have hsilent : ∀ {new : Schema}, (changesBetween (some hidingForm) new).isEmpty = true →
      changesBetween (some hidingForm) new = [] := List.isEmpty_iff.mp
  refine ⟨⟨readable_of_mem_noticeForms hidingForm_mem, distinct_of_mem_noticeForms hidingForm_mem,
    readable_of_mem_noticeForms showingForm_mem, distinct_of_mem_noticeForms showingForm_mem,
    by decide +kernel, by decide +kernel, ?order⟩, ⟨readable_of_mem_noticeForms truthForm_mem,
    distinct_of_mem_noticeForms truthForm_mem, ?kind⟩,
    ⟨_, ofValue_limitDocument, given_limitDocument⟩, ⟨by decide, by decide⟩, exists_restless⟩
  case order =>
    exact exists_silent hidingForm_mem showingForm_mem (hsilent (by decide +kernel))
      not_rearranged_showingForm
  case kind =>
    exact exists_silent hidingForm_mem truthForm_mem (hsilent (by decide +kernel))
      not_rearranged_truthForm

end History

end LiveForm
