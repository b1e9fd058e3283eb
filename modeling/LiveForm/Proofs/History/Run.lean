import Mathlib.Data.List.Induction
import LiveForm.Proofs.History.Keep
import LiveForm.Proofs.Json.Writable
import LiveForm.Proofs.Schema.Load

/-!
# Histories over whole runs

A history answers requests one by one, among them to be saved and loaded again. Whatever came
before, it records each schema that had a text: in order, under its id, with the changes since the
schema before it, and the schema comes back from there. What a request cannot do it leaves undone.

* `History.Request`, `History.perform`, `History.run`: requests to an empty history;
* `History.Answers`: what is done on a request;
* **`History.Holds.perform`**: a request is answered, and the history goes on holding what it was
  given;
* `History.Records`, `History.Performs`: what can be seen of a history, and of a request;
* **`History.run_faithful`**: after any run the history records what it was given.
-/

namespace LiveForm

open Value

namespace History

/-! ## Requests -/

/-- A request to a history. -/
inductive Request where
  | snapshot (id : String) (now : Moment) (schema : Schema) (author note : String)
  | get (id : Value)
  | rollback (id : Value) (now : Moment)
  | diff (source target : Value)
  /-- The history is saved to a path among files, and loaded from there. -/
  | reload (files : Files) (path : Path)

/-- Why a request is refused. -/
inductive Refusal where
  | snapshot (cause : SnapshotError)
  | version (cause : VersionError)
  | save (cause : SaveError)
  | load (cause : LoadError)

/-- The history after a request, and why it was refused if it was. -/
def perform (h : History) : Request → History × Option Refusal
  | .snapshot id now schema author note =>
    match h.snapshot id now schema author note with
    | .ok (h', _) => (h', none)
    | .error cause => (h, some (.snapshot cause))
  | .get id =>
    match h.get id with
    | .ok _ => (h, none)
    | .error f => (h, some (.version (.failure f)))
  | .rollback id now =>
    match h.rollback id now with
    | (h', .ok _) => (h', none)
    | (h', .error cause) => (h', some (.version cause))
  | .diff source target =>
    match h.diff source target with
    | .ok _ => (h, none)
    | .error cause => (h, some (.version cause))
  | .reload files path =>
    match save files h path with
    | (_, .error cause) => (h, some (.save cause))
    | (files', .ok _) =>
      match load files' path .null with
      | .ok h' => (h', none)
      | .error cause => (h, some (.load cause))

/-- The empty history under the default configuration. -/
def start : History := { config := Config.defaults }

theorem empty_null : empty .null = .ok start := rfl

/-- The history after requests. -/
def run (rs : List Request) : History := rs.foldl (fun h r => (h.perform r).1) start

theorem run_concat (rs : List Request) (r : Request) :
    run (rs ++ [r]) = ((run rs).perform r).1 := by
  rw [run, List.foldl_append]
  rfl

namespace Request

/-- The id that is generated for a request. -/
def id? : Request → Option String
  | snapshot id .. => some id
  | _ => none

/-- What a request gives to keep: a schema that has a canonical text, under an id. -/
def given? : Request → Option (String × Schema)
  | snapshot id _ schema _ _ =>
    match canonicalJson schema.toValue with
    | .ok _ => some (id, schema)
    | .error _ => none
  | _ => none

/-- **The requests that are looked at**: a schema comes back from its text, or has none. -/
def Admissible : Request → Prop
  | snapshot _ _ schema _ _ =>
    schema.Readable ∨ ∃ cause, canonicalJson schema.toValue = .error cause
  | _ => True

/-- The history is loaded anew. -/
def Reloads : Request → Prop
  | reload _ _ => True
  | _ => False

theorem given?_snapshot {id author note json : String} {now : Moment} {schema : Schema}
    (h : canonicalJson schema.toValue = .ok json) :
    (snapshot id now schema author note).given? = some (id, schema) := by
  rw [given?, h]

theorem given?_unwritable {id author note : String} {now : Moment} {schema : Schema}
    {cause : Unwritable} (h : canonicalJson schema.toValue = .error cause) :
    (snapshot id now schema author note).given? = none := by
  rw [given?, h]

theorem id?_of_given? {r : Request} {g : String × Schema} (h : r.given? = some g) :
    r.id? = some g.1 := by
  cases r with
  | snapshot id now schema author note =>
    rw [given?] at h
    split at h
    · exact congrArg (some ∘ Prod.fst) (Option.some.inj h)
    · cases h
  | _ => cases h

end Request

/-! ## Answers -/

/-- **What is done on a request**: a schema that has a text is added, what is known is found, and a
saved history is loaded with equal snapshots and equal events. What is refused changes nothing. -/
inductive Answers (h : History) : Request → History × Option Refusal → Prop
  | taken {id : String} {now : Moment} {schema : Schema} {author note json : String} {s : Snapshot}
    (e : Entries) (hjson : canonicalJson schema.toValue = .ok json) (hid : s.id = id) :
    Answers h (.snapshot id now schema author note)
      ({ h with snapshots := h.snapshots ++ [s], events := h.events ++ [e] }, none)
  | unwritable {id : String} {now : Moment} {schema : Schema} {author note : String}
    {cause : Unwritable} (hcause : canonicalJson schema.toValue = .error cause) :
    Answers h (.snapshot id now schema author note) (h, some (.snapshot (.schema cause)))
  | found {id : Value} {s : Snapshot} (hget : h.get id = .ok s) : Answers h (.get id) (h, none)
  | unknown {id : Value} {f : Failure} (hget : h.get id = .error f) :
    Answers h (.get id) (h, some (.version (.failure f)))
  | rolledBack {id : Value} {now : Moment} {s : Snapshot} (e : Entries) (hget : h.get id = .ok s) :
    Answers h (.rollback id now) ({ h with events := h.events ++ [e] }, none)
  | notRolledBack {id : Value} {now : Moment} {f : Failure} (hget : h.get id = .error f) :
    Answers h (.rollback id now) (h, some (.version (.failure f)))
  | compared {source target : Value} {s t : Snapshot} (hsource : h.get source = .ok s)
    (htarget : h.get target = .ok t) : Answers h (.diff source target) (h, none)
  | notCompared {source target : Value} {f : Failure}
    (hget : h.get source = .error f ∨ h.get target = .error f) :
    Answers h (.diff source target) (h, some (.version (.failure f)))
  | reloaded {files files' : Files} {path : Path} {text : String} {h' : History}
    (hsave : save files h path = (files', .ok text)) (hsnapshots : h.sameSnapshots h' = true)
    (hevents : h.sameEvents h' = true) : Answers h (.reload files path) (h', none)
  | notSaved {files files' : Files} {path : Path} {cause : FileError}
    (hsave : save files h path = (files', .error (.file cause))) :
    Answers h (.reload files path) (h, some (.save (.file cause)))
  | notWritten {files files' : Files} {path : Path}
    (hsave : save files h path = (files', .error (.value .digits)))
    (hlong : digitLimit < h.toValue.longest) :
    Answers h (.reload files path) (h, some (.save (.value .digits)))

variable {h : History} {given : List (String × Schema)} {r : Request} {o : History × Option Refusal}

/-- **The snapshots stay, and at most one is added.** -/
theorem Answers.keeps (ha : Answers h r o) : ∃ kept new, o.1.snapshots = kept ++ new ∧
    new.length ≤ 1 ∧ (kept = h.snapshots ∨
      r.Reloads ∧ listEquiv Snapshot.equiv h.snapshots kept = true) := by
  cases ha with
  | @taken _ _ _ _ _ _ s e _ _ => exact ⟨h.snapshots, [s], rfl, Nat.le_refl 1, Or.inl rfl⟩
  | @reloaded _ _ _ _ h' _ hsnapshots _ =>
    exact ⟨h'.snapshots, [], (List.append_nil _).symm, Nat.zero_le 1, Or.inr ⟨trivial, hsnapshots⟩⟩
  | _ => exact ⟨h.snapshots, [], (List.append_nil _).symm, Nat.zero_le 1, Or.inl rfl⟩

/-- **What is refused changes nothing.** -/
theorem Answers.eq_of_refused (ha : Answers h r o) {cause : Refusal} (hcause : o.2 = some cause) :
    o.1 = h := by
  cases ha with
  | taken | found | rolledBack | compared | reloaded => cases hcause
  | _ => rfl

/-! ## One request -/

theorem Holds.perform_get (hh : h.Holds given) (id : Value) :
    (h.perform (.get id)).1.Holds given ∧ Answers h (.get id) (h.perform (.get id)) := by
  rw [History.perform]
  cases hget : h.get id with
  | error f => exact ⟨hh, .unknown hget⟩
  | ok s => exact ⟨hh, .found hget⟩

theorem Holds.perform_rollback (hh : h.Holds given) (id : Value) (now : Moment) :
    (h.perform (.rollback id now)).1.Holds given ∧
      Answers h (.rollback id now) (h.perform (.rollback id now)) := by
  rw [History.perform]
  cases hget : h.get id with
  | error f =>
    rw [History.rollback, hget]
    exact ⟨hh, .notRolledBack hget⟩
  | ok s =>
    obtain ⟨e, schema, -, hrollback, hholds⟩ := hh.rollback hget now
    rw [hrollback]
    exact ⟨hholds, .rolledBack e hget⟩

theorem Holds.perform_diff (hh : h.Holds given) (source target : Value) :
    (h.perform (.diff source target)).1.Holds given ∧
      Answers h (.diff source target) (h.perform (.diff source target)) := by
  rw [History.perform, diff]
  cases hsource : h.get source with
  | error f => exact ⟨hh, .notCompared (Or.inl hsource)⟩
  | ok s =>
    cases htarget : h.get target with
    | error f => exact ⟨hh, .notCompared (Or.inr htarget)⟩
    | ok t =>
      obtain ⟨old, hold⟩ := hh.exists_schema (mem_of_get hsource)
      obtain ⟨new, hnew⟩ := hh.exists_schema (mem_of_get htarget)
      simp only [Except.mapError, ok_bind, hold, hnew]
      exact ⟨hh, .compared hsource htarget⟩

theorem Holds.perform_reload (hh : h.Holds given) (files : Files) (path : Path) :
    (h.perform (.reload files path)).1.Holds given ∧
      Answers h (.reload files path) (h.perform (.reload files path)) := by
  rw [History.perform]
  rcases hsave : save files h path with ⟨files', cause | text⟩
  · obtain ⟨e, rfl⟩ | ⟨rfl, hlong⟩ := hh.sound.exists_of_save_error hsave
    · exact ⟨hh, .notSaved hsave⟩
    · exact ⟨hh, .notWritten hsave hlong⟩
  · obtain ⟨h', hload, htwin⟩ := load_save hh.sound hsave empty_null hh.config.symm
    dsimp only
    rw [hload]
    exact ⟨hh.twin htwin, .reloaded hsave (htwin.sameSnapshots hh.sound.snapshots)
      (htwin.sameEvents hh.events)⟩

/-- **A request is answered**, and the history holds what it was given, with what the request
gives. -/
theorem Holds.perform (hh : h.Holds given) (hadmissible : r.Admissible)
    (hfresh : ∀ id, r.id? = some id → id ∉ given.map Prod.fst) :
    (h.perform r).1.Holds (given ++ r.given?.toList) ∧ Answers h r (h.perform r) := by
  have hnil : ∀ {h' : History}, h'.Holds given → h'.Holds (given ++ []) := fun hh' =>
    (List.append_nil given).symm ▸ hh'
  cases r with
  | snapshot id now schema author note =>
    rw [History.perform]
    cases hjson : canonicalJson schema.toValue with
    | ok json =>
      have hreadable : schema.Readable := hadmissible.resolve_right fun ⟨cause, hcause⟩ => by
        rw [hjson] at hcause
        cases hcause
      obtain ⟨s, e, hid, hsnapshot, hholds⟩ :=
        hh.snapshot hreadable hjson (hfresh id rfl) now author note
      rw [hsnapshot, Request.given?_snapshot hjson]
      exact ⟨hholds, .taken e hjson hid⟩
    | error cause =>
      rw [hh.snapshot_error hjson, Request.given?_unwritable hjson]
      exact ⟨hnil hh, .unwritable hjson⟩
  | get id => exact (hh.perform_get id).imp_left hnil
  | rollback id now => exact (hh.perform_rollback id now).imp_left hnil
  | diff source target => exact (hh.perform_diff source target).imp_left hnil
  | reload files path => exact (hh.perform_reload files path).imp_left hnil

/-! ## Runs -/

theorem holds_start : start.Holds [] where
  config := rfl
  readable _ hg := absurd hg List.not_mem_nil
  nodup := List.nodup_nil
  length := rfl
  keeps _ _ _ hg _ := by cases hg
  events _ he := absurd he List.not_mem_nil

theorem mem_ids_of_mem_given {rs : List Request} {id : String}
    (h : id ∈ (rs.filterMap Request.given?).map Prod.fst) : id ∈ rs.filterMap Request.id? := by
  obtain ⟨g, hg, rfl⟩ := List.mem_map.mp h
  obtain ⟨r, hr, hgiven⟩ := List.mem_filterMap.mp hg
  exact List.mem_filterMap.mpr ⟨r, hr, Request.id?_of_given? hgiven⟩

/-- **A history holds what it was given in a run.** -/
theorem holds_run {rs : List Request} (hadmissible : ∀ r ∈ rs, r.Admissible)
    (hids : (rs.filterMap Request.id?).Nodup) :
    (run rs).Holds (rs.filterMap Request.given?) := by
  induction rs using List.reverseRecOn with
  | nil => exact holds_start
  | append_singleton rs r ih =>
    obtain ⟨hbefore, hlast⟩ := List.forall_mem_append.mp hadmissible
    rw [List.filterMap_append] at hids
    have hfresh : ∀ id, r.id? = some id → id ∉ (rs.filterMap Request.given?).map Prod.fst := by
      intro id hid hmem
      have hlater : id ∈ [r].filterMap Request.id? :=
        List.mem_filterMap.mpr ⟨r, List.mem_singleton_self r, hid⟩
      exact List.disjoint_of_nodup_append hids (mem_ids_of_mem_given hmem) hlater
    have hholds := (ih hbefore hids.of_append_left).perform
      (List.forall_mem_singleton.mp hlast) hfresh
    have hgiven : [r].filterMap Request.given? = r.given?.toList := by
      cases hr : r.given? <;> simp [hr]
    rw [run_concat, List.filterMap_append, hgiven]
    exact hholds.1

/-! ## What can be seen -/

/-- **A history records what it was given.** -/
structure Records (h : History) (given : List (String × Schema)) : Prop where
  /-- The snapshots are numbered from 1. -/
  sequences : h.snapshots.map Snapshot.sequence =
    (List.range given.length).map fun i : ℕ => (i : ℤ) + 1
  ids : h.snapshots.map Snapshot.id = given.map Prod.fst
  /-- The id of a snapshot finds it. -/
  index : ∀ s ∈ h.snapshots, h.get (.text s.id) = .ok s
  /-- The schema comes back from the snapshot, and by its id. -/
  schemas : ∀ (i : ℕ) (g : String × Schema) (s : Snapshot),
    given[i]? = some g → h.snapshots[i]? = some s →
    ∃ schema, s.schema = .ok schema ∧ schema.equiv g.2 = true ∧ g.2.equiv schema = true ∧
      ∀ now, (h.rollback (.text s.id) now).2 = .ok schema
  /-- The changes are those since the schema before. -/
  changes : ∀ (i : ℕ) (g : String × Schema) (s : Snapshot),
    given[i]? = some g → h.snapshots[i]? = some s →
    listEquiv Change.equiv s.changes (changesBetween (before given i) g.2) = true

/-- **What a request does to a history.** -/
structure Performs (h : History) (r : Request) : Prop where
  answers : Answers h r (h.perform r)
  /-- The snapshots stay, and at most one is added. -/
  keeps : ∃ kept new, (h.perform r).1.snapshots = kept ++ new ∧ new.length ≤ 1 ∧
    (kept = h.snapshots ∨ r.Reloads ∧ listEquiv Snapshot.equiv h.snapshots kept = true)
  /-- What is refused changes nothing. -/
  refused : ∀ cause, (h.perform r).2 = some cause → (h.perform r).1 = h

theorem Holds.records (hh : h.Holds given) : h.Records given where
  sequences := by
    refine List.ext_getElem (by simp [hh.length]) fun i hi hi' => ?_
    rw [List.length_map] at hi
    rw [List.length_map, List.length_range] at hi'
    rw [List.getElem_map, List.getElem_map, List.getElem_range]
    exact (hh.keeps i _ _ (List.getElem?_eq_getElem hi') (List.getElem?_eq_getElem hi)).sequence
  ids := hh.ids
  index _ hs := hh.get hs
  schemas i g s hg hs := by
    have hget := hh.get (List.mem_of_getElem? hs)
    obtain ⟨schema, hschema, htwin⟩ :=
      (hh.keeps i g s hg hs).schema (hh.readable g (List.mem_of_getElem? hg))
    refine ⟨schema, hschema, htwin.symm.equiv, htwin.equiv, fun now => ?_⟩
    obtain ⟨e, schema', hschema', hrollback, -⟩ := hh.rollback hget now
    obtain rfl := Except.ok.inj (hschema.symm.trans hschema')
    rw [hrollback]
  changes i g s hg hs := by
    have hsound := (hh.sound.snapshots s (List.mem_of_getElem? hs)).changes
    have htwins := ((hh.keeps i g s hg hs).changes.imp fun _ _ => Change.Twin.symm).flip
    exact listEquiv_of_forall₂ (fun hc => hc.2.equiv hc.1)
      ((List.forall₂_and_left _ _).mpr ⟨hsound, htwins⟩)

/-- **The history is faithful over whole runs.** After any requests with distinct ids, where each
schema comes back from its text or has none, it records what it was given, and so it does whatever
comes next. -/
theorem run_faithful (rs : List Request) (hadmissible : ∀ r ∈ rs, r.Admissible)
    (hids : (rs.filterMap Request.id?).Nodup) :
    (run rs).Records (rs.filterMap Request.given?) ∧
      ∀ r : Request, r.Admissible → (∀ id, r.id? = some id → id ∉ rs.filterMap Request.id?) →
        (run rs).Performs r := by
  have hh := holds_run hadmissible hids
  refine ⟨hh.records, fun r hr hfresh => ?_⟩
  have hanswers := (hh.perform hr fun id hid hmem =>
    hfresh id hid (mem_ids_of_mem_given hmem)).2
  exact ⟨hanswers, hanswers.keeps, fun _ => hanswers.eq_of_refused⟩

/-! ### A run -/

theorem readable_dueForm : Schema.dueForm.Readable where
  given := ⟨_, Schema.ofValue_dueDocument, Schema.given_dueDocument⟩
  regular := Schema.regular_dueForm
  fields := by decide +kernel
  rules := by decide +kernel
  limits := by decide

theorem exists_text_of_readable {s : Schema} (h : s.Readable)
    (hdigits : s.toValue.longest ≤ digitLimit) : ∃ json, canonicalJson s.toValue = .ok json :=
  ⟨_, (Legible.mk h.storable hdigits).canonicalJson_eq⟩

/-- A form that starts with bytes has no text. -/
def rawForm : Schema where
  id := "raw"
  version := 1
  title := "Raw"
  description := ""
  fields := [
    { key := "data", type := .text, label := "", default := .bytes [0],
      constraints := {}, choices := [], visible := true, formula := none }]
  rules := []
  layout := []

theorem exists_error_rawForm : ∃ cause, canonicalJson rawForm.toValue = .error cause := by
  cases htext : canonicalJson rawForm.toValue with
  | error cause => exact ⟨cause, rfl⟩
  | ok text =>
    obtain ⟨tree, htree, -⟩ := map_eq_ok.mp htext
    obtain ⟨-, hfields, -⟩ := Schema.writable_toValue.mp ⟨tree, htree⟩
    have hfield := hfields _ (List.mem_singleton_self _)
    rw [Field.toValue, Json.writable_record] at hfield
    obtain ⟨tree, hbytes⟩ := hfield ("default_value", .bytes [0]) (by decide +kernel)
    rw [Json.ofValue.eq_def] at hbytes
    cases hbytes

def noon : Moment := ⟨⟨2024, 1, 31, rfl⟩, 12, 0, 0, 0, none, rfl⟩

/-- The history is saved and loaded between two snapshots, and cannot keep a form without a text. -/
def dueRequests : List Request := [
  .snapshot "first" noon Schema.dueForm "" "",
  .reload {} (.ofText "kept/history.json"),
  .snapshot "lost" noon rawForm "" "",
  .rollback (.text "first") noon,
  .snapshot "second" noon Schema.dueForm "ana" "again",
  .diff (.text "first") (.text "second"),
  .get (.text "lost")]

theorem given_dueRequests : dueRequests.filterMap Request.given? =
    [("first", Schema.dueForm), ("second", Schema.dueForm)] := by
  obtain ⟨json, hjson⟩ := exists_text_of_readable readable_dueForm (by decide +kernel)
  have hfirst := @Request.given?_snapshot "first" "" "" json noon _ hjson
  obtain ⟨cause, hcause⟩ := exists_error_rawForm
  have hlost := @Request.given?_unwritable "lost" "" "" noon _ _ hcause
  have hsecond := @Request.given?_snapshot "second" "ana" "again" json noon _ hjson
  rw [dueRequests, List.filterMap_cons_some hfirst, List.filterMap_cons_none rfl,
    List.filterMap_cons_none hlost, List.filterMap_cons_none rfl, List.filterMap_cons_some hsecond]
  rfl

theorem dueRequests_faithful : (∀ r ∈ dueRequests, r.Admissible) ∧
    (dueRequests.filterMap Request.id?).Nodup ∧
    (run dueRequests).Records [("first", Schema.dueForm), ("second", Schema.dueForm)] ∧
    (run dueRequests).Performs (.rollback (.text "first") noon) := by
  have hadmissible : ∀ r ∈ dueRequests, r.Admissible := by
    simp only [dueRequests, List.forall_mem_cons]
    exact ⟨Or.inl readable_dueForm, trivial, Or.inr exists_error_rawForm, trivial,
      Or.inl readable_dueForm, trivial, trivial, fun _ hr => absurd hr List.not_mem_nil⟩
  have hids : (dueRequests.filterMap Request.id?).Nodup := by decide +kernel
  have hfaithful := run_faithful dueRequests hadmissible hids
  exact ⟨hadmissible, hids, given_dueRequests ▸ hfaithful.1,
    hfaithful.2 _ trivial fun _ hid => absurd hid nofun⟩

/-! ### Limits -/

/-- A field with a limit that is no number. -/
def limitField (label : ℕ) : Field where
  key := "score"
  type := .number
  label := ""
  default := .null
  constraints := { min := some (.float (.nan label)) }
  choices := []
  visible := true
  formula := none

/-- A form with this field only. -/
def limitForm (label : ℕ) : Schema where
  id := "limit"
  version := 1
  title := "Limit"
  description := ""
  fields := [limitField label]
  rules := []
  layout := []

/-- A document of it. -/
def limitDocument : Value := .record [
  ("id", .text "limit"),
  ("title", .text "Limit"),
  ("fields", .list [.record [("key", .text "score"), ("type", .text "number"),
    ("constraints", .record [("min", .float (.nan 1))])]])]

theorem ofValue_limitDocument : Schema.ofValue limitDocument = .ok (limitForm 1) :=
  eq_ok_of_toOption (by decide +kernel)

theorem given_limitDocument : Schema.Given limitDocument (limitForm 1) :=
  Schema.given_of_items (by decide +kernel) (by decide +kernel) (by decide +kernel)

theorem regular_limitForm : (limitForm 1).Regular where
  defaults := List.forall_mem_singleton.mpr fun _ hm => (nomatch hm)
  compares _ hr := absurd hr List.not_mem_nil
  effects _ hr := absurd hr List.not_mem_nil

/-- The sorted members of its limits. -/
def limitMembers : List (String × Json) := [("max", .null), ("max_length", .null),
  ("message", .null), ("min", .float (.nan 1)), ("min_length", .null), ("pattern", .null),
  ("required", .bool false)]

/-- Those of the field. -/
def fieldMembers : List (String × Json) := [("computation", .null),
  ("constraints", .object limitMembers), ("default_value", .null), ("key", .text "score"),
  ("label", .text ""), ("options", .array []), ("type", .text "number"), ("visible", .bool true)]

/-- Those of the form. -/
def formMembers : List (String × Json) := [("description", .text ""),
  ("fields", .array [.object fieldMembers]), ("id", .text "limit"), ("layout", .array []),
  ("rules", .array []), ("title", .text "Limit"), ("version", .int 1)]

section

open List.MergeSort.Internal

theorem tree_limit : Json.tree true (limitField 1).constraints.toValue = .object limitMembers := by
  rw [Constraints.toValue, record, Json.tree_map]
  simp [fields, Json.arrange, List.mergeSort, splitInTwo, Json.textKey?, Json.keyText, limitMembers,
    limitField, Json.tree]
  exact ⟨rfl, rfl, rfl, rfl, rfl, rfl⟩

theorem tree_limitField : Json.tree true (limitField 1).toValue = .object fieldMembers := by
  rw [Field.toValue, record, Json.tree_map]
  simp [fields, Json.arrange, List.mergeSort, splitInTwo, Json.textKey?, Json.keyText, fieldMembers,
    tree_limit, Json.tree]
  exact ⟨rfl, rfl, rfl, rfl, rfl, rfl, rfl⟩

theorem tree_limitForm : Json.tree true (limitForm 1).toValue = .object formMembers := by
  rw [Schema.toValue, record, Json.tree_map]
  simp [fields, Json.arrange, List.mergeSort, splitInTwo, Json.textKey?, Json.keyText, formMembers,
    limitForm, tree_limitField, Json.tree, Json.trees]

end

theorem canonicalJson_limitForm :
    canonicalJson (limitForm 1).toValue = .ok (Json.object formMembers).compact :=
  tree_limitForm ▸ (canonicalJson_eq (by decide +kernel)).trans (if_pos (by decide +kernel))

theorem schema_limitForm {s : Snapshot}
    (h : canonicalJson (limitForm 1).toValue = .ok s.schemaJson) :
    s.schema = .ok (limitForm 0) := by
  have hread : Schema.ofValue (((Json.reread digitLimit (.object formMembers)).map
      Json.toValue).toOption.getD .null) = .ok (limitForm 0) :=
    eq_ok_of_toOption (by decide +kernel)
  rw [Snapshot.schema, Snapshot.schemaValue, ← Except.ok.inj (canonicalJson_limitForm.symm.trans h),
    ofJsonText, Json.parse_compact]
  exact hread

/-- **A limit that is no number does not come back**, although no free value of the schema is such:
the snapshot is taken, and the schema that its id restores is another one. -/
theorem limit_not_restored : ∃ d schema, Schema.ofValue d = .ok schema ∧ Schema.Given d schema ∧
    schema.Regular ∧ (∀ f ∈ schema.fields, f.default = .null ∧ f.choices = []) ∧
    schema.rules = [] ∧ schema.toValue.longest ≤ digitLimit ∧
    ∃ s restored, (run [.snapshot "first" noon schema "" ""]).snapshots = [s] ∧ s.id = "first" ∧
      ((run [.snapshot "first" noon schema "" ""]).rollback (.text "first") noon).2 =
        .ok restored ∧ restored.equiv schema = false := by
  refine ⟨limitDocument, limitForm 1, ofValue_limitDocument, given_limitDocument,
    regular_limitForm, by decide, rfl, by decide +kernel, ?_⟩
  obtain ⟨text, htext⟩ : ∃ text, canonicalJson (limitForm 1).toValue = .ok text :=
    ⟨_, canonicalJson_limitForm⟩
  obtain ⟨a, hauthor⟩ := @exists_author start rfl ""
  let s := start.newest none "first" noon (limitForm 1) text a ""
  have hrun : run [.snapshot "first" noon (limitForm 1) "" ""] =
      { start with snapshots := [s] }.noting "snapshot_created" noon (record (takenPayload s)) := by
    rw [run, List.foldl_cons, List.foldl_nil, History.perform, snapshot_eq rfl htext hauthor]
    rfl
  have hget : (run [.snapshot "first" noon (limitForm 1) "" ""]).get (.text "first") = .ok s := by
    simp [hrun, History.get, noting, start, equiv_text_iff, s, newest]
  refine ⟨s, limitForm 0, by rw [hrun]; rfl, rfl, ?_, by decide +kernel⟩
  rw [History.rollback, hget]
  exact congrArg (Except.mapError VersionError.shape) (@schema_limitForm s htext)

end History

end LiveForm
