import LiveForm.Proofs.History.Reload
import LiveForm.Proofs.Schema.Readable

/-!
# What a history keeps

A history keeps the schemas that it was given, in order, each under its id: the schema comes back
from its snapshot, and the snapshot tells the changes since the schema before it. This is so of an
empty history, of one that took another snapshot, and of one that was saved and loaded.

* `History.Keeps`: a snapshot keeps a schema;
* `History.Holds`: a history keeps what it was given;
* **`History.Keeps.schema`**: the schema comes back;
* **`History.Holds.snapshot`, `History.Holds.noting`, `History.Holds.twin`**: what goes on holding;
* **`History.Holds.get`**: the id of a snapshot finds it.
-/

namespace LiveForm

open Value

/-! ## Lists -/

theorem forall₂_trans {α : Type} {R : α → α → Prop} (h : ∀ {a b c}, R a b → R b c → R a c)
    {as bs cs : List α} (hab : List.Forall₂ R as bs) (hbc : List.Forall₂ R bs cs) :
    List.Forall₂ R as cs := by
  induction hab generalizing cs with
  | nil => exact hbc
  | cons hab _ ih =>
    cases hbc with
    | cons hbc hrest => exact .cons (h hab hbc) (ih hrest)

theorem forall_of_forall₂ {α β : Type} {R : α → β → Prop} {P : β → Prop} {as : List α}
    {bs : List β} (h : List.Forall₂ R as bs) (hP : ∀ a ∈ as, ∀ b, R a b → P b) :
    ∀ b ∈ bs, P b := by
  induction h with
  | nil => exact fun _ hb => absurd hb List.not_mem_nil
  | @cons a b as bs hab _ ih =>
    obtain ⟨ha, has⟩ := List.forall_mem_cons.mp hP
    exact List.forall_mem_cons.mpr ⟨ha b hab, ih has⟩

namespace History

/-! ## Snapshots -/

/-- The schema before a place in what was given. -/
def before (given : List (String × Schema)) : ℕ → Option Schema
  | 0 => none
  | i + 1 => given[i]?.map Prod.snd

/-- **A snapshot keeps a schema** at a place, under its id, with the changes since an older one. -/
structure Keeps (old : Option Schema) (i : ℕ) (given : String × Schema) (s : Snapshot) : Prop where
  id : s.id = given.1
  sequence : s.sequence = i + 1
  text : canonicalJson given.2.toValue = .ok s.schemaJson
  changes : List.Forall₂ Change.Twin (changesBetween old given.2) s.changes

variable {h h' : History} {given : List (String × Schema)} {g : String × Schema} {s s' : Snapshot}
  {old : Option Schema} {i : ℕ}

theorem before_append (hi : i ≤ given.length) (rest : List (String × Schema)) :
    before (given ++ rest) i = before given i := by
  cases i with
  | zero => rfl
  | succ i => rw [before, before, List.getElem?_append_left hi]

theorem before_length : before given given.length = given.getLast?.map Prod.snd := by
  cases given with
  | nil => rfl
  | cons g given => rw [List.getLast?_eq_getElem?, List.length_cons, before, Nat.add_sub_cancel]

theorem mem_of_before {p : Schema} (h : before given i = some p) : ∃ g ∈ given, g.2 = p := by
  cases i with
  | zero => cases h
  | succ i =>
    obtain ⟨g, hg, rfl⟩ := Option.map_eq_some_iff.mp h
    exact ⟨g, List.mem_of_getElem? hg, rfl⟩

theorem Keeps.twin (hk : Keeps old i g s) (htwin : s.Twin s') : Keeps old i g s' := by
  have hchanges : List.Forall₂ Change.Twin (changesBetween old g.2) s'.changes :=
    @forall₂_trans _ Change.Twin Change.Twin.trans _ _ _ hk.changes htwin.changes
  obtain ⟨hid, hsequence, htext, -⟩ := hk
  rw [← htwin.rest] at hid hsequence htext
  exact ⟨hid, hsequence, htext, hchanges⟩

/-- **The schema comes back** from a snapshot. -/
theorem Keeps.schema (hk : Keeps old i g s) (hg : g.2.Readable) :
    ∃ schema, s.schema = .ok schema ∧ g.2.Twin schema :=
  Schema.ofValue_rearranged hg.toRestored hg.storable
    (Snapshot.rearranged_schemaValue (hg.legible hk.text) hk.text)

theorem Keeps.sound (hk : Keeps old i g s) (hg : g.2.Readable)
    (hold : ∀ p, old = some p → Legible p.toValue) : s.Sound := by
  have hlegible := hg.legible hk.text
  refine ⟨⟨_, hlegible, hk.text⟩, forall_of_forall₂ hk.changes fun c hc c' htwin => ?_⟩
  exact (sound_changesBetween hold hlegible c hc).twin htwin

/-! ## Histories -/

/-- **A history keeps what it was given**, in order, and its events come back from their text. -/
structure Holds (h : History) (given : List (String × Schema)) : Prop where
  config : h.config = Config.defaults
  readable : ∀ g ∈ given, g.2.Readable
  nodup : (given.map Prod.fst).Nodup
  length : h.snapshots.length = given.length
  keeps : ∀ i g s, given[i]? = some g → h.snapshots[i]? = some s → Keeps (before given i) i g s
  events : ∀ e ∈ h.events, Storable (.map e)

theorem Holds.legible_before (hh : h.Holds given) :
    ∀ p, before given i = some p → Legible p.toValue := by
  intro p hp
  obtain ⟨g, hg, rfl⟩ := mem_of_before hp
  obtain ⟨i, hi⟩ := List.getElem?_of_mem hg
  obtain ⟨hlt, -⟩ := List.getElem?_eq_some_iff.mp hi
  have hk := hh.keeps i g _ hi (List.getElem?_eq_getElem (hh.length ▸ hlt))
  exact (hh.readable g hg).legible hk.text

theorem Holds.exists_keeps (hh : h.Holds given) (hs : h.snapshots[i]? = some s) :
    ∃ g, given[i]? = some g ∧ g.2.Readable ∧ Keeps (before given i) i g s := by
  obtain ⟨hi, -⟩ := List.getElem?_eq_some_iff.mp hs
  obtain ⟨g, hg⟩ : ∃ g, given[i]? = some g :=
    ⟨_, List.getElem?_eq_getElem (hh.length ▸ hi)⟩
  exact ⟨g, hg, hh.readable g (List.mem_of_getElem? hg), hh.keeps i g s hg hs⟩

theorem Holds.sound (hh : h.Holds given) : h.Sound := by
  refine ⟨fun s hs => ?_, hh.events⟩
  obtain ⟨i, hi⟩ := List.getElem?_of_mem hs
  obtain ⟨g, -, hreadable, hk⟩ := hh.exists_keeps hi
  exact hk.sound hreadable fun _ => hh.legible_before _

theorem Holds.exists_schema (hh : h.Holds given) (hs : s ∈ h.snapshots) :
    ∃ schema, s.schema = .ok schema := by
  obtain ⟨i, hi⟩ := List.getElem?_of_mem hs
  obtain ⟨g, -, hreadable, hk⟩ := hh.exists_keeps hi
  obtain ⟨schema, hschema, -⟩ := hk.schema hreadable
  exact ⟨schema, hschema⟩

theorem Holds.exists_previous (hh : h.Holds given) :
    ∃ o, h.previous = .ok o ∧ Option.Rel Schema.Twin (before given given.length) o := by
  rw [History.previous, latest, before_length, List.getLast?_eq_getElem?,
    List.getLast?_eq_getElem?, hh.length]
  cases hlast : h.snapshots[given.length - 1]? with
  | none =>
    have hle : given.length ≤ given.length - 1 := by
      rwa [List.getElem?_eq_none_iff, hh.length] at hlast
    rw [List.getElem?_eq_none_iff.mpr hle]
    exact ⟨none, rfl, .none⟩
  | some s =>
    obtain ⟨g, hg, hreadable, hk⟩ := hh.exists_keeps hlast
    obtain ⟨schema, hschema, htwin⟩ := hk.schema hreadable
    rw [hg]
    exact ⟨some schema, congrArg (Except.map some) hschema, .some htwin⟩

/-! ## Finding snapshots -/

theorem Holds.ids (hh : h.Holds given) : h.snapshots.map Snapshot.id = given.map Prod.fst := by
  refine List.ext_getElem (by simp [hh.length]) fun i hi hi' => ?_
  rw [List.length_map] at hi hi'
  rw [List.getElem_map, List.getElem_map]
  exact (hh.keeps i _ _ (List.getElem?_eq_getElem hi') (List.getElem?_eq_getElem hi)).id

theorem equiv_text_iff {a b : String} : Value.equiv (.text a) (.text b) = true ↔ a = b := by
  simp [Value.equiv, scalarEquiv]

/-- **The id of a snapshot finds it.** -/
theorem Holds.get (hh : h.Holds given) (hs : s ∈ h.snapshots) : h.get (.text s.id) = .ok s := by
  have hnodup : (h.snapshots.map Snapshot.id).Nodup := hh.ids ▸ hh.nodup
  rw [History.get]
  cases hfind : h.snapshots.reverse.find? fun t => Value.equiv (.text s.id) (.text t.id) with
  | none =>
    have hself := List.find?_eq_none.mp hfind s (List.mem_reverse.mpr hs)
    exact absurd (equiv_text_iff.mpr rfl) hself
  | some t =>
    have hequiv : Value.equiv (.text s.id) (.text t.id) = true := by
      simpa only using List.find?_some hfind
    have hid : s.id = t.id := equiv_text_iff.mp hequiv
    have ht : t ∈ h.snapshots := List.mem_reverse.mp (List.mem_of_find?_eq_some hfind)
    rw [List.inj_on_of_nodup_map hnodup hs ht hid]

theorem mem_of_get {id : Value} (hget : h.get id = .ok s) : s ∈ h.snapshots := by
  rw [History.get] at hget
  split at hget
  · next t hfind =>
    obtain rfl := Except.ok.inj hget
    exact List.mem_reverse.mp (List.mem_of_find?_eq_some hfind)
  · cases hget

/-! ## Steps -/

theorem Holds.twin (hh : h.Holds given) (htwin : h.Twin h') : h'.Holds given where
  config := htwin.config.trans hh.config
  readable := hh.readable
  nodup := hh.nodup
  length := htwin.snapshots.length_eq.symm.trans hh.length
  keeps i g s' hg hs' := by
    obtain ⟨hi', rfl⟩ := List.getElem?_eq_some_iff.mp hs'
    have hi : i < h.snapshots.length := htwin.snapshots.length_eq ▸ hi'
    exact (hh.keeps i g _ hg (List.getElem?_eq_getElem hi)).twin (htwin.snapshots.get hi hi')
  events := forall_of_forall₂ htwin.events fun e he _ hrearranged =>
    (hh.events e he).rearranged hrearranged

theorem storable_event (name : String) (time : Moment) {payload : List (String × Value)}
    (hkeys : (payload.map Prod.fst).Nodup) (hpayload : ∀ m ∈ payload, Storable m.2) :
    Storable (.map (event name time (record payload))) := by
  refine @storable_record [("event_type", .text name), ("timestamp", .text time.isoText),
    ("payload", record payload)] (by simp) ?_
  simp only [List.forall_mem_cons]
  exact ⟨.text _, .text _, storable_record hkeys hpayload, fun _ hm => absurd hm List.not_mem_nil⟩

theorem Holds.noting (hh : h.Holds given) (name : String) (now : Moment)
    {payload : List (String × Value)} (hkeys : (payload.map Prod.fst).Nodup)
    (hpayload : ∀ m ∈ payload, Storable m.2) :
    (h.noting name now (record payload)).Holds given := by
  obtain ⟨config, readable, nodup, length, keeps, events⟩ := hh
  exact ⟨config, readable, nodup, length, keeps, List.forall_mem_append.mpr
    ⟨events, List.forall_mem_singleton.mpr (storable_event name now hkeys hpayload)⟩⟩

theorem Holds.append (hh : h.Holds given) (hreadable : g.2.Readable)
    (hid : g.1 ∉ given.map Prod.fst) (hk : Keeps (before given given.length) given.length g s) :
    { h with snapshots := h.snapshots ++ [s] }.Holds (given ++ [g]) where
  config := hh.config
  readable := List.forall_mem_append.mpr ⟨hh.readable, List.forall_mem_singleton.mpr hreadable⟩
  nodup := by
    rw [List.map_append, List.map_singleton, ← List.concat_eq_append]
    exact hh.nodup.concat hid
  length := by simp [hh.length]
  keeps i g' s' hg' hs' := by
    obtain ⟨hi, -⟩ := List.getElem?_eq_some_iff.mp hg'
    rw [List.length_append, List.length_singleton] at hi
    rw [before_append (by omega)]
    by_cases hlast : i = given.length
    · subst hlast
      rw [List.getElem?_concat_length] at hg'
      rw [← hh.length, List.getElem?_concat_length] at hs'
      obtain rfl := Option.some.inj hg'
      obtain rfl := Option.some.inj hs'
      exact hk
    · have hlt : i < given.length := by omega
      rw [List.getElem?_append_left hlt] at hg'
      rw [List.getElem?_append_left (hh.length ▸ hlt)] at hs'
      exact hh.keeps i g' s' hg' hs'
  events := hh.events

theorem exists_author (hconfig : h.config = Config.defaults) (author : String) :
    ∃ a, h.author author = .ok a := by
  have hdefault : Config.option? Config.defaults "versioning" "default_author" =
      some (.text "system") := by decide +kernel
  rw [History.author, hconfig, hdefault]
  split
  · exact ⟨_, rfl⟩
  · exact ⟨_, rfl⟩

/-- The snapshot of a schema with a text, after an older schema. -/
def newest (h : History) (old : Option Schema) (id : String) (now : Moment) (schema : Schema)
    (json author note : String) : Snapshot where
  id := id
  sequence := h.length + 1
  schemaJson := json
  timestamp := now.isoText
  author := author
  schemaHash := textDigest json
  note := note
  changes := changesBetween old schema

/-- What the history notes of a snapshot that is taken. -/
def takenPayload (s : Snapshot) : List (String × Value) := [("version_id", .text s.id),
  ("sequence", .int s.sequence), ("schema_hash", .text s.schemaHash),
  ("changes", .int s.changes.length)]

theorem snapshot_eq {id author note a json : String} {now : Moment} {schema : Schema}
    (hprevious : h.previous = .ok old) (hjson : canonicalJson schema.toValue = .ok json)
    (hauthor : h.author author = .ok a) :
    h.snapshot id now schema author note =
      .ok ({ h with snapshots := h.snapshots ++ [h.newest old id now schema json a note] }.noting
        "snapshot_created" now (record (takenPayload (h.newest old id now schema json a note))),
        h.newest old id now schema json a note) := by
  rw [History.snapshot, hprevious, hjson]
  simp only [Except.mapError, ok_bind, hauthor]
  rfl

/-- **A snapshot of a readable schema that has a text is taken**, and it keeps the schema. -/
theorem Holds.snapshot (hh : h.Holds given) {id json : String} {schema : Schema}
    (hschema : schema.Readable) (hjson : canonicalJson schema.toValue = .ok json)
    (hid : id ∉ given.map Prod.fst) (now : Moment) (author note : String) : ∃ s e, s.id = id ∧
      h.snapshot id now schema author note =
        .ok ({ h with snapshots := h.snapshots ++ [s], events := h.events ++ [e] }, s) ∧
      { h with snapshots := h.snapshots ++ [s], events := h.events ++ [e] }.Holds
        (given ++ [(id, schema)]) := by
  obtain ⟨o, hprevious, hrel⟩ := hh.exists_previous
  obtain ⟨a, hauthor⟩ := exists_author hh.config author
  have hk : Keeps (before given given.length) given.length (id, schema)
      (h.newest o id now schema json a note) := by
    refine ⟨rfl, ?_, hjson, changesBetween_twin hrel (fun _ => hh.legible_before _) (.refl schema)
      (hschema.legible hjson)⟩
    rw [newest, History.length, hh.length]
  have hpayload : ∀ m ∈ takenPayload (h.newest o id now schema json a note), Storable m.2 := by
    simp only [takenPayload, List.forall_mem_cons]
    exact ⟨.text _, .int _, .text _, .int _, fun _ hm => absurd hm List.not_mem_nil⟩
  exact ⟨_, _, rfl, snapshot_eq hprevious hjson hauthor,
    (hh.append hschema hid hk).noting _ now (by simp [takenPayload]) hpayload⟩

theorem Holds.snapshot_error (hh : h.Holds given) {id : String} {schema : Schema}
    {cause : Unwritable} (hcause : canonicalJson schema.toValue = .error cause) (now : Moment)
    (author note : String) : h.snapshot id now schema author note = .error (.schema cause) := by
  obtain ⟨o, hprevious, -⟩ := hh.exists_previous
  rw [History.snapshot, hprevious, hcause]
  rfl

/-- **The schema of what is found is restored**, and the history notes it. -/
theorem Holds.rollback (hh : h.Holds given) {id : Value} (hget : h.get id = .ok s) (now : Moment) :
    ∃ e schema, s.schema = .ok schema ∧
      h.rollback id now = ({ h with events := h.events ++ [e] }, .ok schema) ∧
      { h with events := h.events ++ [e] }.Holds given := by
  obtain ⟨schema, hschema⟩ := hh.exists_schema (mem_of_get hget)
  let payload : List (String × Value) := [("version_id", .text s.id), ("sequence", .int s.sequence)]
  have hpayload : ∀ m ∈ payload, Storable m.2 := by
    simp only [payload, List.forall_mem_cons]
    exact ⟨.text _, .int _, fun _ hm => absurd hm List.not_mem_nil⟩
  refine ⟨event "rollback" now (record payload), schema, hschema, ?_,
    hh.noting _ now (by simp [payload]) hpayload⟩
  rw [History.rollback, hget]
  dsimp only
  rw [hschema]
  rfl

end History

end LiveForm
