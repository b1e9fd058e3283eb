import LiveForm.History.Archive
import LiveForm.Proofs.Files.Tree
import LiveForm.Proofs.History.Twin

/-!
# Saving and loading histories

A history that is saved is loaded from there as it was, but for the order of entries in the
documents of its changes and in its events: the canonical texts of its schemas are the same.

* `Change.ofValue_rearranged`, `Snapshot.ofValue_rearranged`: reading rearranged documents;
* `Snapshot.Sound`, `History.Sound`: what comes back from its text;
* `Snapshot.Twin`, `History.Twin`: the same up to the order of entries;
* **`History.load_save`**: a twin of a saved history is loaded;
* **`History.Twin.sameSnapshots`, `History.Twin.sameEvents`**: twins are equal.
-/

namespace LiveForm

open Value

variable {d : Value}

/-- What stands at a name is found there, unless it is null. -/
theorem Value.lookup?_of_lookup {v : Value} {key : String} (h : d.lookup key = v) (hv : v ≠ null) :
    d.lookup? key = some v := by
  rw [lookup] at h
  cases hfind : d.lookup? key with
  | none =>
    rw [hfind] at h
    exact absurd h.symm hv
  | some w =>
    rw [hfind] at h
    exact congrArg some h

theorem exists_mapM {α β γ ε : Type} {f : α → Except ε β} {R : γ → α → Prop} {S : γ → β → Prop}
    {cs : List γ} {as : List α} (h : List.Forall₂ R cs as)
    (hread : ∀ c ∈ cs, ∀ a, R c a → ∃ b, f a = .ok b ∧ S c b) :
    ∃ bs, as.mapM f = .ok bs ∧ List.Forall₂ S cs bs := by
  induction h with
  | nil => exact ⟨[], rfl, .nil⟩
  | @cons c a cs as hca _ ih =>
    obtain ⟨hc, hcs⟩ := List.forall_mem_cons.mp hread
    obtain ⟨b, hb, hcb⟩ := hc a hca
    obtain ⟨bs, hbs, hcbs⟩ := ih hcs
    exact ⟨b :: bs, by rw [List.mapM_cons, hb, hbs]; rfl, .cons hcb hcbs⟩

namespace History

theorem required_eq {key : String} {v : Value} (hmap : ∃ es, d = .map es)
    (h : d.lookup key = v) (hv : v ≠ null) : required d key = .ok v := by
  obtain ⟨es, rfl⟩ := hmap
  rw [required, lookup?_of_lookup h hv]

theorem textOf_text (s : String) : textOf (.text s) = .ok s := rfl

theorem textOr_eq {key s : String} (h : d.lookup key = .text s) : textOr d key = .ok s := by
  rw [textOr, lookup?_of_lookup h nofun]
  rfl

theorem listedOr_list (items : List Value) : listedOr (list items) = .ok items := by
  cases items <;> rfl

end History

theorem ChangeKind.named_name (k : ChangeKind) :
    History.named ChangeKind.all ChangeKind.name (text k.name) = .ok k := by
  cases k <;> simp [History.named, all, name, equiv, scalarEquiv]

theorem Part.named_name (part : Part) :
    History.named Part.all Part.name (text part.name) = .ok part := by
  cases part <;> simp [History.named, all, name, equiv, scalarEquiv]

/-! ## Changes -/

theorem Change.Sound.legible {c : Change} (h : c.Sound) : Legible c.toValue := by
  have hdetails : Legible (.map c.details) := by
    rcases h.details with hnil | ⟨attributes, hcons⟩
    · rw [hnil]
      exact @legible_record [] List.nodup_nil (fun _ hm => absurd hm List.not_mem_nil)
    · rw [hcons]
      exact @legible_record [("attributes", texts attributes)] (List.nodup_singleton _)
        (List.forall_mem_singleton.mpr (legible_texts attributes))
  refine legible_record (by simp) ?_
  simp only [List.forall_mem_cons]
  exact ⟨legible_text _, legible_text _, legible_text _, hdetails, h.before, h.after,
    fun _ hm => absurd hm List.not_mem_nil⟩

/-- **A change is read of its rearranged document**, up to the order of entries. -/
theorem Change.ofValue_rearranged {c : Change} (hc : c.Sound) (h : Rearranged c.toValue d) :
    ∃ c', ofValue d = .ok c' ∧ c.Twin c' := by
  have hs := hc.legible.storable
  have hmap : ∃ es, d = .map es := h.exists_map
  have hkind : d.lookup "kind" = text c.kind.name :=
    lookup_eq_of_rigid h hs (by simp [toValue, lookup_record_cons]) (rigid_text _)
  have hpart : d.lookup "target" = text c.part.name :=
    lookup_eq_of_rigid h hs (by simp [toValue, lookup_record_cons]) (rigid_text _)
  have hid : d.lookup "target_id" = text c.id :=
    lookup_eq_of_rigid h hs (by simp [toValue, lookup_record_cons]) (rigid_text _)
  have hrigid : Rigid (.map c.details) := by
    rcases hc.details with hnil | ⟨attributes, hcons⟩
    · rw [hnil]
      exact rigid_nil
    · rw [hcons]
      exact rigid_singleton (rigid_texts attributes)
  have hdetails : d.lookup "details" = .map c.details :=
    lookup_eq_of_rigid h hs (by simp [toValue, lookup_record_cons]) hrigid
  obtain ⟨hbefore, -⟩ := @lookup_of_rearranged _ _ c.before h hs "before"
    (by simp [toValue, lookup_record_cons])
  obtain ⟨hafter, -⟩ := @lookup_of_rearranged _ _ c.after h hs "after"
    (by simp [toValue, lookup_record_cons])
  refine ⟨{ c with before := d.lookup "before", after := d.lookup "after" }, ?_, hbefore, hafter,
    rfl⟩
  rw [ofValue, History.required_eq hmap hkind nofun, History.required_eq hmap hpart nofun]
  simp only [ok_bind, ChangeKind.named_name, Part.named_name, hdetails, History.textOr_eq hid]
  generalize c.details = details
  cases details <;> rfl

/-! ## Snapshots -/

/-- **What a snapshot holds comes back from its text.** -/
structure Snapshot.Sound (s : Snapshot) : Prop where
  schema : ∃ es, Legible (.map es) ∧ canonicalJson (.map es) = .ok s.schemaJson
  changes : ∀ c ∈ s.changes, c.Sound

/-- **Two snapshots are the same up to the order of entries** in the documents of their changes. -/
structure Snapshot.Twin (s s' : Snapshot) : Prop where
  changes : List.Forall₂ Change.Twin s.changes s'.changes
  rest : { s' with changes := s.changes } = s

namespace Snapshot

variable {s s' : Snapshot}

theorem rearranged_schemaValue {v : Value} (hv : Legible v)
    (h : canonicalJson v = .ok s.schemaJson) : Rearranged v s.schemaValue := by
  obtain ⟨t, w, ht, hw, hrearranged⟩ := hv.canonical
  obtain rfl := Except.ok.inj (ht.symm.trans h)
  rwa [schemaValue, hw]

theorem Sound.legible_schemaValue (h : s.Sound) : Legible s.schemaValue ∧
    s.schemaValue.kind = .map ∧ canonicalJson s.schemaValue = .ok s.schemaJson := by
  obtain ⟨es, hes, hjson⟩ := h.schema
  have hrearranged := rearranged_schemaValue hes hjson
  exact ⟨hes.rearranged hrearranged, hrearranged.kind_eq,
    (canonicalJson_eq_of_rearranged hrearranged hes).trans hjson⟩

theorem Sound.storable (h : s.Sound) : Storable s.toValue := by
  have hchanges : Storable (list (s.changes.map Change.toValue)) :=
    .list (List.forall_mem_map.mpr fun c hc => (h.changes c hc).legible.storable)
  refine storable_record (by simp) ?_
  simp only [List.forall_mem_cons]
  exact ⟨.text _, .int _, h.legible_schemaValue.1.storable, .text _, .text _, .text _, .text _,
    hchanges, fun _ hm => absurd hm List.not_mem_nil⟩

/-- **A snapshot is read of its rearranged document**, up to the order of entries. -/
theorem ofValue_rearranged (h : s.Sound) (hd : Rearranged s.toValue d) :
    ∃ s', ofValue d = .ok s' ∧ s.Twin s' := by
  have hs := h.storable
  have hmap : ∃ es, d = .map es := hd.exists_map
  have hid : d.lookup "id" = text s.id :=
    lookup_eq_of_rigid hd hs (by simp [toValue, lookup_record_cons]) (rigid_text _)
  have hsequence : d.lookup "sequence" = int s.sequence :=
    lookup_eq_of_rigid hd hs (by simp [toValue, lookup_record_cons]) (rigid_int _)
  have htimestamp : d.lookup "timestamp" = text s.timestamp :=
    lookup_eq_of_rigid hd hs (by simp [toValue, lookup_record_cons]) (rigid_text _)
  have hauthor : d.lookup "author" = text s.author :=
    lookup_eq_of_rigid hd hs (by simp [toValue, lookup_record_cons]) (rigid_text _)
  have hnote : d.lookup "note" = text s.note :=
    lookup_eq_of_rigid hd hs (by simp [toValue, lookup_record_cons]) (rigid_text _)
  have hhash : d.lookup "schema_hash" = text s.schemaHash :=
    lookup_eq_of_rigid hd hs (by simp [toValue, lookup_record_cons]) (rigid_text _)
  obtain ⟨hschema, -⟩ := @lookup_of_rearranged _ _ s.schemaValue hd hs "schema"
    (by simp [toValue, lookup_record_cons])
  obtain ⟨items, hitems, hdocs, -⟩ := @lookup_list_of_rearranged _ _ hd hs "changes"
    (s.changes.map Change.toValue) (by simp [toValue, lookup_record_cons])
  obtain ⟨changes, hchanges, htwins⟩ := @exists_mapM _ _ _ _ Change.ofValue
    (fun c v => Rearranged c.toValue v) Change.Twin s.changes items
    (List.forall₂_map_left_iff.mp hdocs)
    fun c hc v hv => Change.ofValue_rearranged (h.changes c hc) hv
  -- The schema is written again, with the same text.
  have hjson : canonicalJson (d.lookup "schema") = .ok s.schemaJson :=
    (canonicalJson_eq_of_rearranged hschema h.legible_schemaValue.1).trans
      h.legible_schemaValue.2.2
  have hnotNull : d.lookup "schema" ≠ null := by
    intro hnull
    have hkind := hschema.kind_eq.trans h.legible_schemaValue.2.1
    rw [hnull] at hkind
    cases hkind
  refine ⟨{ s with changes }, ?_, htwins, rfl⟩
  rw [ofValue, History.required_eq hmap hid nofun, History.required_eq hmap hsequence nofun,
    History.required_eq hmap rfl hnotNull, History.required_eq hmap htimestamp nofun,
    History.required_eq hmap hhash nofun]
  simp only [ok_bind, toInteger, Except.mapError, hnote, hitems, History.listedOr_list, hchanges,
    hjson, History.textOr_eq hauthor, History.textOf_text]
  split_ifs with hempty
  · rfl
  · have hnil : s.note = "" := not_not.mp fun hne => hempty (decide_eq_true hne)
    rw [hnil]

/-- **Twins are equal as snapshots.** -/
theorem Twin.equiv (htwin : s.Twin s') (h : s.Sound) : s.equiv s' = true := by
  have hchanges : listEquiv Change.equiv s.changes s'.changes = true :=
    listEquiv_of_forall₂ (fun hc => hc.2.equiv hc.1)
      ((List.forall₂_and_left _ _).mpr ⟨h.changes, htwin.changes⟩)
  have hrest := htwin.rest
  clear h htwin
  cases s
  cases hrest
  simp [Snapshot.equiv, hchanges]

end Snapshot

/-! ## Histories -/

namespace History

variable {h h' : History}

/-- **What a history holds comes back from its text**, numbers of snapshots and of changes aside. -/
structure Sound (h : History) : Prop where
  snapshots : ∀ s ∈ h.snapshots, s.Sound
  events : ∀ e ∈ h.events, Storable (.map e)

/-- **Two histories are the same up to the order of entries** in documents of changes and in
events. -/
structure Twin (h h' : History) : Prop where
  config : h'.config = h.config
  snapshots : List.Forall₂ Snapshot.Twin h.snapshots h'.snapshots
  events : List.Forall₂ (fun e e' => Rearranged (.map e) (.map e')) h.events h'.events

theorem Sound.storable (hs : h.Sound) : Storable h.toValue := by
  have hsnapshots : Storable (list (h.snapshots.map Snapshot.toValue)) :=
    .list (List.forall_mem_map.mpr fun s hmem => (hs.snapshots s hmem).storable)
  have hevents : Storable (list (h.events.map Value.map)) :=
    .list (List.forall_mem_map.mpr hs.events)
  refine storable_record (by simp) ?_
  simp only [List.forall_mem_cons]
  exact ⟨.text _, hsnapshots, hevents, fun _ hm => absurd hm List.not_mem_nil⟩

/-- **A history is read of its rearranged document**, up to the order of entries. -/
theorem ofValue_rearranged (hs : h.Sound) {d : Value} (hd : Rearranged h.toValue d)
    {h₀ : History} (hconfig : h₀.config = h.config) :
    ∃ h', ofValue h₀ d = .ok h' ∧ h.Twin h' := by
  obtain ⟨items, hitems, hdocs, -⟩ := @lookup_list_of_rearranged _ _ hd hs.storable
    "snapshots" (h.snapshots.map Snapshot.toValue) (by simp [toValue, lookup_record_cons])
  obtain ⟨notes, hnotes, heventDocs, -⟩ := @lookup_list_of_rearranged _ _ hd hs.storable
    "events" (h.events.map Value.map) (by simp [toValue, lookup_record_cons])
  obtain ⟨snapshots, hsnapshots, htwins⟩ := @exists_mapM _ _ _ _ Snapshot.ofValue
    (fun s v => Rearranged s.toValue v) Snapshot.Twin h.snapshots items
    (List.forall₂_map_left_iff.mp hdocs) fun s hmem v hv =>
      Snapshot.ofValue_rearranged (hs.snapshots s hmem) hv
  obtain ⟨events, hevents, hrearranged⟩ := @exists_mapM _ _ _ _ entriesOf
    (fun e v => Rearranged (.map e) v) (fun e e' => Rearranged (.map e) (.map e')) h.events notes
    (List.forall₂_map_left_iff.mp heventDocs) fun e _ v hv => by
      obtain ⟨e', rfl⟩ := hv.exists_map
      exact ⟨e', rfl, hv⟩
  refine ⟨{ h₀ with snapshots, events }, ?_, hconfig, htwins, hrearranged⟩
  rw [ofValue, hitems, hnotes]
  simp only [ok_bind, listedOr_list, hsnapshots, hevents]

/-- A history has a text unless a number is too long. -/
theorem Sound.text_eq (hs : h.Sound) : h.text =
    if h.toValue.longest ≤ digitLimit then .ok (Json.tree true h.toValue).indented
    else .error .digits := by
  rw [History.text, Json.ofValue_eq true _ hs.storable.isNative]
  split_ifs <;> rfl

theorem Sound.readText_of_save {fs fs' : Files} {p : Path} {text : String} (hs : h.Sound)
    (hsave : save fs h p = (fs', .ok text)) : h.toValue.longest ≤ digitLimit ∧
      fs'.readText p = .ok (Json.tree true h.toValue).indented := by
  unfold save at hsave
  rw [hs.text_eq] at hsave
  split at hsave
  · cases hsave
  · split_ifs at hsave with hle
    · dsimp only at hsave
      split at hsave
      · next hwrite =>
        obtain ⟨rfl, -⟩ := Prod.mk.inj hsave
        exact ⟨hle, (Files.readText_writeText hwrite).2⟩
      · cases hsave
    · cases hsave

theorem Sound.exists_of_save_error {fs fs' : Files} {p : Path} {cause : SaveError} (hs : h.Sound)
    (hsave : save fs h p = (fs', .error cause)) :
    (∃ e, cause = .file e) ∨ cause = .value .digits ∧ digitLimit < h.toValue.longest := by
  unfold save at hsave
  rw [hs.text_eq] at hsave
  split at hsave
  · next e _ => exact Or.inl ⟨e, (Except.error.inj (Prod.mk.inj hsave).2).symm⟩
  · split_ifs at hsave with hle
    · dsimp only at hsave
      split at hsave
      · cases hsave
      · next e _ => exact Or.inl ⟨e, (Except.error.inj (Prod.mk.inj hsave).2).symm⟩
    · exact Or.inr ⟨(Except.error.inj (Prod.mk.inj hsave).2).symm, Nat.not_le.mp hle⟩

/-- **What was saved is loaded**, up to the order of entries. -/
theorem load_save {fs fs' : Files} {p : Path} {text : String} {overrides : Value} {h₀ : History}
    (hs : h.Sound) (hsave : save fs h p = (fs', .ok text)) (hempty : empty overrides = .ok h₀)
    (hconfig : h₀.config = h.config) : ∃ h', load fs' p overrides = .ok h' ∧ h.Twin h' := by
  obtain ⟨hle, hfile⟩ := hs.readText_of_save hsave
  obtain ⟨d, -, hread, hd⟩ := (Legible.mk hs.storable hle).indented
  obtain ⟨h', hload, htwin⟩ := ofValue_rearranged hs hd hconfig
  obtain ⟨es, rfl⟩ := hd.exists_map
  refine ⟨h', ?_, htwin⟩
  rw [load, hfile, hempty]
  simp only [Except.mapError, ok_bind, hread, hload]

/-! ## Equality -/

/-- **Twins have equal snapshots.** -/
theorem Twin.sameSnapshots (htwin : h.Twin h') (hs : ∀ s ∈ h.snapshots, s.Sound) :
    h.sameSnapshots h' = true :=
  listEquiv_of_forall₂ (fun hpair => hpair.2.equiv hpair.1)
    ((List.forall₂_and_left _ _).mpr ⟨hs, htwin.snapshots⟩)

/-- **Twins have equal events.** -/
theorem Twin.sameEvents (htwin : h.Twin h') (hs : ∀ e ∈ h.events, Storable (.map e)) :
    h.sameEvents h' = true := by
  have hrearranged : Rearranged (list (h.events.map .map)) (list (h'.events.map .map)) := by
    rw [rearranged_list_iff, List.forall₂_map_left_iff, List.forall₂_map_right_iff]
    exact htwin.events
  exact hrearranged.equiv (.list (List.forall_mem_map.mpr hs))

end History

end LiveForm
