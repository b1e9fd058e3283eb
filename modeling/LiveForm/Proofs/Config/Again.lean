import LiveForm.Session.Activation
import LiveForm.Proofs.Config.Layers

/-!
# Merging twice

What two mappings were merged to is settled: merging the override over it again, or it over the base
again, leaves it as it is, down to the order of the keys. So a configuration may be resolved as
often as one likes, and whoever is given the resolved one does what the overrides ask for.

* `put_of_find?`, `mergeEntries_eq_base`: a merge that finds its override in the base;
* `Repeats`, `repeats`: an override that is merged over what it left;
* **`Config.merge_settles`**: merges and resolved configurations are settled.
-/

namespace LiveForm

open Value

variable {key base override v : Value} {b o r : Entries}

/-! ## Nothing left to write -/

theorem put_of_find? (h : find? key b = some v) : put key v b = b := by
  induction b with
  | nil => cases h
  | cons e es ih =>
    rw [find?_cons] at h
    by_cases hek : alike e.1 key = true
    · rw [if_pos hek] at h
      simp [put, hek, ← Option.some.inj h]
    · rw [if_neg hek] at h
      simp [put, hek, ih h]

/-- **A merge that leaves its base**: each value of the override is merged to what is there. -/
theorem mergeEntries_eq_base
    (h : ∀ e ∈ o, ∃ v, find? e.1 b = some v ∧ mergeAt e.1 v e.2 = .ok v) :
    mergeEntries b o = .ok b := by
  induction o with
  | nil => rw [mergeEntries]
  | cons e o ih =>
    obtain ⟨⟨v, hfound, hmerge⟩, hrest⟩ := List.forall_mem_cons.mp h
    refine mergeEntries_cons_eq_ok.mpr ⟨v, ?_, ?_⟩
    · rw [hfound]
      exact hmerge
    · rw [put_of_find? hfound]
      exact ih hrest

/-! ## The override once more -/

/-- An override that changes nothing where it was merged already. -/
def Repeats (override : Value) : Prop := ∀ key base v : Value, base.wellKeyed = true →
  mergeAt key base override = .ok v → mergeAt key v override = .ok v

theorem mergeEntries_repeat_of (hb : (Value.map b).wellKeyed = true)
    (ho : (Value.map o).wellKeyed = true) (hvalues : ∀ e ∈ o, Repeats e.2)
    (h : mergeEntries b o = .ok r) : mergeEntries r o = .ok r := by
  obtain ⟨hokeys, hokeyed⟩ := wellKeyed_map.mp ho
  have hmerges := merges_of_mergeEntries (wellKeyed_map.mp hb).1 hokeys h
  apply mergeEntries_eq_base
  intro e he
  obtain ⟨merged, hfound, hat⟩ := hmerges.present e.1 e.2 (hokeys.find?_of_mem he)
  refine ⟨merged, hfound, ?_⟩
  cases hbase : find? e.1 b with
  | none =>
    -- The override came to nothing that was there, so now it meets itself.
    rw [hbase] at hat
    obtain rfl := Except.ok.inj hat
    exact mergeAt_self e.1 e.2 (hokeyed e he)
  | some base =>
    rw [hbase] at hat
    exact hvalues e he e.1 base merged (wellKeyed_of_find? hb hbase) hat

mutual

/-- **An override is merged again without effect.** -/
theorem repeats : (override : Value) → override.wellKeyed = true → Repeats override
  | .map o, ho => by
    intro key base v hb h
    rcases mergeAt_eq_ok.mp h with ⟨b, o', r, rfl, hoo', hr, rfl⟩ | ⟨-, -, rfl⟩
    · obtain rfl := Value.map.inj hoo'
      have hagain := mergeEntries_repeat_of hb ho (repeats_of_mem o (wellKeyed_map.mp ho).2) hr
      exact mergeAt_eq_ok.mpr (Or.inl ⟨r, o, r, rfl, rfl, hagain, rfl⟩)
    · exact mergeAt_self key _ ho
  | .null, ho | .bool _, ho | .int _, ho | .float _, ho | .text _, ho | .bytes _, ho | .date _, ho
  | .moment _, ho | .list _, ho | .tuple _, ho | .set _, ho => by
    intro key base v _ h
    rcases mergeAt_eq_ok.mp h with ⟨_, _, _, _, hmap, _⟩ | ⟨_, _, rfl⟩
    · cases hmap
    · exact mergeAt_self key _ ho

theorem repeats_of_mem : (o : List (Value × Value)) → (∀ e ∈ o, e.2.wellKeyed = true) →
    ∀ e ∈ o, Repeats e.2
  | [], _ => fun _ he => absurd he List.not_mem_nil
  | (_, v) :: es, h => by
    obtain ⟨hv, hes⟩ := List.forall_mem_cons.mp h
    exact List.forall_mem_cons.mpr ⟨repeats v hv, repeats_of_mem es hes⟩

end

theorem mergeEntries_repeat (hb : (Value.map b).wellKeyed = true)
    (ho : (Value.map o).wellKeyed = true) (h : mergeEntries b o = .ok r) :
    mergeEntries r o = .ok r :=
  mergeEntries_repeat_of hb ho (repeats_of_mem o (wellKeyed_map.mp ho).2) h

/-! ## Merges and resolved configurations -/

/-- **A merge is settled**: neither its override nor its base changes it any more. -/
theorem deepMerge_again (hb : (Value.map b).wellKeyed = true) (ho : (Value.map o).wellKeyed = true)
    (h : deepMerge (.map b) (.map o) = .ok v) :
    deepMerge v (.map o) = .ok v ∧ deepMerge (.map b) v = .ok v := by
  obtain ⟨b, o, r, hbmap, homap, hr, rfl⟩ := deepMerge_eq_ok.mp h
  obtain rfl := Value.map.inj hbmap
  obtain rfl := Value.map.inj homap
  exact ⟨deepMerge_eq_ok.mpr ⟨r, o, r, rfl, rfl, mergeEntries_repeat hb ho hr, rfl⟩,
    deepMerge_eq_ok.mpr ⟨b, r, r, rfl, rfl, mergeEntries_absorb hb ho hr, rfl⟩⟩

namespace Config

variable {overrides config : Value}

theorem reportFor_resolved (h : resolve overrides = .ok config)
    (hagain : resolve config = .ok config) (s : Schema) :
    s.reportFor config = s.reportFor overrides := by
  unfold Schema.reportFor
  rw [h, hagain]

theorem start_resolved (h : resolve overrides = .ok config)
    (hagain : resolve config = .ok config) (search : Pattern.Search) (journal : Journal)
    (s : Schema) (given : Entries) :
    Session.start search journal s given config =
      Session.start search journal s given overrides := by
  unfold Session.start
  rw [h, hagain]

/-- **Merges and resolved configurations are settled.** What two mappings were merged to takes the
override again, and is taken by the base again, without a change. A configuration that was resolved
resolves to itself, and reports and sessions come out with it as they do with its overrides. -/
theorem merge_settles :
    (∀ (b o : Entries) (v : Value), (Value.map b).wellKeyed = true →
      (Value.map o).wellKeyed = true → deepMerge (.map b) (.map o) = .ok v →
        deepMerge v (.map o) = .ok v ∧ deepMerge (.map b) v = .ok v) ∧
    ∀ overrides config : Value, overrides.wellKeyed = true → resolve overrides = .ok config →
      resolve config = .ok config ∧
      (∀ s : Schema, s.reportFor config = s.reportFor overrides) ∧
      ∀ (search : Pattern.Search) (journal : Journal) (s : Schema) (given : Entries),
        Session.start search journal s given config =
          Session.start search journal s given overrides := by
  refine ⟨fun b o v => deepMerge_again, ?_⟩
  intro overrides config hkeys h
  have hagain := resolve_resolve hkeys h
  exact ⟨hagain, reportFor_resolved h hagain, start_resolved h hagain⟩

/-- Overrides of other kinds than the defaults: nothing over a section, a section over nothing, a
list over a text, and a fraction over an integer. -/
def offbeatOverrides : Entries := fields [
  ("runtime", null),
  ("compute", record [("precision", record [("digits", int 2)])]),
  ("versioning", record [("default_author", list [text "ana", null])]),
  ("layout", record [("grid_columns", float (.ofDecimal false 75 (-1))), ("gap", null)])]

/-- What they resolve to. -/
def offbeatConfig : Value := record [
  ("runtime", null),
  ("compute", record [("concat_separator", text ""), ("precision", record [("digits", int 2)])]),
  ("activation", record [("block_on_errors", bool true)]),
  ("layout", record [("grid_columns", float (.ofDecimal false 75 (-1))), ("gap", null)]),
  ("versioning", record [("default_author", list [text "ana", null])])]

theorem offbeat_merge_settles :
    (∃ b, defaults = .map b ∧ deepMerge (.map b) (.map offbeatOverrides) = .ok offbeatConfig ∧
      deepMerge offbeatConfig (.map offbeatOverrides) = .ok offbeatConfig ∧
      deepMerge (.map b) offbeatConfig = .ok offbeatConfig) ∧
    resolve (.map offbeatOverrides) = .ok offbeatConfig ∧
    resolve offbeatConfig = .ok offbeatConfig := by
  have hkeys : (Value.map offbeatOverrides).wellKeyed = true := by decide +kernel
  have hresolve : resolve (.map offbeatOverrides) = .ok offbeatConfig :=
    eq_ok_of_toOption (by decide +kernel)
  have hmerge : deepMerge defaults (.map offbeatOverrides) = .ok offbeatConfig := hresolve
  exact ⟨⟨_, rfl, hmerge, merge_settles.1 _ _ _ wellKeyed_defaults hkeys hmerge⟩, hresolve,
    (merge_settles.2 _ _ hkeys hresolve).1⟩

end Config

end LiveForm
