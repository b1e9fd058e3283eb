import LiveForm.Config.Basic
import LiveForm.Proofs.Value.Entries

/-!
# Merging key by key

What a merge leaves at a key follows from what base and override have there. It keeps the keys of
the base where they are, and adds the others in the order of the override.

* `mergedAt`: the merge of what is found at a key, where the base may have nothing;
* `Merges`: what a merge of entries leaves, key by key;
* **`merges_of_mergeEntries`, `exists_mergeEntries_iff`**: when there is a merge, and what it is;
* **`mergeEntries_absorb`**: a base merged with what it was merged to already stays as it is;
* `Config.resolve_resolve`: a resolved configuration resolves to itself.
-/

namespace LiveForm

open Value

variable {key k base override v : Value} {b o r : Entries} {e : Value × Value}

/-- **The merge of two values.** Two mappings are merged entry by entry; else the override takes the
place of the base, if it may. The key is only named in a conflict. -/
theorem mergeAt_eq_ok : mergeAt key base override = .ok v ↔
    (∃ b o r, base = .map b ∧ override = .map o ∧ mergeEntries b o = .ok r ∧ v = .map r) ∨
      ¬ (base.kind = .map ∧ override.kind = .map) ∧ replaceable base override = true ∧
        v = override := by
  have hreplace : ∀ e : MergeConflict,
      (if replaceable base override then .ok override else .error e) = Except.ok v ↔
        replaceable base override = true ∧ v = override := by
    intro e
    split
    · next h =>
      rw [h, Except.ok.injEq]
      exact ⟨fun he => ⟨rfl, he.symm⟩, fun he => he.2.symm⟩
    · next h => simp [h]
  cases override with
  | map o =>
    cases base with
    | map b =>
      cases hr : mergeEntries b o with
      | error e => simp [mergeAt, hr, Except.map, kind]
      | ok r =>
        have hmerge : mergeAt key (.map b) (.map o) = .ok (.map r) := by
          simp [mergeAt, hr, Except.map]
        simp only [hmerge, Except.ok.injEq, Value.map.injEq, kind]
        grind
    | _ => simpa [mergeAt, kind] using hreplace _
  | _ => simpa [mergeAt, kind] using hreplace _

/-- The merge of what is found at a key. An override without base is taken as it is. -/
def mergedAt (key : Value) (base : Option Value) (override : Value) : Except MergeConflict Value :=
  match base with
  | none => .ok override
  | some base => mergeAt key base override

theorem mergedAt_of_key {base : Option Value} (k : Value) (h : mergedAt key base override = .ok v) :
    mergedAt k base override = .ok v := by
  cases base with
  | none => exact h
  | some base => exact mergeAt_eq_ok.mpr (mergeAt_eq_ok.mp h)

theorem mergeEntries_cons (b : Entries) (e : Value × Value) (o : Entries) :
    mergeEntries b (e :: o) = (mergedAt e.1 (find? e.1 b) e.2).bind fun merged =>
      mergeEntries (put e.1 merged b) o := by
  rw [mergeEntries]
  cases find? e.1 b <;> rfl

theorem mergeEntries_cons_eq_ok : mergeEntries b (e :: o) = .ok r ↔
    ∃ merged, mergedAt e.1 (find? e.1 b) e.2 = .ok merged ∧
      mergeEntries (put e.1 merged b) o = .ok r := by
  rw [mergeEntries_cons]
  cases mergedAt e.1 (find? e.1 b) e.2 <;> simp [Except.bind]

/-! ## What a merge leaves -/

/-- **What a merge of entries leaves**, key by key. -/
structure Merges (b o r : Entries) : Prop where
  keyed : Keyed r
  keys : r.map Prod.fst = b.map Prod.fst ++
    (o.filter fun e => (find? e.1 b).isNone).map Prod.fst
  absent : ∀ k, find? k o = none → find? k r = find? k b
  present : ∀ k override, find? k o = some override →
    ∃ merged, find? k r = some merged ∧ mergedAt k (find? k b) override = .ok merged

theorem find?_put_of_keyed (hb : Keyed b) (ho : Keyed (e :: o)) {f : Value × Value} (hf : f ∈ o)
    (v : Value) : find? f.1 (put e.1 v b) = find? f.1 b := by
  obtain ⟨hkey, hnew, -⟩ := Keyed.cons_iff.mp ho
  rw [find?_put hb.isKey hkey, hnew f hf, if_neg Bool.false_ne_true]

theorem find?_eq_none_of_alike (ho : Keyed (e :: o)) (hk : alike e.1 k = true) :
    find? k o = none := by
  obtain ⟨-, hnew, ho⟩ := Keyed.cons_iff.mp ho
  refine find?_eq_none.mpr fun f hf => Bool.eq_false_iff.mpr fun hfk => ?_
  have hsame := alike_trans hk (alike_symm (ho.isKey f hf) hfk)
  rw [hnew f hf] at hsame
  cases hsame

/-- **A merge of entries leaves what it should.** -/
theorem merges_of_mergeEntries (hb : Keyed b) (ho : Keyed o) (h : mergeEntries b o = .ok r) :
    Merges b o r := by
  induction o generalizing b with
  | nil =>
    rw [mergeEntries] at h
    obtain rfl := Except.ok.inj h
    exact ⟨hb, (List.append_nil _).symm, fun _ _ => rfl, fun _ _ h => nomatch h⟩
  | cons e o ih =>
    obtain ⟨merged, hmerged, hrest⟩ := mergeEntries_cons_eq_ok.mp h
    obtain ⟨hkey, -, ho'⟩ := Keyed.cons_iff.mp ho
    obtain ⟨hkeyed, hkeys, habsent, hpresent⟩ := ih (hb.put hkey merged) ho' hrest
    refine ⟨hkeyed, ?_, ?_, ?_⟩
    · have hfilter : (o.filter fun f => (find? f.1 (put e.1 merged b)).isNone) =
          o.filter fun f => (find? f.1 b).isNone :=
        List.filter_congr fun f hf => by rw [find?_put_of_keyed hb ho hf]
      rw [hkeys, hfilter, keys_put, List.append_assoc, List.filter_cons]
      cases find? e.1 b <;> rfl
    · intro k hk
      rw [find?_cons] at hk
      split at hk
      · cases hk
      · next hek => rw [habsent k hk, find?_put hb.isKey hkey, if_neg hek]
    · intro k override hk
      rw [find?_cons] at hk
      split at hk
      · next hek =>
        obtain rfl := Option.some.inj hk
        refine ⟨merged, ?_, ?_⟩
        · rw [habsent k (find?_eq_none_of_alike ho hek), find?_put hb.isKey hkey, if_pos hek]
        · rw [find?_congr hkey hek]
          exact mergedAt_of_key k hmerged
      · next hek =>
        obtain ⟨merged', hfound, hmerged'⟩ := hpresent k override hk
        rw [find?_put hb.isKey hkey, if_neg hek] at hmerged'
        exact ⟨merged', hfound, hmerged'⟩

/-- **There is a merge** when there is one at every key of the override. -/
theorem exists_mergeEntries_iff (hb : Keyed b) (ho : Keyed o) :
    (∃ r, mergeEntries b o = .ok r) ↔
      ∀ e ∈ o, ∃ merged, mergedAt e.1 (find? e.1 b) e.2 = .ok merged := by
  induction o generalizing b with
  | nil => simp [mergeEntries]
  | cons e o ih =>
    obtain ⟨hkey, -, ho'⟩ := Keyed.cons_iff.mp ho
    have hlater : ∀ merged,
        (∀ f ∈ o, ∃ m, mergedAt f.1 (find? f.1 (put e.1 merged b)) f.2 = .ok m) ↔
        ∀ f ∈ o, ∃ m, mergedAt f.1 (find? f.1 b) f.2 = .ok m := fun merged =>
      forall₂_congr fun f hf => by rw [find?_put_of_keyed hb ho hf]
    rw [List.forall_mem_cons]
    constructor
    · rintro ⟨r, hr⟩
      obtain ⟨merged, hmerged, hrest⟩ := mergeEntries_cons_eq_ok.mp hr
      exact ⟨⟨merged, hmerged⟩, (hlater merged).mp ((ih (hb.put hkey merged) ho').mp ⟨r, hrest⟩)⟩
    · rintro ⟨⟨merged, hmerged⟩, hrest⟩
      obtain ⟨r, hr⟩ := (ih (hb.put hkey merged) ho').mpr ((hlater merged).mpr hrest)
      exact ⟨r, mergeEntries_cons_eq_ok.mpr ⟨merged, hmerged, hr⟩⟩

/-! ## Merging again -/

/-- **A merge that changes nothing**: the override has the keys of a merge, and stays at each. -/
theorem mergeEntries_eq_self (hb : Keyed b) (hr : Keyed r)
    (hkeys : r.map Prod.fst = b.map Prod.fst ++
      (r.filter fun e => (find? e.1 b).isNone).map Prod.fst)
    (hstay : ∀ e ∈ r, mergedAt e.1 (find? e.1 b) e.2 = .ok e.2) : mergeEntries b r = .ok r := by
  obtain ⟨r', hr'⟩ := (exists_mergeEntries_iff hb hr).mpr fun e he => ⟨e.2, hstay e he⟩
  have hmerges := merges_of_mergeEntries hb hr hr'
  have heq : r' = r := hr.ext hmerges.keyed (hmerges.keys.trans hkeys.symm) fun e he => by
    have hfound := hr.find?_of_mem he
    obtain ⟨merged, hmerged, hat⟩ := hmerges.present e.1 e.2 hfound
    rw [hmerged, hfound, Except.ok.inj (hat.symm.trans (hstay e he))]
  rw [hr', heq]

theorem filter_isNone_self (b : Entries) :
    (b.filter fun e => (find? e.1 b).isNone) = [] := by
  refine List.filter_eq_nil_iff.mpr fun e he hnone => ?_
  have hnew := find?_eq_none.mp (Option.isNone_iff_eq_none.mp hnone) e he
  rw [alike_refl] at hnew
  cases hnew

theorem replaceable_self (v : Value) : replaceable v v = true := by
  simp [replaceable]

mutual

theorem mergeAt_self (key : Value) : (v : Value) → v.wellKeyed = true → mergeAt key v v = .ok v
  | .map b, h => by
    obtain ⟨hb, hvalues⟩ := wellKeyed_map.mp h
    refine mergeAt_eq_ok.mpr (Or.inl ⟨b, b, b, rfl, rfl, ?_, rfl⟩)
    refine mergeEntries_eq_self hb hb (by rw [filter_isNone_self]; simp) fun e he => ?_
    rw [hb.find?_of_mem he]
    exact mergeAt_self_of_mem e.1 b hvalues e he
  | .null, _ | .bool _, _ | .int _, _ | .float _, _ | .text _, _ | .bytes _, _ | .date _, _
  | .moment _, _ | .list _, _ | .tuple _, _ | .set _, _ =>
    mergeAt_eq_ok.mpr (Or.inr ⟨by simp [kind], replaceable_self _, rfl⟩)

theorem mergeAt_self_of_mem (key : Value) : (b : List (Value × Value)) →
    (∀ e ∈ b, e.2.wellKeyed = true) → ∀ e ∈ b, mergeAt key e.2 e.2 = .ok e.2
  | [], _ => fun _ he => absurd he List.not_mem_nil
  | (_, v) :: es, h => by
    obtain ⟨hv, hes⟩ := List.forall_mem_cons.mp h
    exact List.forall_mem_cons.mpr ⟨mergeAt_self key v hv, mergeAt_self_of_mem key es hes⟩

end

theorem Merges.keys_again (h : Merges b o r) : r.map Prod.fst = b.map Prod.fst ++
    (r.filter fun e => (find? e.1 b).isNone).map Prod.fst := by
  obtain ⟨old, new, rfl, hold, hnew⟩ := List.map_eq_append_iff.mp h.keys
  have hdrop : (old.filter fun e => (find? e.1 b).isNone) = [] := by
    refine List.filter_eq_nil_iff.mpr fun e he hnone => ?_
    obtain ⟨f, hf, hkey⟩ := List.mem_map.mp (hold ▸ List.mem_map_of_mem (f := Prod.fst) he)
    have hother := find?_eq_none.mp (Option.isNone_iff_eq_none.mp hnone) f hf
    rw [hkey, alike_refl] at hother
    cases hother
  have hkeep : (new.filter fun e => (find? e.1 b).isNone) = new := by
    refine List.filter_eq_self.mpr fun e he => ?_
    obtain ⟨f, hf, hkey⟩ := List.mem_map.mp (hnew ▸ List.mem_map_of_mem (f := Prod.fst) he)
    rw [← hkey]
    exact (List.mem_filter.mp hf).2
  rw [List.filter_append, hdrop, hkeep, List.nil_append, List.map_append, hold]

/-- An override under which values were merged comes again to nothing new. -/
def Absorbs (override : Value) : Prop := ∀ key base v : Value, base.wellKeyed = true →
  mergeAt key base override = .ok v → mergeAt key base v = .ok v

theorem Merges.stays (h : Merges b o r) (hb : ∀ e ∈ b, e.2.wellKeyed = true)
    (ho : ∀ e ∈ o, Absorbs e.2) : ∀ e ∈ r, mergedAt e.1 (find? e.1 b) e.2 = .ok e.2 := by
  intro e he
  have hfound := h.keyed.find?_of_mem he
  cases hoverride : find? e.1 o with
  | none =>
    rw [h.absent e.1 hoverride] at hfound
    obtain ⟨k, hmem, -⟩ := exists_mem_of_find? hfound
    have hkeyed := hb _ hmem
    rw [hfound]
    exact mergeAt_self e.1 e.2 hkeyed
  | some override =>
    obtain ⟨merged, hmerged, hat⟩ := h.present e.1 override hoverride
    obtain rfl := Option.some.inj (hfound.symm.trans hmerged)
    obtain ⟨k, hmem, -⟩ := exists_mem_of_find? hoverride
    cases hbase : find? e.1 b with
    | none => rfl
    | some base =>
      rw [hbase] at hat
      obtain ⟨k', hmem', -⟩ := exists_mem_of_find? hbase
      exact ho _ hmem _ _ _ (hb _ hmem') hat

theorem mergeEntries_absorb_of (hb : Keyed b) (ho : Keyed o)
    (hbvalues : ∀ e ∈ b, e.2.wellKeyed = true) (hovalues : ∀ e ∈ o, Absorbs e.2)
    (h : mergeEntries b o = .ok r) : mergeEntries b r = .ok r := by
  have hmerges := merges_of_mergeEntries hb ho h
  exact mergeEntries_eq_self hb hmerges.keyed hmerges.keys_again
    (hmerges.stays hbvalues hovalues)

mutual

/-- **A base merged with what it was merged to stays as that is.** -/
theorem absorbs : (override : Value) → override.wellKeyed = true → Absorbs override
  | .map o, ho => by
    intro key base v hb h
    obtain ⟨hkeyed, hvalues⟩ := wellKeyed_map.mp ho
    rcases mergeAt_eq_ok.mp h with ⟨b, o', r, rfl, hoo', hr, rfl⟩ | ⟨-, -, rfl⟩
    · obtain rfl := Value.map.inj hoo'
      obtain ⟨hbkeyed, hbvalues⟩ := wellKeyed_map.mp hb
      exact mergeAt_eq_ok.mpr (Or.inl ⟨b, r, r, rfl, rfl,
        mergeEntries_absorb_of hbkeyed hkeyed hbvalues (absorbs_of_mem o hvalues) hr, rfl⟩)
    · exact h
  | .null, _ | .bool _, _ | .int _, _ | .float _, _ | .text _, _ | .bytes _, _ | .date _, _
  | .moment _, _ | .list _, _ | .tuple _, _ | .set _, _ => by
    intro key base v _ h
    rcases mergeAt_eq_ok.mp h with ⟨_, _, _, _, hmap, _⟩ | ⟨_, _, rfl⟩
    · cases hmap
    · exact h

theorem absorbs_of_mem : (o : List (Value × Value)) → (∀ e ∈ o, e.2.wellKeyed = true) →
    ∀ e ∈ o, Absorbs e.2
  | [], _ => fun _ he => absurd he List.not_mem_nil
  | (_, v) :: es, h => by
    obtain ⟨hv, hes⟩ := List.forall_mem_cons.mp h
    exact List.forall_mem_cons.mpr ⟨absorbs v hv, absorbs_of_mem es hes⟩

end

theorem mergeEntries_absorb (hb : (Value.map b).wellKeyed = true)
    (ho : (Value.map o).wellKeyed = true) (h : mergeEntries b o = .ok r) :
    mergeEntries b r = .ok r := by
  obtain ⟨hbkeyed, hbvalues⟩ := wellKeyed_map.mp hb
  obtain ⟨hokeyed, hovalues⟩ := wellKeyed_map.mp ho
  exact mergeEntries_absorb_of hbkeyed hokeyed hbvalues (absorbs_of_mem o hovalues) h

/-! ## Resolving -/

namespace Config

theorem wellKeyed_defaults : defaults.wellKeyed = true := by decide +kernel

/-- A configuration is resolved by a merge; without overrides nothing is merged in. -/
theorem exists_merge_of_resolve {overrides config : Value} (hkeys : overrides.wellKeyed = true)
    (h : resolve overrides = .ok config) : ∃ b o r, defaults = .map b ∧
      (Value.map o).wellKeyed = true ∧ mergeEntries b o = .ok r ∧ config = .map r := by
  obtain ⟨b, hb⟩ : ∃ b, defaults = .map b := ⟨_, rfl⟩
  rw [resolve, hb] at h
  split at h
  · cases overrides with
    | map o =>
      rw [deepMerge] at h
      cases hr : mergeEntries b o with
      | error e =>
        rw [hr] at h
        cases h
      | ok r =>
        rw [hr] at h
        exact ⟨b, o, r, hb, hkeys, hr, (Except.ok.inj h).symm⟩
    | _ => cases h
  · exact ⟨b, [], b, hb, rfl, by rw [mergeEntries], (Except.ok.inj h).symm⟩

/-- **A resolved configuration resolves to itself.** -/
theorem resolve_resolve {overrides config : Value} (hkeys : overrides.wellKeyed = true)
    (h : resolve overrides = .ok config) : resolve config = .ok config := by
  obtain ⟨b, o, r, hb, ho, hr, rfl⟩ := exists_merge_of_resolve hkeys h
  have hbkeys := wellKeyed_defaults
  rw [hb] at hbkeys
  have hmerges := merges_of_mergeEntries (wellKeyed_map.mp hbkeys).1 (wellKeyed_map.mp ho).1 hr
  -- The sections of the defaults are still there.
  have htruthy : (Value.map r).truthy = true := by
    have hne : r ≠ [] := by
      rintro rfl
      obtain ⟨hnil, -⟩ := List.append_eq_nil_iff.mp hmerges.keys.symm
      rw [List.map_eq_nil_iff.mp hnil] at hb
      cases hb
    rw [truthy, Bool.not_eq_true', List.isEmpty_eq_false_iff]
    exact hne
  rw [resolve, htruthy, if_pos rfl, hb, deepMerge, mergeEntries_absorb hbkeys ho hr]
  rfl

end Config

end LiveForm
