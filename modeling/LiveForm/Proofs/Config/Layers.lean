import LiveForm.Config.Load
import LiveForm.Proofs.Config.Path
import LiveForm.Proofs.Files.Document
import LiveForm.Proofs.Value.Decidable

/-!
# Layers of configurations

A configuration is merged layer by layer. The upper layers may as well be merged first, when the
middle one sets nothing to null: a null would let the upper layer replace what the lower one does
not.

* `Value.nullFree`: no null in a value, nor in the mappings nested in it;
* `replaceable_trans`: what may replace what, over a value that is not null;
* `layeredAt`, `Merges.layeredAt`: the merge at a key that either side may lack;
* `Collapses`, `collapses`: three values, two of which are merged first;
* `Config.exists_layers_of_load`: the layers of a configuration that is loaded;
* **`Config.layers_collapse`**: three layers, and those that are loaded.
-/

namespace LiveForm

open Value

variable {key base middle override u v w : Value} {a b c ab bc r : Entries}

namespace Value

mutual

/-- The value is not null, and no mapping nested in it holds null. -/
def nullFree : Value → Bool
  | null => false
  | map entries => nullFreeEntries entries
  | _ => true

def nullFreeEntries : List (Value × Value) → Bool
  | [] => true
  | (_, v) :: es => nullFree v && nullFreeEntries es

end

theorem nullFree_map {es : Entries} :
    (map es).nullFree = true ↔ ∀ e ∈ es, e.2.nullFree = true := by
  rw [nullFree]
  induction es with
  | nil => simp [nullFreeEntries]
  | cons e es ih => rw [nullFreeEntries, Bool.and_eq_true, ih, List.forall_mem_cons]

end Value

/-! ## Replacing -/

theorem replaceable_congr {base' override' : Value} (hb : base.kind = base'.kind)
    (ho : override.kind = override'.kind) :
    replaceable base override = replaceable base' override' := by
  have hnumber : ∀ v w : Value, v.kind = w.kind → v.isNumber = w.isNumber := by
    intro v w hkind
    cases v <;> cases w <;> first | rfl | cases hkind
  rw [replaceable, replaceable, hb, ho, hnumber _ _ hb, hnumber _ _ ho]

/-- **What may replace a value that may replace another may replace that**, unless it is null. -/
theorem replaceable_trans (hnull : middle.kind ≠ .null)
    (hbm : replaceable base middle = true) (hmo : replaceable middle override = true) :
    replaceable base override = true := by
  have hnumber : ∀ v : Value, v.isNumber = true ↔ v.kind = .int ∨ v.kind = .float := by
    intro v
    cases v <;> simp [isNumber, number?, kind]
  simp only [replaceable, Bool.or_eq_true, Bool.and_eq_true, decide_eq_true_eq, hnumber] at *
  grind

/-- A mapping is replaced by no value but null and other mappings. -/
theorem eq_map_of_replaceable (hbase : base.kind = .map) (hnull : override.kind ≠ .null)
    (h : replaceable base override = true) : override.kind = .map := by
  have hnumber : base.isNumber = false := by
    obtain ⟨es, rfl⟩ := exists_eq_map hbase
    rfl
  simp only [replaceable, Bool.or_eq_true, Bool.and_eq_true, decide_eq_true_eq, hnumber, hbase]
    at h
  grind

/-! ## Keys that either side may lack -/

/-- The merge of what is found at a key, where either side may have nothing. -/
def layeredAt (key : Value) (base override : Option Value) : Except MergeConflict (Option Value) :=
  match override with
  | none => .ok base
  | some override => (mergedAt key base override).map some

theorem layeredAt_some_eq_ok {base x : Option Value} :
    layeredAt key base (some override) = .ok x ↔
      ∃ v, mergedAt key base override = .ok v ∧ x = some v := by
  rw [layeredAt]
  cases mergedAt key base override with
  | error e => simp [Except.map]
  | ok v => simp [Except.map, eq_comm]

theorem Merges.layeredAt (h : Merges a b r) (key : Value) :
    LiveForm.layeredAt key (find? key a) (find? key b) = .ok (find? key r) := by
  cases hb : find? key b with
  | none => rw [LiveForm.layeredAt, h.absent key hb]
  | some override =>
    obtain ⟨merged, hmerged, hat⟩ := h.present key override hb
    exact layeredAt_some_eq_ok.mpr ⟨merged, hat, hmerged⟩

theorem exists_mergeEntries_of_layeredAt (ha : Keyed a) (hb : Keyed b)
    (h : ∀ e ∈ b, ∃ x, layeredAt e.1 (find? e.1 a) (find? e.1 b) = .ok x) :
    ∃ r, mergeEntries a b = .ok r := by
  refine (exists_mergeEntries_iff ha hb).mpr fun e he => ?_
  obtain ⟨x, hx⟩ := h e he
  rw [hb.find?_of_mem he] at hx
  obtain ⟨v, hv, -⟩ := layeredAt_some_eq_ok.mp hx
  exact ⟨v, hv⟩

theorem Merges.isNone_find? (h : Merges a b ab) (key : Value) :
    (find? key ab).isNone = ((find? key a).isNone && (find? key b).isNone) := by
  have hkeys := h.unites.keys key
  rw [Bool.eq_iff_iff, Bool.and_eq_true]
  simp only [Option.isNone_iff_eq_none, ← Option.not_isSome_iff_eq_none, hkeys, not_or]

/-- **The keys of three layers** come in one order, whichever two are merged first. -/
theorem Merges.keys_assoc {r' : Entries} (hab : Merges a b ab) (habc : Merges ab c r)
    (hbc : Merges b c bc) (habc' : Merges a bc r') : r'.map Prod.fst = r.map Prod.fst := by
  have hnew : ∀ es fs : Entries, (es.filter fun e => (find? e.1 fs).isNone).map Prod.fst =
      (es.map Prod.fst).filter fun k => (find? k fs).isNone := fun es fs => by
    rw [List.filter_map]
    rfl
  rw [habc'.keys, habc.keys, hab.keys, hnew, hnew, hnew, hbc.keys, hnew, List.filter_append,
    List.append_assoc, List.filter_filter]
  simp only [hab.isNone_find?]

/-! ## Three layers -/

/-- A middle value over which three layers collapse: the upper two may be merged first. -/
def Collapses (middle : Value) : Prop := ∀ key base override v w : Value,
  base.wellKeyed = true → override.wellKeyed = true →
    mergeAt key base middle = .ok v → mergeAt key v override = .ok w →
      ∃ u, mergeAt key middle override = .ok u ∧ mergeAt key base u = .ok w

/-- **At each key three layers collapse**, be there values or not, when the values do. -/
theorem layeredAt_collapse {x y z xy w : Option Value} (hx : ∀ v ∈ x, v.wellKeyed = true)
    (hz : ∀ v ∈ z, v.wellKeyed = true) (hy : ∀ v ∈ y, Collapses v)
    (hxy : layeredAt key x y = .ok xy) (hw : layeredAt key xy z = .ok w) :
    ∃ yz, layeredAt key y z = .ok yz ∧ layeredAt key x yz = .ok w := by
  cases z with
  | none =>
    obtain rfl := Except.ok.inj hw
    exact ⟨y, rfl, hxy⟩
  | some z =>
    cases y with
    | none =>
      obtain rfl := Except.ok.inj hxy
      exact ⟨some z, rfl, hw⟩
    | some y =>
      obtain ⟨v, hv, rfl⟩ := layeredAt_some_eq_ok.mp hxy
      obtain ⟨w, hvw, rfl⟩ := layeredAt_some_eq_ok.mp hw
      cases x with
      | none =>
        obtain rfl := Except.ok.inj hv
        exact ⟨some w, layeredAt_some_eq_ok.mpr ⟨w, hvw, rfl⟩, rfl⟩
      | some x =>
        obtain ⟨u, hu, hxu⟩ := hy y rfl key x z v w (hx x rfl) (hz z rfl) hv hvw
        exact ⟨some u, layeredAt_some_eq_ok.mpr ⟨u, hu, rfl⟩,
          layeredAt_some_eq_ok.mpr ⟨w, hxu, rfl⟩⟩

theorem mergeEntries_collapse (ha : (Value.map a).wellKeyed = true)
    (hb : (Value.map b).wellKeyed = true) (hc : (Value.map c).wellKeyed = true)
    (hvalues : ∀ e ∈ b, Collapses e.2) (hab : mergeEntries a b = .ok ab)
    (habc : mergeEntries ab c = .ok r) :
    ∃ bc, mergeEntries b c = .ok bc ∧ mergeEntries a bc = .ok r := by
  have hakeys := (wellKeyed_map.mp ha).1
  have hbkeys := (wellKeyed_map.mp hb).1
  have hckeys := (wellKeyed_map.mp hc).1
  have hmab := merges_of_mergeEntries hakeys hbkeys hab
  have hmabc := merges_of_mergeEntries hmab.keyed hckeys habc
  have hat : ∀ key, ∃ yz, layeredAt key (find? key b) (find? key c) = .ok yz ∧
      layeredAt key (find? key a) yz = .ok (find? key r) := fun key =>
    layeredAt_collapse (fun v hv => wellKeyed_of_find? ha hv) (fun v hv => wellKeyed_of_find? hc hv)
      (fun v hv => by
        obtain ⟨k, hmem, -⟩ := exists_mem_of_find? hv
        exact hvalues _ hmem)
      (hmab.layeredAt key) (hmabc.layeredAt key)
  obtain ⟨bc, hbc⟩ := exists_mergeEntries_of_layeredAt hbkeys hckeys fun e _ => by
    obtain ⟨yz, hyz, -⟩ := hat e.1
    exact ⟨yz, hyz⟩
  have hmbc := merges_of_mergeEntries hbkeys hckeys hbc
  have hover : ∀ key, layeredAt key (find? key a) (find? key bc) = .ok (find? key r) := by
    intro key
    obtain ⟨yz, hyz, hr⟩ := hat key
    rwa [Except.ok.inj ((hmbc.layeredAt key).symm.trans hyz)]
  obtain ⟨r', hr'⟩ := exists_mergeEntries_of_layeredAt hakeys hmbc.keyed fun e _ => ⟨_, hover e.1⟩
  have hmr := merges_of_mergeEntries hakeys hmbc.keyed hr'
  have heq : r' = r := hmabc.keyed.ext hmr.keyed (hmab.keys_assoc hmabc hmbc hmr) fun e _ =>
    Except.ok.inj ((hmr.layeredAt e.1).symm.trans (hover e.1))
  exact ⟨bc, hbc, heq ▸ hr'⟩

/-- Where base and middle are not both mappings, the middle value stands, and what it becomes may
stand over the base. -/
theorem collapse_of_replaced (hnull : middle.kind ≠ .null)
    (hboth : ¬ (base.kind = .map ∧ middle.kind = .map))
    (hfit : replaceable base middle = true) (hw : mergeAt key middle override = .ok w) :
    mergeAt key base w = .ok w := by
  have hbase : base.kind ≠ .map := fun hmap =>
    hboth ⟨hmap, eq_map_of_replaceable hmap hnull hfit⟩
  refine mergeAt_eq_ok.mpr (Or.inr ⟨fun h => hbase h.1, ?_, rfl⟩)
  rcases mergeAt_eq_ok.mp hw with ⟨b, o, r, rfl, rfl, -, rfl⟩ | ⟨-, hfit', rfl⟩
  · rw [← hfit]
    exact replaceable_congr rfl rfl
  · exact replaceable_trans hnull hfit hfit'

mutual

/-- **Three layers collapse** over a middle one without null. -/
theorem collapses : (middle : Value) → middle.wellKeyed = true → middle.nullFree = true →
    Collapses middle
  | .map b, hkeys, hfree => by
    intro key base override v w hbase hoverride hv hw
    rcases mergeAt_eq_ok.mp hv with ⟨a, b', ab, rfl, hb', hab, rfl⟩ | ⟨hboth, hfit, rfl⟩
    · obtain rfl := Value.map.inj hb'
      rcases mergeAt_eq_ok.mp hw with ⟨ab', c, r, hab', rfl, hr, rfl⟩ | ⟨hother, hfit, rfl⟩
      · obtain rfl := Value.map.inj hab'
        obtain ⟨bc, hbc, hr'⟩ := mergeEntries_collapse hbase hkeys hoverride
          (collapses_of_mem b (wellKeyed_map.mp hkeys).2 (nullFree_map.mp hfree)) hab hr
        exact ⟨.map bc, mergeAt_eq_ok.mpr (Or.inl ⟨b, c, bc, rfl, rfl, hbc, rfl⟩),
          mergeAt_eq_ok.mpr (Or.inl ⟨a, bc, r, rfl, rfl, hr', rfl⟩)⟩
      · -- All three bases are mappings, so what replaces one of them replaces the others.
        exact ⟨_, mergeAt_eq_ok.mpr (Or.inr ⟨hother, hfit, rfl⟩),
          mergeAt_eq_ok.mpr (Or.inr ⟨hother, hfit, rfl⟩)⟩
    · exact ⟨w, hw, collapse_of_replaced (by simp [kind]) hboth hfit hw⟩
  | .null, _, hfree => by cases hfree
  | .bool _, _, _ | .int _, _, _ | .float _, _, _ | .text _, _, _ | .bytes _, _, _ | .date _, _, _
  | .moment _, _, _ | .list _, _, _ | .tuple _, _, _ | .set _, _, _ => by
    intro key base override v w _ _ hv hw
    rcases mergeAt_eq_ok.mp hv with ⟨_, _, _, _, hmap, _⟩ | ⟨hboth, hfit, rfl⟩
    · cases hmap
    · exact ⟨w, hw, collapse_of_replaced (by simp [kind]) hboth hfit hw⟩

theorem collapses_of_mem : (b : List (Value × Value)) → (∀ e ∈ b, e.2.wellKeyed = true) →
    (∀ e ∈ b, e.2.nullFree = true) → ∀ e ∈ b, Collapses e.2
  | [], _, _ => fun _ he => absurd he List.not_mem_nil
  | (_, v) :: es, hkeys, hfree => by
    obtain ⟨hvkeys, hkeys⟩ := List.forall_mem_cons.mp hkeys
    obtain ⟨hvfree, hfree⟩ := List.forall_mem_cons.mp hfree
    exact List.forall_mem_cons.mpr ⟨collapses v hvkeys hvfree, collapses_of_mem es hkeys hfree⟩

end

theorem deepMerge_eq_ok : deepMerge base override = .ok v ↔
    ∃ b o r, base = .map b ∧ override = .map o ∧ mergeEntries b o = .ok r ∧ v = .map r := by
  constructor
  · intro h
    cases base with
    | map b =>
      cases override with
      | map o =>
        rw [deepMerge_map .null] at h
        rcases mergeAt_eq_ok.mp h with hmerge | ⟨hboth, -⟩
        · exact hmerge
        · exact absurd ⟨rfl, rfl⟩ hboth
      | _ => cases h
    | _ => cases h
  · rintro ⟨b, o, r, rfl, rfl, hr, rfl⟩
    rw [deepMerge, hr]
    rfl

/-- **Three layers of mappings collapse.** -/
theorem exists_collapse (ha : (Value.map a).wellKeyed = true)
    (hb : (Value.map b).wellKeyed = true) (hc : (Value.map c).wellKeyed = true)
    (hfree : (Value.map b).nullFree = true) (hv : deepMerge (.map a) (.map b) = .ok v)
    (hw : deepMerge v (.map c) = .ok w) :
    ∃ u, deepMerge (.map b) (.map c) = .ok u ∧ deepMerge (.map a) u = .ok w := by
  obtain ⟨a, b, ab, hamap, hbmap, hab, rfl⟩ := deepMerge_eq_ok.mp hv
  obtain ⟨ab, c, r, habmap, hcmap, hr, rfl⟩ := deepMerge_eq_ok.mp hw
  obtain rfl := Value.map.inj hamap
  obtain rfl := Value.map.inj hbmap
  obtain rfl := Value.map.inj hcmap
  obtain rfl := Value.map.inj habmap
  obtain ⟨bc, hbc, hr'⟩ := mergeEntries_collapse ha hb hc
    (collapses_of_mem _ (wellKeyed_map.mp hb).2 (nullFree_map.mp hfree)) hab hr
  exact ⟨.map bc, deepMerge_eq_ok.mpr ⟨_, _, _, rfl, rfl, hbc, rfl⟩,
    deepMerge_eq_ok.mpr ⟨_, _, _, rfl, rfl, hr', rfl⟩⟩

/-! ## Loading -/

namespace Config

variable {yaml : Yaml.Library} {fs : Files} {p base overlay : Path} {v config : Value}

theorem exists_entries_of_readFile (hyaml : yaml.WellKeyed) (h : readFile yaml fs p = .ok v) :
    ∃ es, v = .map es ∧ (Value.map es).wellKeyed = true := by
  rw [readFile] at h
  dsimp only at h
  split at h
  · cases h
  split at h
  · obtain ⟨s, -, h⟩ := bind_eq_ok.mp h
    obtain ⟨w, hw, h⟩ := bind_eq_ok.mp h
    have hkeys := Format.wellKeyed_of_parse hyaml (mapError_eq_ok.mp hw)
    split at h
    · exact ⟨[], (Except.ok.inj h).symm, rfl⟩
    · exact ⟨_, (Except.ok.inj h).symm, hkeys⟩
    · cases h
  · cases h

theorem resolve_map (o : Entries) : resolve (.map o) = deepMerge defaults (.map o) := by
  rw [resolve]
  split
  · rfl
  · next hfalse =>
    have ho : o = [] := by simpa [truthy] using hfalse
    rw [ho]
    rfl

/-- **The layers of a configuration that is loaded** with a local file. -/
theorem exists_layers_of_load (h : load yaml fs base (some overlay) = .ok config)
    (hoverlay : fs.has overlay = true) :
    ∃ d e l, readFile yaml fs base = .ok d ∧ resolve d = .ok e ∧
      readFile yaml fs overlay = .ok l ∧ deepMerge e l = .ok config := by
  rw [load] at h
  obtain ⟨d, hd, h⟩ := bind_eq_ok.mp h
  obtain ⟨e, he, h⟩ := bind_eq_ok.mp h
  dsimp only at h
  rw [if_pos hoverlay] at h
  obtain ⟨l, hl, h⟩ := bind_eq_ok.mp h
  exact ⟨d, e, l, hd, mapError_eq_ok.mp he, hl, mapError_eq_ok.mp h⟩

/-- **Layers collapse.** When two mappings are merged and a third one over them, the upper two may
be merged first, if the middle one is free of null. So a configuration that is loaded from a file of
defaults without null and a local file is what the merge of the two files resolves to, with any YAML
library whose mappings have distinct hashable keys. -/
theorem layers_collapse :
    (∀ (a b c : Entries) (v w : Value), (Value.map a).wellKeyed = true →
      (Value.map b).wellKeyed = true → (Value.map c).wellKeyed = true →
      (Value.map b).nullFree = true → deepMerge (.map a) (.map b) = .ok v →
      deepMerge v (.map c) = .ok w →
        ∃ u, deepMerge (.map b) (.map c) = .ok u ∧ deepMerge (.map a) u = .ok w) ∧
    ∀ yaml : Yaml.Library, yaml.WellKeyed → ∀ (fs : Files) (base overlay : Path) (d config : Value),
      load yaml fs base (some overlay) = .ok config → fs.has overlay = true →
      readFile yaml fs base = .ok d → d.nullFree = true →
        ∃ l u, readFile yaml fs overlay = .ok l ∧ deepMerge d l = .ok u ∧
          resolve u = .ok config := by
  refine ⟨fun a b c v w => exists_collapse, ?_⟩
  intro yaml hyaml fs base overlay d config hload hoverlay hd hfree
  obtain ⟨d', e, l, hd', he, hl, hconfig⟩ := exists_layers_of_load hload hoverlay
  obtain rfl := Except.ok.inj (hd.symm.trans hd')
  obtain ⟨b, rfl, hb⟩ := exists_entries_of_readFile hyaml hd
  obtain ⟨c, rfl, hc⟩ := exists_entries_of_readFile hyaml hl
  obtain ⟨a, ha⟩ : ∃ a, defaults = .map a := ⟨_, rfl⟩
  have hdefaults := wellKeyed_defaults
  rw [resolve_map, ha] at he
  rw [ha] at hdefaults
  obtain ⟨u, hu, hresolve⟩ := exists_collapse hdefaults hb hc hfree he hconfig
  obtain ⟨_, _, r, -, -, -, rfl⟩ := deepMerge_eq_ok.mp hu
  exact ⟨_, _, hl, hu, by rw [resolve_map, ha, hresolve]⟩

/-- Files in which the local one replaces a number by a list and clears a section. -/
def layerFiles : Files := ⟨⟨[
  (["defaults.yaml"], .file (Files.bytesOf
    "layout:\n  grid_columns: 6\ncompute:\n  precision: 2\n")),
  (["local.json"], .file (Files.bytesOf
    "\x7b\"layout\": \x7b\"grid_columns\": [4, 8]\x7d, \"compute\": null\x7d"))]⟩⟩

/-- What the file of defaults holds. -/
def layerDefaults : Entries := fields [
  ("layout", record [("grid_columns", int 6)]), ("compute", record [("precision", int 2)])]

/-- What the local file holds. -/
def layerOverlay : Entries := fields [
  ("layout", record [("grid_columns", list [int 4, int 8])]), ("compute", null)]

/-- The defaults with the file of defaults. -/
def layerBase : Value := record [
  ("runtime", record [("notify_on_validate", bool true), ("revalidate_on_change", bool true)]),
  ("compute", record [("concat_separator", text ""), ("precision", int 2)]),
  ("activation", record [("block_on_errors", bool true)]),
  ("layout", record [("grid_columns", int 6)]),
  ("versioning", record [("default_author", text "system")])]

/-- The configuration that is loaded. -/
def layerConfig : Value := record [
  ("runtime", record [("notify_on_validate", bool true), ("revalidate_on_change", bool true)]),
  ("compute", null),
  ("activation", record [("block_on_errors", bool true)]),
  ("layout", record [("grid_columns", list [int 4, int 8])]),
  ("versioning", record [("default_author", text "system")])]

theorem layerFiles_collapse :
    (∃ a, defaults = .map a ∧ ∃ u,
      deepMerge (.map layerDefaults) (.map layerOverlay) = .ok u ∧
        deepMerge (.map a) u = .ok layerConfig) ∧
    Yaml.plainLibrary.WellKeyed ∧
    load Yaml.plainLibrary layerFiles ⟨["defaults.yaml"]⟩ (some ⟨["local.json"]⟩) =
      .ok layerConfig ∧
    ∃ l u, readFile Yaml.plainLibrary layerFiles ⟨["local.json"]⟩ = .ok l ∧
      deepMerge (.map layerDefaults) l = .ok u ∧ resolve u = .ok layerConfig :=
  have hload : load Yaml.plainLibrary layerFiles ⟨["defaults.yaml"]⟩ (some ⟨["local.json"]⟩) =
      .ok layerConfig := eq_ok_of_toOption (by decide +kernel)
  have hread : readFile Yaml.plainLibrary layerFiles ⟨["defaults.yaml"]⟩ =
      .ok (.map layerDefaults) := eq_ok_of_toOption (by decide +kernel)
  ⟨⟨_, rfl, layers_collapse.1 _ layerDefaults layerOverlay layerBase layerConfig
      wellKeyed_defaults (by decide +kernel) (by decide +kernel) (by decide +kernel)
      (eq_ok_of_toOption (by decide +kernel)) (eq_ok_of_toOption (by decide +kernel))⟩,
    Yaml.wellKeyed_plainLibrary, hload,
    layers_collapse.2 _ Yaml.wellKeyed_plainLibrary _ _ _ _ _ hload (by decide +kernel) hread
      (by decide +kernel)⟩

end Config

end LiveForm
