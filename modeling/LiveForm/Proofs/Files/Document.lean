import LiveForm.Files.Document
import LiveForm.Yaml.Text
import LiveForm.Proofs.Result
import LiveForm.Proofs.Value.Entries

/-!
# Keys of documents

Whatever is read of a JSON text, its mappings have hashable keys, and no two of them are equal: of
equal keys the last one is kept. The same is asked of a YAML library, and holds of the one for plain
texts.

* `Value.Collectable`, `Value.wellKeyed_collect`: entries that can be collected into a mapping;
* `Json.wellKeyed_toValue`, `Yaml.wellKeyed_value`: the values of trees and of nodes;
* `Yaml.Library.WellKeyed`: what is asked of a library, `Yaml.wellKeyed_plainLibrary` that it holds
  of one;
* **`Format.wellKeyed_of_parse`**: the value of a document.
-/

namespace LiveForm

namespace Value

variable {es fs : Entries} {key v : Value} {vs : List Value}

theorem allWellKeyed_iff : allWellKeyed vs = true ↔ ∀ v ∈ vs, v.wellKeyed = true := by
  induction vs with
  | nil => simp [allWellKeyed]
  | cons v vs ih => rw [allWellKeyed, Bool.and_eq_true, ih, List.forall_mem_cons]

mutual

theorem wellKeyed_of_isKey : (v : Value) → v.isKey = true → v.wellKeyed = true
  | .tuple items, h => by
    rw [isKey] at h
    rw [wellKeyed]
    exact allWellKeyed_of_allKeys items h
  | .null, _ | .bool _, _ | .int _, _ | .float _, _ | .text _, _ | .bytes _, _ | .date _, _
  | .moment _, _ => rfl
  | .list _, h | .set _, h | .map _, h => by simp [isKey] at h

theorem allWellKeyed_of_allKeys : (vs : List Value) → allKeys vs = true → allWellKeyed vs = true
  | [], _ => rfl
  | v :: vs, h => by
    rw [allKeys, Bool.and_eq_true] at h
    rw [allWellKeyed, wellKeyed_of_isKey v h.1, allWellKeyed_of_allKeys vs h.2]
    rfl

end

/-! ## Collecting entries -/

/-- Entries that can be collected: their keys are hashable, and the mappings in their values have
distinct hashable keys. -/
def Collectable (es : Entries) : Prop := ∀ e ∈ es, e.1.isKey = true ∧ e.2.wellKeyed = true

theorem Collectable.append (hes : Collectable es) (hfs : Collectable fs) :
    Collectable (es ++ fs) := fun e he => (List.mem_append.mp he).elim (hes e) (hfs e)

theorem collectable_of_wellKeyed (h : (map es).wellKeyed = true) : Collectable es := by
  obtain ⟨hkeyed, hvalues⟩ := wellKeyed_map.mp h
  exact fun e he => ⟨hkeyed.isKey e he, hvalues e he⟩

theorem wellKeyed_put (h : (map es).wellKeyed = true) (hkey : key.isKey = true)
    (hv : v.wellKeyed = true) : (map (put key v es)).wellKeyed = true := by
  obtain ⟨hkeyed, hvalues⟩ := wellKeyed_map.mp h
  refine wellKeyed_map.mpr ⟨hkeyed.put hkey v, fun e he => ?_⟩
  have hfound := (hkeyed.put hkey v).find?_of_mem he
  rw [find?_put hkeyed.isKey hkey] at hfound
  split at hfound
  · rwa [← Option.some.inj hfound]
  · obtain ⟨k, hmem, -⟩ := exists_mem_of_find? hfound
    exact hvalues (k, e.2) hmem

/-- **Collected entries make a mapping with distinct keys.** -/
theorem wellKeyed_collect (h : Collectable es) : (map (collect es)).wellKeyed = true := by
  have hfold : ∀ acc : Entries, (map acc).wellKeyed = true →
      (map (es.foldl (fun acc e => put e.1 e.2 acc) acc)).wellKeyed = true := by
    induction es with
    | nil => exact fun _ hacc => hacc
    | cons e es ih =>
      intro acc hacc
      obtain ⟨⟨hkey, hv⟩, hes⟩ := List.forall_mem_cons.mp h
      exact ih hes _ (wellKeyed_put hacc hkey hv)
  exact hfold [] rfl

end Value

open Value

/-! ## Trees -/

namespace Json

mutual

theorem wellKeyed_toValue : (j : Json) → j.toValue.wellKeyed = true
  | .array items => by
    rw [toValue, wellKeyed]
    exact allWellKeyed_toValues items
  | .object members => by
    rw [toValue]
    exact wellKeyed_collect (collectable_toEntries members)
  | .null | .bool _ | .int _ | .float _ | .text _ => rfl

theorem allWellKeyed_toValues : (js : List Json) → allWellKeyed (toValues js) = true
  | [] => rfl
  | j :: js => by
    rw [toValues, allWellKeyed, wellKeyed_toValue j, allWellKeyed_toValues js]
    rfl

theorem collectable_toEntries : (ms : List (String × Json)) → Collectable (toEntries ms)
  | [] => fun _ he => absurd he List.not_mem_nil
  | (_, j) :: ms => by
    rw [toEntries]
    exact List.forall_mem_cons.mpr ⟨⟨rfl, wellKeyed_toValue j⟩, collectable_toEntries ms⟩

end

end Json

/-! ## Nodes -/

namespace Yaml

variable {v w : Value}

theorem wellKeyed_integerValue {cs : List Char} (h : integerValue cs = .ok v) :
    v.wellKeyed = true := by
  obtain ⟨n, rfl⟩ : ∃ n, v = .int n := by
    simp only [integerValue] at h
    split at h
    · cases h
    · cases h
    · exact ⟨_, (Except.ok.inj h).symm⟩
    · exact ⟨_, (Except.ok.inj h).symm⟩
    · exact ⟨_, (Except.ok.inj h).symm⟩
    · split at h
      · cases h
      · exact ⟨_, (Except.ok.inj h).symm⟩
  rfl

theorem wellKeyed_stamp {s : Stamp} (h : s.value? = some v) : v.wellKeyed = true := by
  obtain ⟨date, -, h⟩ := Option.bind_eq_some_iff.mp h
  split at h
  · rw [← Option.some.inj h]
    rfl
  · dsimp only at h
    split at h
    all_goals
      obtain ⟨offset, -, h⟩ := Option.bind_eq_some_iff.mp h
      obtain ⟨moment, -, rfl⟩ := Option.map_eq_some_iff.mp h
      rfl

theorem wellKeyed_plainValue {s : String} (h : plainValue s = .ok v) : v.wellKeyed = true := by
  rw [plainValue] at h
  split at h
  · rw [← Except.ok.inj h]; rfl
  · rw [← Except.ok.inj h]; rfl
  · exact wellKeyed_integerValue h
  · rw [← Except.ok.inj h]; rfl
  · split at h
    · next w hw =>
      obtain ⟨stamp, -, hstamp⟩ := Option.bind_eq_some_iff.mp hw
      rw [← Except.ok.inj h]
      exact wellKeyed_stamp hstamp
    · cases h
  · cases h
  · cases h
  · rw [← Except.ok.inj h]; rfl

theorem collectable_mergedEntries (hv : v.wellKeyed = true) {es : Entries}
    (h : mergedEntries v = .ok es) : Collectable es := by
  cases v with
  | map entries =>
    rw [← Except.ok.inj h]
    exact collectable_of_wellKeyed hv
  | list items =>
    rw [wellKeyed, allWellKeyed_iff] at hv
    obtain ⟨parts, hparts, h⟩ := bind_eq_ok.mp h
    rw [← Except.ok.inj h]
    intro e he
    obtain ⟨part, hpart, he⟩ := List.mem_flatten.mp he
    obtain ⟨item, hitem, hentries⟩ := mem_of_mapM hparts part (List.mem_reverse.mp hpart)
    split at hentries
    · next entries =>
      rw [← Except.ok.inj hentries] at he
      exact collectable_of_wellKeyed (hv _ hitem) e he
    · cases hentries
  | _ => cases h

theorem wellKeyed_typedValue {name : String} (hv : v.wellKeyed = true)
    (h : typedValue name v = .ok w) : w.wellKeyed = true := by
  unfold typedValue at h
  split at h
  · next entries =>
    rw [← Except.ok.inj h, wellKeyed, allWellKeyed_iff]
    exact List.forall_mem_map.mpr fun e he =>
      wellKeyed_of_isKey e.1 (collectable_of_wellKeyed hv e he).1
  · split at h
    · rw [← Except.ok.inj h]
      rfl
    · cases h
  · cases h

variable {k n : Node} {es : List (Node × Node)} {merged own : Entries}

theorem entryValues_merge (hk : k.isMerge = true)
    (h : entryValues ((k, n) :: es) = .ok (merged, own)) :
    ∃ v part more, n.value = .ok v ∧ mergedEntries v = .ok part ∧
      entryValues es = .ok (more, own) ∧ merged = part ++ more := by
  rw [entryValues, if_pos hk] at h
  obtain ⟨v, hv, h⟩ := bind_eq_ok.mp h
  obtain ⟨part, hpart, h⟩ := bind_eq_ok.mp h
  obtain ⟨⟨more, own'⟩, hmore, h⟩ := bind_eq_ok.mp h
  cases Except.ok.inj h
  exact ⟨v, part, more, hv, hpart, hmore, rfl⟩

theorem entryValues_own (hk : ¬ k.isMerge = true)
    (h : entryValues ((k, n) :: es) = .ok (merged, own)) :
    ∃ key v more, key.isKey = true ∧ n.value = .ok v ∧ entryValues es = .ok (merged, more) ∧
      own = (key, v) :: more := by
  rw [entryValues, if_neg hk] at h
  dsimp only at h
  -- The key is the default one or that of the node; what follows is the same.
  split at h
  all_goals
    obtain ⟨key, -, h⟩ := bind_eq_ok.mp h
    split at h
    · next hkey =>
      obtain ⟨v, hv, h⟩ := bind_eq_ok.mp h
      obtain ⟨⟨merged', more⟩, hmore, h⟩ := bind_eq_ok.mp h
      cases Except.ok.inj h
      exact ⟨key, v, more, hkey, hv, hmore, rfl⟩
    · cases h

mutual

/-- **The value of a node has distinct hashable keys.** -/
theorem wellKeyed_value : (n : Node) → ∀ {v : Value}, n.value = .ok v → v.wellKeyed = true
  | .scalar true _, v, h => wellKeyed_plainValue h
  | .scalar false _, v, h => by
    rw [← Except.ok.inj h]
    rfl
  | .sequence items, v, h => by
    rw [Node.value] at h
    obtain ⟨vs, hvs, h⟩ := bind_eq_ok.mp h
    rw [← Except.ok.inj h, wellKeyed]
    exact allWellKeyed_nodeValues items hvs
  | .tagged name node, v, h => by
    rw [Node.value] at h
    obtain ⟨w, hw, h⟩ := bind_eq_ok.mp h
    exact wellKeyed_typedValue (wellKeyed_value node hw) h
  | .mapping entries, v, h => by
    rw [Node.value] at h
    obtain ⟨⟨merged, own⟩, hes, h⟩ := bind_eq_ok.mp h
    obtain ⟨hmerged, hown⟩ := collectable_entryValues entries hes
    rw [← Except.ok.inj h]
    exact wellKeyed_collect (hmerged.append hown)

theorem allWellKeyed_nodeValues : (ns : List Node) → ∀ {vs : List Value},
    nodeValues ns = .ok vs → allWellKeyed vs = true
  | [], vs, h => by
    rw [nodeValues] at h
    rw [← Except.ok.inj h]
    rfl
  | n :: ns, vs, h => by
    rw [nodeValues] at h
    obtain ⟨v, hv, h⟩ := bind_eq_ok.mp h
    obtain ⟨vs', hvs, h⟩ := bind_eq_ok.mp h
    rw [← Except.ok.inj h, allWellKeyed, wellKeyed_value n hv, allWellKeyed_nodeValues ns hvs]
    rfl

theorem collectable_entryValues : (es : List (Node × Node)) → ∀ {merged own : Entries},
    entryValues es = .ok (merged, own) → Collectable merged ∧ Collectable own
  | [], merged, own, h => by
    rw [entryValues] at h
    cases Except.ok.inj h
    exact ⟨fun _ he => absurd he List.not_mem_nil, fun _ he => absurd he List.not_mem_nil⟩
  | (k, n) :: es, merged, own, h => by
    by_cases hk : k.isMerge = true
    · obtain ⟨v, part, more, hv, hpart, hmore, rfl⟩ := entryValues_merge hk h
      obtain ⟨hmerged, hown⟩ := collectable_entryValues es hmore
      exact ⟨(collectable_mergedEntries (wellKeyed_value n hv) hpart).append hmerged, hown⟩
    · obtain ⟨key, v, more, hkey, hv, hmore, rfl⟩ := entryValues_own hk h
      obtain ⟨hmerged, hown⟩ := collectable_entryValues es hmore
      exact ⟨hmerged, List.forall_mem_cons.mpr ⟨⟨hkey, wellKeyed_value n hv⟩, hown⟩⟩

end

end Yaml

/-- **What is asked of a library**: the mappings that it reads have distinct hashable keys. -/
def Yaml.Library.WellKeyed (yaml : Library) : Prop :=
  ∀ s v, yaml.parse s = .ok v → v.wellKeyed = true

theorem Yaml.wellKeyed_plainLibrary : plainLibrary.WellKeyed := by
  intro s v hread
  change ofYamlText s = .ok v at hread
  rw [ofYamlText] at hread
  obtain ⟨ts, -, hread⟩ := bind_eq_ok.mp hread
  obtain ⟨node, -, hread⟩ := bind_eq_ok.mp hread
  cases node with
  | none =>
    rw [← Except.ok.inj hread]
    rfl
  | some node => exact wellKeyed_value node hread

/-- **The mappings of a document have distinct hashable keys.** -/
theorem Format.wellKeyed_of_parse {yaml : Yaml.Library} (hyaml : yaml.WellKeyed) {format : Format}
    {s : String} {v : Value} (h : format.parse yaml s = .ok v) : v.wellKeyed = true := by
  cases format with
  | yaml => exact hyaml s v (mapError_eq_ok.mp h)
  | json =>
    have hread := mapError_eq_ok.mp h
    rw [ofJsonText] at hread
    cases hj : Json.parse s with
    | error e =>
      rw [hj] at hread
      cases hread
    | ok j =>
      rw [hj] at hread
      rw [← Except.ok.inj hread]
      exact Json.wellKeyed_toValue j

end LiveForm
