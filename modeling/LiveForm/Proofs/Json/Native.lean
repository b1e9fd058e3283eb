import Mathlib.Data.Int.Notation
import Mathlib.Data.Nat.Notation
import Mathlib.Tactic.SplitIfs
import LiveForm.Json.Writer
import LiveForm.Schema.FreeValue
import LiveForm.Proofs.Result

/-!
# Native values as JSON

A value that is made of null, booleans, numbers, texts, lists, and mappings with text keys has a
JSON tree, with sorted members or not, as long as none of its integers is too long to be written.

* `Json.TextKeys`: entries whose keys are all texts;
* `Value.longest`: the largest number of digits of an integer in a value;
* `Json.tree`: the tree of a native value, whatever the length of its integers;
* **`Json.ofValue_eq`, `canonicalJson_eq`**: which native values can be written, and how.
-/

namespace LiveForm

/-! ## Digits -/

namespace Value

mutual

/-- The largest number of digits of an integer in a value. -/
def longest : Value → ℕ
  | int n => digitCount n
  | list items => longestItem items
  | map entries => longestEntry entries
  | _ => 0

def longestItem : List Value → ℕ
  | [] => 0
  | v :: vs => max (longest v) (longestItem vs)

def longestEntry : List (Value × Value) → ℕ
  | [] => 0
  | (_, v) :: es => max (longest v) (longestEntry es)

end

theorem longestItem_le {items : List Value} {limit : ℕ} :
    longestItem items ≤ limit ↔ ∀ v ∈ items, longest v ≤ limit := by
  induction items with
  | nil => simp [longestItem]
  | cons v vs ih => rw [longestItem, Nat.max_le, ih, List.forall_mem_cons]

theorem longestEntry_le {es : Entries} {limit : ℕ} :
    longestEntry es ≤ limit ↔ ∀ e ∈ es, longest e.2 ≤ limit := by
  induction es with
  | nil => simp [longestEntry]
  | cons e es ih => rw [longestEntry, Nat.max_le, ih, List.forall_mem_cons]

end Value

namespace Json

/-! ## Entries -/

/-- All keys are texts. -/
def TextKeys {α : Type} (entries : List (Value × α)) : Prop :=
  ∀ e ∈ entries, ∃ s, e.1 = .text s

/-- The text of a key. -/
def keyText (k : Value) : String := (textKey? k).getD ""

/-- The entries in the order in which they are written. -/
def arrange {α : Type} (sorted : Bool) (entries : List (Value × α)) : List (Value × α) :=
  if sorted then entries.mergeSort fun e f => keyText e.1 ≤ keyText f.1 else entries

section Arrange

variable {α β : Type} {sorted : Bool} {entries : List (Value × α)}

theorem mem_arrange {e : Value × α} : e ∈ arrange sorted entries ↔ e ∈ entries := by
  rw [arrange]
  split_ifs
  · exact List.mem_mergeSort
  · rfl

theorem arrange_map (g : Value × α → β) :
    arrange sorted (entries.map fun e => (e.1, g e)) =
      (arrange sorted entries).map fun e => (e.1, g e) := by
  rw [arrange, arrange]
  split_ifs
  · exact (List.map_mergeSort (f := fun e => (e.1, g e)) fun _ _ _ _ => rfl).symm
  · rfl

theorem inOrder_eq (h : TextKeys entries) :
    inOrder sorted entries = .ok (arrange sorted entries) := by
  have hall : (entries.all fun e => (textKey? e.1).isSome) = true := by
    refine List.all_eq_true.mpr fun e he => ?_
    obtain ⟨s, hs⟩ := h e he
    rw [hs]
    rfl
  rw [inOrder, arrange]
  split_ifs with hsorted
  · rw [sortEntries, if_pos hall]
    split_ifs with hlen
    · rcases entries with - | ⟨e, - | ⟨f, es⟩⟩
      · rw [List.mergeSort_nil]
      · rw [List.mergeSort_singleton]
      · simp at hlen
    · rfl
  · rfl

end Arrange

/-- What fails in one way only fails as a whole when it fails somewhere. -/
theorem mapM_ite {α β ε : Type} {f : α → Except ε β} {p : α → Prop} [DecidablePred p] {g : α → β}
    {e : ε} {as : List α} (h : ∀ a ∈ as, f a = if p a then .ok (g a) else .error e) :
    as.mapM f = if ∀ a ∈ as, p a then .ok (as.map g) else .error e := by
  induction as with
  | nil => simp; rfl
  | cons a as ih =>
    obtain ⟨ha, has⟩ := List.forall_mem_cons.mp h
    rw [List.mapM_cons, ha, ih has]
    simp only [List.forall_mem_cons]
    by_cases hp : p a
    · by_cases hps : ∀ a ∈ as, p a
      · rw [if_pos hp, if_pos hps, if_pos ⟨hp, hps⟩]
        rfl
      · rw [if_pos hp, if_neg hps, if_neg fun hall => hps (And.right hall)]
        rfl
    · rw [if_neg hp, if_neg fun hall => hp (And.left hall)]
      rfl

/-! ## Trees -/

mutual

/-- The tree of a native value, the members of objects in sorted or in given order. -/
def tree (sorted : Bool) : Value → Json
  | .bool b => .bool b
  | .int n => .int n
  | .float x => .float x
  | .text s => .text s
  | .list items => .array (trees sorted items)
  | .map entries => .object
      ((arrange sorted (treeEntries sorted entries)).map fun e => (keyText e.1, e.2))
  | _ => .null

def trees (sorted : Bool) : List Value → List Json
  | [] => []
  | v :: vs => tree sorted v :: trees sorted vs

def treeEntries (sorted : Bool) : List (Value × Value) → List (Value × Json)
  | [] => []
  | (k, v) :: es => (k, tree sorted v) :: treeEntries sorted es

end

section Trees

variable {sorted : Bool} {items : List Value} {es : Entries}

theorem trees_eq : trees sorted items = items.map (tree sorted) := by
  induction items with
  | nil => rw [trees, List.map_nil]
  | cons v vs ih => rw [trees, ih, List.map_cons]

theorem treeEntries_eq : treeEntries sorted es = es.map fun e => (e.1, tree sorted e.2) := by
  induction es with
  | nil => rw [treeEntries, List.map_nil]
  | cons e es ih => rw [treeEntries, ih, List.map_cons]

theorem tree_list : tree sorted (.list items) = .array (items.map (tree sorted)) := by
  rw [tree, trees_eq]

theorem tree_map : tree sorted (.map es) =
    .object ((arrange sorted es).map fun e => (keyText e.1, tree sorted e.2)) := by
  rw [tree, treeEntries_eq, arrange_map fun e => tree sorted e.2, List.map_map]
  rfl

theorem ofEntries_eq : ofEntries sorted es = es.map fun e => (e.1, ofValue sorted e.2) := by
  induction es with
  | nil => rw [ofEntries, List.map_nil]
  | cons e es ih => rw [ofEntries, ih, List.map_cons]

theorem ofItems_eq : ofItems sorted items = items.mapM (ofValue sorted) := by
  induction items with
  | nil => rw [ofItems]; rfl
  | cons v vs ih => rw [ofItems, ih, List.mapM_cons]; rfl

theorem ofValue_map (h : TextKeys es) : ofValue sorted (.map es) =
    (((arrange sorted es).map fun e => (e.1, ofValue sorted e.2)).mapM named).map .object := by
  have htexts : TextKeys (es.map fun e => (e.1, ofValue sorted e.2)) := fun e he => by
    obtain ⟨e', he', rfl⟩ := List.mem_map.mp he
    exact h e' he'
  rw [ofValue, ofEntries_eq, inOrder_eq htexts, arrange_map fun e => ofValue sorted e.2, ok_bind]
  cases List.mapM named _ <;> rfl

end Trees

theorem short_eq (n : ℤ) :
    short n = if digitCount n ≤ digitLimit then .ok n else .error .digits := by
  rw [short]
  split_ifs <;> first | rfl | omega

theorem textKeys_of_allNativeEntries {es : Entries} (h : Value.allNativeEntries es = true) :
    TextKeys es := by
  induction es with
  | nil => exact fun _ he => absurd he List.not_mem_nil
  | cons e es ih =>
    rw [Value.allNativeEntries, Bool.and_eq_true, Bool.and_eq_true, decide_eq_true_eq] at h
    obtain ⟨⟨hkey, -⟩, hes⟩ := h
    refine List.forall_mem_cons.mpr ⟨?_, ih hes⟩
    cases hk : e.1 with
    | text s => exact ⟨s, rfl⟩
    | _ => rw [hk] at hkey; cases hkey

mutual

/-- **A native value has its tree, unless an integer is too long.** -/
theorem ofValue_eq (sorted : Bool) : (v : Value) → v.isNative = true →
    ofValue sorted v = if v.longest ≤ digitLimit then .ok (tree sorted v) else .error .digits
  | .null, _ | .bool _, _ | .float _, _ | .text _, _ => by
    rw [ofValue, Value.longest, if_pos (Nat.zero_le _), tree]
    all_goals simp
  | .int n, _ => by
    rw [ofValue, short_eq, Value.longest, tree]
    split_ifs <;> rfl
  | .list items, h => by
    rw [Value.isNative] at h
    rw [ofValue, ofItems_eq, mapM_ite (ofValue_of_mem_items sorted items h), Value.longest,
      tree_list]
    simp only [Value.longestItem_le]
    split_ifs <;> rfl
  | .map entries, h => by
    rw [Value.isNative] at h
    have hnamed : ∀ e ∈ arrange sorted entries,
        (named ∘ fun e => (e.1, ofValue sorted e.2)) e =
        if e.2.longest ≤ digitLimit then .ok (keyText e.1, tree sorted e.2)
        else .error .digits := by
      intro e he
      rw [mem_arrange] at he
      obtain ⟨s, hs⟩ := textKeys_of_allNativeEntries h e he
      rw [Function.comp_apply, named, ofValue_of_mem_entries sorted entries h e he, hs]
      split_ifs <;> rfl
    rw [ofValue_map (textKeys_of_allNativeEntries h), List.mapM_map, mapM_ite hnamed,
      Value.longest, tree_map]
    simp only [Value.longestEntry_le, mem_arrange]
    split_ifs <;> rfl
  | .bytes _, h | .date _, h | .moment _, h | .tuple _, h | .set _, h => by
    simp [Value.isNative] at h

theorem ofValue_of_mem_items (sorted : Bool) : (items : List Value) →
    Value.allNative items = true → ∀ v ∈ items,
      ofValue sorted v = if v.longest ≤ digitLimit then .ok (tree sorted v) else .error .digits
  | [], _ => fun _ h => absurd h List.not_mem_nil
  | v :: vs, h => by
    rw [Value.allNative, Bool.and_eq_true] at h
    exact List.forall_mem_cons.mpr ⟨ofValue_eq sorted v h.1, ofValue_of_mem_items sorted vs h.2⟩

theorem ofValue_of_mem_entries (sorted : Bool) : (entries : List (Value × Value)) →
    Value.allNativeEntries entries = true → ∀ e ∈ entries,
      ofValue sorted e.2 =
        if e.2.longest ≤ digitLimit then .ok (tree sorted e.2) else .error .digits
  | [], _ => fun _ h => absurd h List.not_mem_nil
  | (k, v) :: es, h => by
    rw [Value.allNativeEntries, Bool.and_eq_true, Bool.and_eq_true] at h
    exact List.forall_mem_cons.mpr
      ⟨ofValue_eq sorted v h.1.2, ofValue_of_mem_entries sorted es h.2⟩

end

end Json

/-- **A native value has a canonical JSON text, unless an integer is too long.** -/
theorem canonicalJson_eq {v : Value} (h : v.isNative = true) : canonicalJson v =
    if v.longest ≤ digitLimit then .ok (Json.tree true v).compact else .error .digits := by
  rw [canonicalJson, Json.ofValue_eq true v h]
  split_ifs <;> rfl

end LiveForm
