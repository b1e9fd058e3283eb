import LiveForm.Config.Basic
import LiveForm.Proofs.Json.Native
import LiveForm.Proofs.Json.Reading
import LiveForm.Proofs.Schema.Native
import LiveForm.Proofs.Value.Rearranged

/-!
# The canonical text of a value

The canonical text of a storable value stands for the value up to the order of entries. Sorting the
members of objects makes rearranged values one tree, and no two trees have one text, since a text is
read back. Integers with too many digits are neither written nor read, so a value that holds one has
no text.

* `Json.tree_eq_of_rearranged`: rearranged values have one tree;
* `Json.rearranged_toValue`: the value of the tree of a value is that value, rearranged;
* `Json.reread_tree`: what comes back of a tree;
* `Value.ofJsonText_compact`: what is read of the text of a tree;
* **`Value.canonicalJson_identifies`**: the canonical text identifies a value.
-/

namespace LiveForm

namespace Value

variable {a b v : Value} {es fs : Entries} {items : List Value} {limit : ℕ}

theorem isNative_map (htexts : ∀ e ∈ es, ∃ s, e.1 = .text s) (h : ∀ e ∈ es, e.2.isNative = true) :
    (map es).isNative = true := by
  rw [isNative]
  induction es with
  | nil => rw [allNativeEntries]
  | cons e es ih =>
    obtain ⟨⟨s, hs⟩, htexts⟩ := List.forall_mem_cons.mp htexts
    obtain ⟨he, hes⟩ := List.forall_mem_cons.mp h
    rw [allNativeEntries, hs, he, ih htexts hes]
    rfl

theorem Storable.isNative (h : Storable v) : v.isNative = true := by
  induction h with
  | null | bool | int | float | text => rw [Value.isNative]
  | list _ ih => exact isNative_list.mpr ih
  | map texts _ _ ih => exact isNative_map texts ih

end Value

open Value

namespace Json

variable {a b v : Value} {es fs : Entries} {items : List Value} {limit : ℕ}

/-! ## One tree for all orders -/

theorem eq_text_of_keyText {k : Value} (h : ∃ s, k = .text s) : k = .text (keyText k) := by
  obtain ⟨s, rfl⟩ := h
  rfl

theorem keys_sorted_eq (htexts : TextKeys es) (hkeys : (es.map Prod.fst).Perm (fs.map Prod.fst)) :
    (arrange true es).map Prod.fst = (arrange true fs).map Prod.fst := by
  have hmap : ∀ es : Entries, (arrange true es).map Prod.fst =
      (es.map Prod.fst).mergeSort fun k l => keyText k ≤ keyText l :=
    fun es => List.map_mergeSort fun _ _ _ _ => rfl
  have hsorted : ∀ ks : List Value, (ks.mergeSort fun k l => keyText k ≤ keyText l).Pairwise
      fun k l => decide (keyText k ≤ keyText l) = true := by
    refine List.pairwise_mergeSort (fun k l m hkl hlm => ?_) fun k l => ?_
    · rw [decide_eq_true_eq] at *
      exact String.le_trans hkl hlm
    · rw [Bool.or_eq_true, decide_eq_true_eq, decide_eq_true_eq]
      exact String.le_total _ _
  have htext : ∀ k ∈ es.map Prod.fst, k = .text (keyText k) := fun k hk => by
    obtain ⟨e, he, rfl⟩ := List.mem_map.mp hk
    exact eq_text_of_keyText (htexts e he)
  rw [hmap, hmap]
  refine List.Perm.eq_of_pairwise (fun k l hk hl hkl hlk => ?_) (hsorted _) (hsorted _)
    ((List.mergeSort_perm _ _).trans (hkeys.trans (List.mergeSort_perm _ _).symm))
  rw [decide_eq_true_eq] at hkl hlk
  rw [htext k (List.mem_mergeSort.mp hk), htext l (hkeys.mem_iff.mpr (List.mem_mergeSort.mp hl)),
    String.le_antisymm hkl hlk]

/-- Entries with the same keys in the same order give the same members when equal keys have equal
trees. -/
theorem members_eq_of_keys (hkeys : es.map Prod.fst = fs.map Prod.fst)
    (h : ∀ k v w, (k, v) ∈ es → (k, w) ∈ fs → tree true v = tree true w) :
    (es.map fun e => (keyText e.1, tree true e.2)) =
      fs.map fun e => (keyText e.1, tree true e.2) := by
  induction es generalizing fs with
  | nil => rw [List.map_eq_nil_iff.mp hkeys.symm]
  | cons e es ih =>
    obtain ⟨f, fs, rfl, hkey, hkeys⟩ := List.map_eq_cons_iff.mp hkeys.symm
    have hhead : tree true e.2 = tree true f.2 :=
      h e.1 e.2 f.2 List.mem_cons_self (by rw [← hkey]; exact List.mem_cons_self)
    rw [List.map_cons, List.map_cons, hkey, hhead, ih hkeys.symm fun k v w hv hw =>
      h k v w (List.mem_cons_of_mem _ hv) (List.mem_cons_of_mem _ hw)]

/-- **Rearranged values have one tree.** -/
theorem tree_eq_of_rearranged (h : Rearranged a b) (ha : Storable a) :
    tree true a = tree true b := by
  induction h with
  | null | bool | int | float | text => rfl
  | list length h ih =>
    cases ha.rearranged (.list length h) with
    | list hys =>
      cases ha with
      | list hxs =>
        rw [tree_list, tree_list]
        refine congrArg array (List.ext_getElem (by simpa using length) fun i hi hi' => ?_)
        rw [List.length_map] at hi hi'
        rw [List.getElem_map, List.getElem_map]
        exact ih i hi hi' (hxs _ (List.getElem_mem hi))
  | map keys h ih =>
    rw [tree_map, tree_map]
    cases ha with
    | map texts _ hes =>
      refine congrArg object (members_eq_of_keys (keys_sorted_eq texts keys) fun k v w hv hw => ?_)
      rw [mem_arrange] at hv hw
      exact ih k v w hv hw (hes _ hv)

/-! ## The way back -/

theorem toValues_eq (js : List Json) : toValues js = js.map toValue := by
  induction js with
  | nil => rfl
  | cons j js ih => rw [toValues, ih, List.map_cons]

theorem toEntries_eq (ms : List (String × Json)) :
    toEntries ms = ms.map fun m => (.text m.1, toValue m.2) := by
  induction ms with
  | nil => rfl
  | cons m ms ih => rw [toEntries, ih, List.map_cons]

theorem toValue_tree_map (h : Storable (map es)) :
    toValue (tree true (map es)) =
      map ((arrange true es).map fun e => (e.1, toValue (tree true e.2))) := by
  have htexts : ∀ e ∈ arrange true es, e.1 = .text (keyText e.1) := by
    cases h with
    | map texts _ _ => exact fun e he => eq_text_of_keyText (texts e (mem_arrange.mp he))
  have hentries : toEntries ((arrange true es).map fun e => (keyText e.1, tree true e.2)) =
      (arrange true es).map fun e => (e.1, toValue (tree true e.2)) := by
    rw [toEntries_eq, List.map_map]
    exact List.map_congr_left fun e he => by rw [htexts e he]; rfl
  have hsorted : Storable (map (arrange true es)) := by
    cases h with
    | map texts nodup h =>
      exact .map (fun e he => texts e (mem_arrange.mp he))
        (((List.mergeSort_perm es _).map Prod.fst).nodup_iff.mpr nodup)
        fun e he => h e (mem_arrange.mp he)
  have hdistinct : ((arrange true es).map fun e => (e.1, toValue (tree true e.2))).Pairwise
      fun e f => alike e.1 f.1 = false := List.pairwise_map.mpr hsorted.keyed.distinct
  rw [tree_map, toValue, hentries, collect_eq hdistinct]

/-- **The value of the tree of a value is that value, rearranged.** -/
theorem rearranged_toValue (h : Storable v) : Rearranged (toValue (tree true v)) v := by
  induction h with
  | null => exact .null
  | bool b => exact .bool b
  | int n => exact .int n
  | float h => exact .float _
  | text s => exact .text s
  | list h ih =>
    rw [tree_list, toValue, toValues_eq, List.map_map]
    refine .list (by simp) fun i hi hi' => ?_
    rw [List.getElem_map]
    exact ih _ (List.getElem_mem hi')
  | @map es texts nodup h ih =>
    rw [toValue_tree_map (.map texts nodup h)]
    refine .map ?_ fun k v w hv hw => ?_
    · rw [List.map_map]
      exact (List.mergeSort_perm _ _).map Prod.fst
    · obtain ⟨e, he, heq⟩ := List.mem_map.mp hv
      obtain ⟨rfl, rfl⟩ := Prod.mk.inj heq
      rw [mem_arrange] at he
      rw [← eq_of_mem_of_nodup nodup he hw]
      exact ih e he

theorem rereadFloat_of_not_isNaN {x : Binary64} (h : x.isNaN = false) : rereadFloat x = x := by
  cases x with
  | nan label => exact absurd h (by simp [Binary64.isNaN])
  | _ => rfl

/-- **What comes back of the tree of a value**: the tree, unless an integer is too long. -/
theorem reread_tree (h : Storable v) : reread limit (tree true v) =
    if v.longest ≤ limit then .ok (tree true v) else .error .hugeInteger := by
  induction h with
  | null | bool b | text s =>
    rw [if_pos (by simp [longest])]
    exact rfl
  | int n =>
    change reread limit (int n) = _
    rw [reread, longest]
    by_cases hlong : limit < digitCount n
    · rw [if_pos hlong, if_neg (by omega)]
    · rw [if_neg hlong, if_pos (by omega)]
      rfl
  | float h =>
    rw [if_pos (by simp [longest])]
    change reread limit (float _) = _
    rw [reread, rereadFloat_of_not_isNaN h]
    rfl
  | @list items h ih =>
    rw [tree_list, reread, rereadItems_eq, List.mapM_map,
      mapM_ite (f := reread limit ∘ tree true) ih, longest]
    simp only [longestItem_le]
    split_ifs <;> rfl
  | @map es texts nodup h ih =>
    have hmembers : ∀ e ∈ arrange true es,
        ((fun m : String × Json => (reread limit m.2).map (m.1, ·)) ∘
          fun e : Value × Value => (keyText e.1, tree true e.2)) e =
        if e.2.longest ≤ limit then .ok (keyText e.1, tree true e.2) else .error .hugeInteger := by
      intro e he
      change (reread limit (tree true e.2)).map _ = _
      rw [ih e (mem_arrange.mp he)]
      split_ifs <;> rfl
    rw [tree_map, reread, rereadMembers_eq, List.mapM_map, mapM_ite hmembers,
      longest]
    simp only [longestEntry_le, mem_arrange]
    split_ifs <;> rfl

end Json

open Json

namespace Value

variable {a b v : Value}

theorem tree_eq_of_compact (ha : Storable a) (hb : Storable b)
    (h : (tree true a).compact = (tree true b).compact) : tree true a = tree true b := by
  -- The text is read with a limit that none of the integers exceeds.
  have hread : ∀ {v : Value}, Storable v → v.longest ≤ max a.longest b.longest →
      Reads (max a.longest b.longest) (compactChars (tree true v)) (.ok (tree true v)) := by
    intro v hv hle
    have hreads := @reads_compactChars (max a.longest b.longest) (tree true v)
    rwa [reread_tree hv, if_pos hle] at hreads
  have hchars : compactChars (tree true a) = compactChars (tree true b) := String.ofList_injective h
  have hb' := hread hb (Nat.le_max_right _ _)
  rw [← hchars] at hb'
  exact Except.ok.inj ((hread ha (Nat.le_max_left _ _)).unique hb')

theorem ofJsonText_compact (h : Storable v) : ofJsonText (tree true v).compact =
    if v.longest ≤ digitLimit then .ok (toValue (tree true v)) else .error .hugeInteger := by
  rw [ofJsonText, parse_compact, reread_tree h]
  split_ifs <;> rfl

/-- **The canonical text identifies a value** up to the order of entries, and reading it gives the
value back, up to that order. There is a text just when no integer has too many digits. A
configuration is known by the digest of that text. -/
theorem canonicalJson_identifies (ha : Storable a) (hb : Storable b) :
    ((∃ s, canonicalJson a = .ok s) ↔ a.longest ≤ digitLimit) ∧
      (digitLimit < a.longest → canonicalJson a = .error .digits) ∧
      ∀ s, canonicalJson a = .ok s →
        (∀ t, canonicalJson b = .ok t → (s = t ↔ Rearranged a b)) ∧
        (∃ v, ofJsonText s = .ok v ∧ Rearranged v a) ∧
        ∀ entries, a = .map entries → Config.digest a = .ok (textDigest s) := by
  rw [canonicalJson_eq ha.isNative]
  by_cases hshort : a.longest ≤ digitLimit
  · rw [if_pos hshort]
    refine ⟨⟨fun _ => hshort, fun _ => ⟨_, rfl⟩⟩, fun hlong => absurd hshort (Nat.not_le.mpr hlong),
      fun s hs => ?_⟩
    obtain rfl := Except.ok.inj hs
    refine ⟨fun t ht => ?_, ⟨_, (ofJsonText_compact ha).trans (if_pos hshort),
      rearranged_toValue ha⟩, ?_⟩
    · rw [canonicalJson_eq hb.isNative] at ht
      split_ifs at ht
      obtain rfl := Except.ok.inj ht
      constructor
      · intro h
        have htree := tree_eq_of_compact ha hb h
        exact (rearranged_toValue ha).symm.trans (htree ▸ rearranged_toValue hb)
      · exact fun h => by rw [tree_eq_of_rearranged h ha]
    · rintro entries rfl
      rw [Config.digest, canonicalJson_eq ha.isNative, if_pos hshort]
  · rw [if_neg hshort]
    refine ⟨⟨fun h => ?_, fun h => absurd h hshort⟩, fun _ => rfl, fun s hs => ?_⟩
    · obtain ⟨s, hs⟩ := h
      cases hs
    · cases hs

/-- A line of an order. -/
def orderLine : Value := record [
  ("count", int 2),
  ("price", float (.finite false ⟨4612811918334230528, by decide⟩)),
  ("tags", list [text "\"new\"", null, record []])]

/-- The same line, written in another order. -/
def orderLineReordered : Value := record [
  ("tags", list [text "\"new\"", null, record []]),
  ("price", float (.finite false ⟨4612811918334230528, by decide⟩)),
  ("count", int 2)]

theorem orderLine_identifies : Storable orderLine ∧ Storable orderLineReordered ∧
    ((∃ s, canonicalJson orderLine = .ok s) ↔ orderLine.longest ≤ digitLimit) ∧
      (digitLimit < orderLine.longest → canonicalJson orderLine = .error .digits) ∧
      ∀ s, canonicalJson orderLine = .ok s →
        (∀ t, canonicalJson orderLineReordered = .ok t →
          (s = t ↔ Rearranged orderLine orderLineReordered)) ∧
        (∃ v, ofJsonText s = .ok v ∧ Rearranged v orderLine) ∧
        ∀ entries, orderLine = .map entries → Config.digest orderLine = .ok (textDigest s) :=
  have horder : Storable orderLine := by decide
  have hreordered : Storable orderLineReordered := by decide
  ⟨horder, hreordered, canonicalJson_identifies horder hreordered⟩

/-- The least integer that has too many digits has no text. -/
theorem not_written_of_digits : Storable (int (10 ^ 4300)) ∧
    ¬ ∃ s, canonicalJson (int (10 ^ 4300)) = .ok s := by
  have hlong : (int (10 ^ 4300)).longest = 4301 := by
    rw [longest]
    decide +kernel
  refine ⟨.int _, ?_⟩
  rw [canonicalJson_eq (by rw [isNative]), hlong, if_neg (by decide)]
  exact fun h => nomatch h.choose_spec

end Value

end LiveForm
