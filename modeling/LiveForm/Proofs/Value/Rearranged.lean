import Mathlib.Data.List.Forall2
import Mathlib.Data.List.Nodup
import Mathlib.Data.List.Perm.Basic
import LiveForm.Proofs.Value.Decidable
import LiveForm.Proofs.Value.Entries

/-!
# Values up to the order of their entries

Two values are rearranged when they differ at most in the order of the entries of their mappings, at
any depth. Integers, doubles and booleans stay apart. Among storable values, which are made of what
JSON can hold, this is an equivalence, and it is finer than the equality of values.

* `Value.Storable`: null, booleans, numbers without NaN, texts, lists, and mappings with distinct
  text keys;
* `Value.Rearranged`: equal up to the order of entries;
* `Value.Storable.rearranged_self`, `Value.Rearranged.symm`, `Value.Rearranged.trans`: an
  equivalence;
* **`Value.Rearranged.equiv`**: rearranged values are equal as values;
* **`Value.Rearranged.lookup`**: the same stands in rearranged documents, rearranged;
* `Value.Rigid`: values in which there is nothing to rearrange.
-/

namespace LiveForm

namespace Value

/-- **A value that JSON can hold**, without a NaN. -/
inductive Storable : Value → Prop
  | null : Storable null
  | bool (b : Bool) : Storable (bool b)
  | int (n : Int) : Storable (int n)
  | float {x : Binary64} (h : x.isNaN = false) : Storable (float x)
  | text (s : String) : Storable (text s)
  | list {items : List Value} (h : ∀ v ∈ items, Storable v) : Storable (list items)
  | map {entries : Entries} (texts : ∀ e ∈ entries, ∃ s, e.1 = .text s)
    (nodup : (entries.map Prod.fst).Nodup) (h : ∀ e ∈ entries, Storable e.2) :
    Storable (map entries)

mutual

/-- The value is storable. -/
def isStorable : Value → Bool
  | null | bool _ | int _ | text _ => true
  | float x => !x.isNaN
  | list items => allStorable items
  | map entries => decide (entries.map Prod.fst).Nodup && allStorableEntries entries
  | _ => false

def allStorable : List Value → Bool
  | [] => true
  | v :: vs => isStorable v && allStorable vs

def allStorableEntries : List (Value × Value) → Bool
  | [] => true
  | (k, v) :: es => decide (k.kind = .text) && isStorable v && allStorableEntries es

end

theorem kind_eq_text {k : Value} : k.kind = .text ↔ ∃ s, k = .text s := by
  cases k <;> simp [kind]

theorem storable_list {items : List Value} : Storable (.list items) ↔ ∀ v ∈ items, Storable v :=
  ⟨fun h => by cases h; assumption, .list⟩

theorem storable_map {entries : Entries} : Storable (.map entries) ↔
    (entries.map Prod.fst).Nodup ∧ ∀ e ∈ entries, (∃ s, e.1 = .text s) ∧ Storable e.2 := by
  constructor
  · rintro (- | - | - | - | - | - | ⟨texts, nodup, h⟩)
    exact ⟨nodup, fun e he => ⟨texts e he, h e he⟩⟩
  · rintro ⟨nodup, h⟩
    exact .map (fun e he => (h e he).1) nodup fun e he => (h e he).2

mutual

theorem isStorable_iff : (v : Value) → (isStorable v = true ↔ Storable v)
  | .null => ⟨fun _ => .null, fun _ => rfl⟩
  | .bool b => ⟨fun _ => .bool b, fun _ => rfl⟩
  | .int n => ⟨fun _ => .int n, fun _ => rfl⟩
  | .text s => ⟨fun _ => .text s, fun _ => rfl⟩
  | .float x => by
    rw [isStorable, Bool.not_eq_true']
    exact ⟨.float, fun h => by cases h; assumption⟩
  | .list items => by rw [isStorable, allStorable_iff items, storable_list]
  | .map entries => by
    rw [isStorable, Bool.and_eq_true, decide_eq_true_eq, allStorableEntries_iff entries,
      storable_map]
  | .bytes _ | .date _ | .moment _ | .tuple _ | .set _ =>
    ⟨fun h => by simp [isStorable] at h, fun h => nomatch h⟩

theorem allStorable_iff : (items : List Value) →
    (allStorable items = true ↔ ∀ v ∈ items, Storable v)
  | [] => by simp [allStorable]
  | v :: vs => by
    rw [allStorable, Bool.and_eq_true, isStorable_iff v, allStorable_iff vs, List.forall_mem_cons]

theorem allStorableEntries_iff : (entries : List (Value × Value)) →
    (allStorableEntries entries = true ↔ ∀ e ∈ entries, (∃ s, e.1 = .text s) ∧ Storable e.2)
  | [] => by simp [allStorableEntries]
  | (k, v) :: es => by
    rw [allStorableEntries, Bool.and_eq_true, Bool.and_eq_true, decide_eq_true_eq, kind_eq_text,
      isStorable_iff v, allStorableEntries_iff es, List.forall_mem_cons]

end

instance (v : Value) : Decidable (Storable v) := decidable_of_iff _ (isStorable_iff v)

/-- **Equal up to the order of entries**, at any depth. -/
inductive Rearranged : Value → Value → Prop
  | null : Rearranged null null
  | bool (b : Bool) : Rearranged (bool b) (bool b)
  | int (n : Int) : Rearranged (int n) (int n)
  | float (x : Binary64) : Rearranged (float x) (float x)
  | text (s : String) : Rearranged (text s) (text s)
  | list {xs ys : List Value} (length : xs.length = ys.length)
    (h : ∀ i (hi : i < xs.length) (hi' : i < ys.length), Rearranged xs[i] ys[i]) :
    Rearranged (list xs) (list ys)
  | map {es fs : Entries} (keys : (es.map Prod.fst).Perm (fs.map Prod.fst))
    (h : ∀ k v w, (k, v) ∈ es → (k, w) ∈ fs → Rearranged v w) : Rearranged (map es) (map fs)

variable {a b c : Value} {es fs : Entries} {xs ys : List Value}

/-! ## An equivalence -/

theorem eq_of_mem_of_nodup {k v w : Value} (hnodup : (es.map Prod.fst).Nodup) (hv : (k, v) ∈ es)
    (hw : (k, w) ∈ es) : v = w :=
  congrArg Prod.snd (List.inj_on_of_nodup_map hnodup hv hw rfl)

theorem exists_mem_of_keys {k v : Value} (hkeys : (es.map Prod.fst).Perm (fs.map Prod.fst))
    (hv : (k, v) ∈ es) : ∃ w, (k, w) ∈ fs := by
  obtain ⟨f, hf, hkey⟩ := List.mem_map.mp (hkeys.mem_iff.mp (List.mem_map_of_mem hv))
  obtain rfl : f.1 = k := hkey
  exact ⟨f.2, hf⟩

theorem Storable.rearranged_self (h : Storable a) : Rearranged a a := by
  induction h with
  | null => exact .null
  | bool b => exact .bool b
  | int n => exact .int n
  | float _ => exact .float _
  | text s => exact .text s
  | list _ ih => exact .list rfl fun i hi _ => ih _ (List.getElem_mem hi)
  | map _ nodup _ ih =>
    exact .map (.refl _) fun k v w hv hw => eq_of_mem_of_nodup nodup hv hw ▸ ih _ hv

theorem Rearranged.symm (h : Rearranged a b) : Rearranged b a := by
  induction h with
  | null => exact .null
  | bool b => exact .bool b
  | int n => exact .int n
  | float x => exact .float x
  | text s => exact .text s
  | list length _ ih => exact .list length.symm fun i hi hi' => ih i hi' hi
  | map keys _ ih => exact .map keys.symm fun k v w hv hw => ih k w v hw hv

theorem Rearranged.trans (h : Rearranged a b) (h' : Rearranged b c) : Rearranged a c := by
  induction h generalizing c with
  | null | bool | int | float | text => exact h'
  | list length _ ih =>
    cases h' with
    | list length' h' =>
      exact .list (length.trans length') fun i hi hi' => ih i hi (length ▸ hi) (h' i _ hi')
  | map keys _ ih =>
    cases h' with
    | map keys' h' =>
      refine .map (keys.trans keys') fun k v w hv hw => ?_
      obtain ⟨u, hu⟩ := exists_mem_of_keys keys hv
      exact ih k v u hv hu (h' k u w hu hw)

theorem Storable.rearranged (h : Storable a) (hab : Rearranged a b) : Storable b := by
  induction hab with
  | null | bool | int | float | text => exact h
  | list length _ ih =>
    cases h with
    | list h =>
      refine .list fun v hv => ?_
      obtain ⟨i, hi, rfl⟩ := List.getElem_of_mem hv
      exact ih i (length ▸ hi) hi (h _ (List.getElem_mem _))
  | map keys _ ih =>
    cases h with
    | map texts nodup h =>
      refine .map (fun e he => ?_) (keys.nodup_iff.mp nodup) fun e he => ?_
      · obtain ⟨v, hv⟩ := exists_mem_of_keys keys.symm (show (e.1, e.2) ∈ _ from he)
        obtain ⟨s, hs⟩ := texts _ hv
        exact ⟨s, hs⟩
      · obtain ⟨v, hv⟩ := exists_mem_of_keys keys.symm (show (e.1, e.2) ∈ _ from he)
        exact ih _ _ _ hv he (h _ hv)

theorem Rearranged.kind_eq (h : Rearranged a b) : b.kind = a.kind := by cases h <;> rfl

theorem Rearranged.exists_map (h : Rearranged (.map es) b) : ∃ fs, b = .map fs := by
  cases h with
  | @map _ fs => exact ⟨fs, rfl⟩

theorem rearranged_list_iff : Rearranged (list xs) (list ys) ↔ List.Forall₂ Rearranged xs ys := by
  rw [List.forall₂_iff_get]
  constructor
  · rintro (- | - | - | - | - | ⟨length, h⟩)
    exact ⟨length, h⟩
  · rintro ⟨length, h⟩
    exact .list length h

/-! ## Equality -/

theorem equivAll_of_forall₂ (h : List.Forall₂ (fun x y => equiv x y = true) xs ys) :
    equivAll xs ys = true := by
  induction h with
  | nil => rw [equivAll, List.isEmpty_nil]
  | cons hx _ ih => rw [equivAll, Bool.and_eq_true, Bool.or_eq_true]; exact ⟨Or.inr hx, ih⟩

/-- **Rearranged values are equal as values.** -/
theorem Rearranged.equiv (h : Rearranged a b) (ha : Storable a) : equiv a b = true := by
  induction h with
  | null => exact equiv_refl _ rfl
  | bool b => exact equiv_refl _ rfl
  | int n => exact equiv_refl _ rfl
  | text s => exact equiv_refl _ rfl
  | float x =>
    cases ha with
    | float hx => exact equiv_refl _ hx
  | list length _ ih =>
    cases ha with
    | list h =>
      rw [Value.equiv]
      refine equivAll_of_forall₂ (List.forall₂_iff_get.mpr ⟨length, fun i hi hi' => ?_⟩)
      exact ih i hi hi' (h _ (List.getElem_mem hi))
  | @map es fs keys _ ih =>
    cases ha with
    | map texts nodup h =>
      have hlength : es.length = fs.length := by simpa using keys.length_eq
      rw [Value.equiv, Bool.and_eq_true, decide_eq_true_eq]
      refine ⟨hlength, equivEntries_of_forall fun e he => ?_⟩
      obtain ⟨w, hw⟩ := exists_mem_of_keys keys (show (e.1, e.2) ∈ es from he)
      exact ⟨_, hw, alike_refl _, Bool.or_eq_true_iff.mpr (Or.inr (ih _ _ _ he hw (h e he)))⟩

/-! ## Looking up -/

theorem storable_record {members : List (String × Value)} (hkeys : (members.map Prod.fst).Nodup)
    (h : ∀ m ∈ members, Storable m.2) : Storable (record members) := by
  have hfst : (fields members).map Prod.fst = (members.map Prod.fst).map text := by
    rw [fields, List.map_map, List.map_map]
    rfl
  refine .map (fun e he => ?_) (hfst ▸ hkeys.map fun s t heq => by injection heq) fun e he => ?_
  · obtain ⟨m, -, rfl⟩ := List.mem_map.mp he
    exact ⟨m.1, rfl⟩
  · obtain ⟨m, hm, rfl⟩ := List.mem_map.mp he
    exact h m hm

theorem Storable.keyed (h : Storable (.map es)) : Keyed es := by
  cases h with
  | map texts nodup h =>
    refine ⟨fun e he => ?_, ?_⟩
    · obtain ⟨s, hs⟩ := texts e he
      rw [hs]
      rfl
    · refine (List.pairwise_map.mp nodup).imp_of_mem fun {e f} he hf hne => ?_
      obtain ⟨s, hs⟩ := texts e he
      obtain ⟨t, ht⟩ := texts f hf
      rw [hs, ht] at hne ⊢
      rw [alike_text, decide_eq_false_iff_not]
      exact fun heq => hne (congrArg Value.text heq)

theorem Storable.of_record {members : List (String × Value)} (h : Storable (record members)) :
    ∀ m ∈ members, Storable m.2 := fun _ hm =>
  ((storable_map.mp h).2 _ (List.mem_map_of_mem hm)).2

theorem find?_text_eq_none {key : String} (htexts : ∀ e ∈ es, ∃ s, e.1 = text s) :
    find? (text key) es = none ↔ text key ∉ es.map Prod.fst := by
  rw [find?_eq_none]
  constructor
  · intro h hmem
    obtain ⟨e, he, hkey⟩ := List.mem_map.mp hmem
    have halike := h e he
    rw [hkey, alike_refl] at halike
    cases halike
  · intro h e he
    obtain ⟨s, hs⟩ := htexts e he
    rw [hs, alike_text, decide_eq_false_iff_not]
    rintro rfl
    exact h (hs ▸ List.mem_map_of_mem he)

/-- **The same stands at a key of rearranged mappings**, rearranged. -/
theorem Rearranged.lookup? (h : Rearranged a b) (ha : Storable a) (key : String) :
    Option.Rel Rearranged (a.lookup? key) (b.lookup? key) := by
  have hb := ha.rearranged h
  cases h with
  | null | bool | int | float | text => exact .none
  | list => exact .none
  | @map es fs keys h =>
    rw [Value.lookup?, Value.lookup?]
    by_cases hkey : Value.text key ∈ es.map Prod.fst
    · obtain ⟨⟨k, v⟩, hv, rfl⟩ := List.mem_map.mp hkey
      obtain ⟨w, hw⟩ := exists_mem_of_keys keys hv
      rw [ha.keyed.find?_of_mem hv, hb.keyed.find?_of_mem hw]
      exact .some (h _ v w hv hw)
    · have htexts : ∀ {gs : Entries}, Storable (.map gs) → ∀ e ∈ gs, ∃ s, e.1 = Value.text s :=
        fun hgs e he => ((storable_map.mp hgs).2 e he).1
      rw [(find?_text_eq_none (htexts ha)).mpr hkey,
        (find?_text_eq_none (htexts hb)).mpr fun hmem => hkey (keys.mem_iff.mpr hmem)]
      exact .none

theorem Rearranged.lookup (h : Rearranged a b) (ha : Storable a) (key : String) :
    Rearranged (a.lookup key) (b.lookup key) := by
  have hrel := h.lookup? ha key
  rw [Value.lookup, Value.lookup]
  generalize a.lookup? key = v at hrel
  generalize b.lookup? key = w at hrel
  cases hrel with
  | none => exact .null
  | some h => exact h

theorem Storable.lookup (h : Storable a) (key : String) : Storable (a.lookup key) := by
  rw [Value.lookup]
  cases hfind : a.lookup? key with
  | none => exact .null
  | some v =>
    cases a with
    | map es =>
      obtain ⟨k, hmem, -⟩ := exists_mem_of_find? hfind
      exact ((storable_map.mp h).2 _ hmem).2
    | _ => cases hfind

/-! ## Rigid values -/

/-- **Nothing in the value can be rearranged.** -/
def Rigid (a : Value) : Prop := ∀ b, Rearranged a b → b = a

theorem rigid_of_kind (hlist : a.kind ≠ .list) (hmap : a.kind ≠ .map) : Rigid a := by
  rintro b (- | - | - | - | - | - | -)
  · rfl
  · rfl
  · rfl
  · rfl
  · rfl
  · exact absurd rfl hlist
  · exact absurd rfl hmap

theorem rigid_null : Rigid null := rigid_of_kind nofun nofun

theorem rigid_bool (b : Bool) : Rigid (bool b) := rigid_of_kind nofun nofun

theorem rigid_int (n : Int) : Rigid (int n) := rigid_of_kind nofun nofun

theorem rigid_text (s : String) : Rigid (text s) := rigid_of_kind nofun nofun

theorem rigid_optText (s : Option String) : Rigid (optText s) := by
  cases s
  · exact rigid_null
  · exact rigid_text _

theorem rigid_optInt (n : Option Int) : Rigid (optInt n) := by
  cases n
  · exact rigid_null
  · exact rigid_int _

theorem rigid_optNumber (n : Option Number) : Rigid (optNumber n) := by
  rcases n with - | n | x
  · exact rigid_null
  · exact rigid_int _
  · exact rigid_of_kind nofun nofun

theorem rigid_list (h : ∀ v ∈ xs, Rigid v) : Rigid (list xs) := by
  rintro b (- | - | - | - | - | @⟨_, ys, length, hxy⟩ | -)
  refine congrArg list (List.ext_getElem length.symm fun i hi hi' => ?_)
  exact h _ (List.getElem_mem hi') _ (hxy i hi' hi)

theorem rigid_texts (ss : List String) : Rigid (texts ss) := by
  refine rigid_list fun v hv => ?_
  obtain ⟨s, -, rfl⟩ := List.mem_map.mp hv
  exact rigid_text s

theorem rigid_nil : Rigid (map []) := by
  rintro b (- | - | - | - | - | - | @⟨_, fs, keys, -⟩)
  rw [List.map_eq_nil_iff.mp (List.nil_perm.mp keys)]

theorem rigid_singleton {k v : Value} (h : Rigid v) : Rigid (map [(k, v)]) := by
  rintro b (- | - | - | - | - | - | @⟨_, fs, keys, hfs⟩)
  obtain ⟨⟨k', w⟩, rfl, hkey⟩ := List.map_eq_singleton_iff.mp (List.perm_singleton.mp keys.symm)
  obtain rfl : k' = k := hkey
  rw [h w (hfs k' v w List.mem_cons_self List.mem_cons_self)]

end Value

end LiveForm
