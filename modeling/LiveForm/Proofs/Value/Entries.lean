import LiveForm.Proofs.Value.Reflexive
import LiveForm.Proofs.Value.Transitive

/-!
# Entries of mappings

The keys of a mapping are hashable, and no two of them are equal. Reading and writing the entries
of such a mapping goes by keys up to equality.

* `Value.alike_refl`, `Value.alike_symm`, `Value.alike_trans`: equality of keys is an equivalence;
* `Value.Keyed`: the keys are hashable and distinct;
* **`Value.find?_put`, `Value.keys_put`**: what writing an entry does;
* **`Value.Keyed.ext`**: entries are known by their keys and what is found there;
* `Value.wellKeyed`: a value all of whose mappings have such keys.
-/

namespace LiveForm

namespace Value

variable {a b k key v : Value} {es fs : Entries} {e : Value × Value}

/-! ## Equality of keys -/

theorem alike_refl (v : Value) : alike v v = true := shared_or_equiv (equiv_refl v)

theorem alike_trans {c : Value} (hab : alike a b = true) (hbc : alike b c = true) :
    alike a c = true :=
  alike_trans_of (equiv_trans a) hab hbc

theorem alike_symm_of (hsymm : equiv a b = true → equiv b a = true) (h : alike a b = true) :
    alike b a = true := by
  rcases Bool.or_eq_true_iff.mp h with hshared | hequiv
  · rw [eq_of_sharedNaN hshared]
    exact alike_refl b
  · exact Bool.or_eq_true_iff.mpr (Or.inr (hsymm hequiv))

theorem equiv_of_scalarEquiv (h : scalarEquiv a b = true) : equiv a b = true := by
  cases a with
  | list _ | tuple _ | set _ | map _ =>
    obtain ⟨e, he, -⟩ := scalarEquiv_iff.mp h
    simp [essence?, extent?, number?] at he
  | _ => simpa [equiv] using h

theorem scalarEquiv_symm (h : scalarEquiv a b = true) : scalarEquiv b a = true := by
  obtain ⟨e, ha, hb⟩ := scalarEquiv_iff.mp h
  exact scalarEquiv_iff.mpr ⟨e, hb, ha⟩

mutual

/-- **Equality of keys is symmetric.** -/
theorem equiv_symm : (a : Value) → a.isKey = true → ∀ {b : Value}, equiv a b = true →
    equiv b a = true
  | .tuple xs, hkey, b, h => by
    cases b with
    | tuple ys =>
      rw [isKey] at hkey
      rw [equiv] at h ⊢
      exact equivAll_symm xs hkey h
    | _ => simp [equiv] at h
  | .list _, hkey, _, _ | .set _, hkey, _, _ | .map _, hkey, _, _ => by simp [isKey] at hkey
  | .null, _, _, h | .bool _, _, _, h | .int _, _, _, h | .float _, _, _, h | .text _, _, _, h
  | .bytes _, _, _, h | .date _, _, _, h | .moment _, _, _, h => by
    simp only [equiv] at h
    exact equiv_of_scalarEquiv (scalarEquiv_symm h)

theorem equivAll_symm : (xs : List Value) → allKeys xs = true → ∀ {ys : List Value},
    equivAll xs ys = true → equivAll ys xs = true
  | [], _, ys, h => by
    cases ys with
    | nil => exact h
    | cons y ys => simp [equivAll] at h
  | x :: xs, hkeys, ys, h => by
    cases ys with
    | nil => simp [equivAll] at h
    | cons y ys =>
      rw [allKeys, Bool.and_eq_true] at hkeys
      rw [equivAll, Bool.and_eq_true] at h ⊢
      exact ⟨alike_symm_of (equiv_symm x hkeys.1) h.1, equivAll_symm xs hkeys.2 h.2⟩

end

theorem alike_symm (hkey : a.isKey = true) (h : alike a b = true) : alike b a = true :=
  alike_symm_of (equiv_symm a hkey) h

theorem alike_text (a b : String) : alike (text a) (text b) = decide (a = b) := by
  simp [alike, sharedNaN, equiv, scalarEquiv]

/-! ## Finding -/

@[simp] theorem find?_nil (key : Value) : find? key [] = none := rfl

theorem find?_cons (key : Value) (e : Value × Value) (es : Entries) :
    find? key (e :: es) = if alike e.1 key then some e.2 else find? key es := by
  rw [find?, List.find?_cons]
  cases alike e.1 key <;> rfl

theorem find?_eq_none : find? key es = none ↔ ∀ e ∈ es, alike e.1 key = false := by
  rw [find?, Option.map_eq_none_iff, List.find?_eq_none]
  simp only [Bool.not_eq_true]

theorem exists_mem_of_find? (h : find? key es = some v) :
    ∃ k, (k, v) ∈ es ∧ alike k key = true := by
  obtain ⟨e, he, rfl⟩ := Option.map_eq_some_iff.mp h
  have hkey := List.find?_some he
  exact ⟨e.1, List.mem_of_find?_eq_some he, hkey⟩

theorem find?_congr (hkey : key.isKey = true) (h : alike key k = true) (es : Entries) :
    find? k es = find? key es := by
  have hsame : ∀ e : Value × Value, alike e.1 k = alike e.1 key := fun e => Bool.eq_iff_iff.mpr
    ⟨fun he => alike_trans he (alike_symm hkey h), fun he => alike_trans he h⟩
  rw [find?, find?]
  simp only [hsame]

/-- **The keys of a mapping are hashable, and no two are equal.** -/
structure Keyed (es : Entries) : Prop where
  isKey : ∀ e ∈ es, e.1.isKey = true
  distinct : es.Pairwise fun e f => alike e.1 f.1 = false

namespace Keyed

theorem nil : Keyed [] := ⟨fun _ h => absurd h List.not_mem_nil, List.Pairwise.nil⟩

theorem cons_iff : Keyed (e :: es) ↔
    e.1.isKey = true ∧ (∀ f ∈ es, alike e.1 f.1 = false) ∧ Keyed es := by
  constructor
  · rintro ⟨hkey, hdistinct⟩
    obtain ⟨he, hes⟩ := List.forall_mem_cons.mp hkey
    obtain ⟨hnew, hrest⟩ := List.pairwise_cons.mp hdistinct
    exact ⟨he, hnew, hes, hrest⟩
  · rintro ⟨he, hnew, hes, hrest⟩
    exact ⟨List.forall_mem_cons.mpr ⟨he, hes⟩, List.pairwise_cons.mpr ⟨hnew, hrest⟩⟩

theorem find?_of_mem (h : Keyed es) (he : e ∈ es) : find? e.1 es = some e.2 := by
  induction es with
  | nil => cases he
  | cons f es ih =>
    obtain ⟨-, hnew, hes⟩ := cons_iff.mp h
    rw [find?_cons]
    rcases List.mem_cons.mp he with rfl | he
    · rw [alike_refl, if_pos rfl]
    · rw [hnew e he, if_neg Bool.false_ne_true, ih hes he]

/-- **Entries are known by their keys and what is found there.** -/
theorem ext (hes : Keyed es) (hfs : Keyed fs) (hkeys : fs.map Prod.fst = es.map Prod.fst)
    (hfind : ∀ e ∈ es, find? e.1 fs = find? e.1 es) : fs = es := by
  refine List.ext_getElem (by simpa using congrArg List.length hkeys) fun i hi hi' => ?_
  have hkey : fs[i].1 = es[i].1 := by
    have hget := congrArg (·[i]?) hkeys
    simpa [List.getElem?_map, hi, hi'] using hget
  have hvalue : some fs[i].2 = some es[i].2 := by
    rw [← hes.find?_of_mem (List.getElem_mem hi'), ← hfind _ (List.getElem_mem hi'), ← hkey,
      hfs.find?_of_mem (List.getElem_mem hi)]
  exact Prod.ext hkey (Option.some.inj hvalue)

end Keyed

/-! ## Writing -/

/-- **What is found after an entry is written.** -/
theorem find?_put (hes : ∀ e ∈ es, e.1.isKey = true) (hkey : key.isKey = true) (v : Value) :
    find? k (put key v es) = if alike key k then some v else find? k es := by
  induction es with
  | nil => rw [put, find?_cons]
  | cons e es ih =>
    obtain ⟨he, hes⟩ := List.forall_mem_cons.mp hes
    rw [put]
    by_cases hek : alike e.1 key = true
    · -- The entry keeps its own key, which is found where the written key is.
      have hsame : alike e.1 k = alike key k := Bool.eq_iff_iff.mpr
        ⟨alike_trans (alike_symm he hek), alike_trans hek⟩
      rw [if_pos hek, find?_cons, find?_cons, hsame]
      split <;> rfl
    · rw [if_neg hek, find?_cons, find?_cons, ih hes]
      by_cases hk : alike e.1 k = true
      · have hother : ¬ alike key k = true := fun hkk =>
          hek (alike_trans hk (alike_symm hkey hkk))
        rw [if_pos hk, if_neg hother, if_pos hk]
      · rw [if_neg hk, if_neg hk]

/-- **The keys after an entry is written.** -/
theorem keys_put (key v : Value) (es : Entries) : (put key v es).map Prod.fst =
    es.map Prod.fst ++ if (find? key es).isSome then [] else [key] := by
  induction es with
  | nil => rfl
  | cons e es ih =>
    rw [put, find?_cons]
    by_cases hek : alike e.1 key = true
    · simp [hek]
    · simp [hek, ih]

theorem mem_put {f : Value × Value} (h : f ∈ put key v es) :
    (∃ e ∈ es, f.1 = e.1) ∨ f.1 = key ∧ find? key es = none := by
  have hmem := List.mem_map_of_mem (f := Prod.fst) h
  rw [keys_put, List.mem_append] at hmem
  rcases hmem with hmem | hmem
  · obtain ⟨e, he, hkey⟩ := List.mem_map.mp hmem
    exact Or.inl ⟨e, he, hkey.symm⟩
  · split at hmem
    · cases hmem
    · next hnone =>
      exact Or.inr ⟨List.mem_singleton.mp hmem, Option.not_isSome_iff_eq_none.mp hnone⟩

theorem Keyed.put (h : Keyed es) (hkey : key.isKey = true) (v : Value) :
    Keyed (Value.put key v es) := by
  constructor
  · intro f hf
    rcases mem_put hf with ⟨e, he, heq⟩ | ⟨heq, -⟩
    · rw [heq]
      exact h.isKey e he
    · rw [heq]
      exact hkey
  · have hkeys : (es.map Prod.fst).Pairwise fun k k' => alike k k' = false :=
      List.pairwise_map.mpr h.distinct
    rw [← List.pairwise_map (f := Prod.fst) (R := fun k k' => alike k k' = false), keys_put]
    split
    · rwa [List.append_nil]
    · next hnone =>
      refine List.pairwise_append.mpr ⟨hkeys, List.pairwise_singleton _ _, ?_⟩
      intro k hk k' hk'
      obtain ⟨e, he, rfl⟩ := List.mem_map.mp hk
      rw [List.mem_singleton.mp hk']
      exact find?_eq_none.mp (Option.not_isSome_iff_eq_none.mp hnone) e he

theorem put_eq_append (h : find? key es = none) (v : Value) : put key v es = es ++ [(key, v)] := by
  induction es with
  | nil => rfl
  | cons e es ih =>
    obtain ⟨he, hes⟩ := List.forall_mem_cons.mp (find?_eq_none.mp h)
    rw [put, he, if_neg Bool.false_ne_true, ih (find?_eq_none.mpr hes), List.cons_append]

/-- **Distinct entries are all kept.** -/
theorem collect_eq (h : es.Pairwise fun e f => alike e.1 f.1 = false) : collect es = es := by
  have hfold : ∀ {es acc : Entries}, (acc ++ es).Pairwise (fun e f => alike e.1 f.1 = false) →
      es.foldl (fun acc e => put e.1 e.2 acc) acc = acc ++ es := by
    intro es
    induction es with
    | nil => exact fun _ => (List.append_nil _).symm
    | cons e es ih =>
      intro acc h
      have hnew : find? e.1 acc = none := find?_eq_none.mpr fun f hf =>
        (List.pairwise_append.mp h).2.2 f hf e List.mem_cons_self
      rw [List.append_cons] at h
      rw [List.foldl_cons, put_eq_append hnew, ih h, List.append_assoc, List.singleton_append]
  exact hfold h

/-! ## Nested mappings -/

mutual

/-- All mappings in the value have hashable keys, no two of them equal. -/
def wellKeyed : Value → Bool
  | list items | tuple items | set items => allWellKeyed items
  | map entries => wellKeyedEntries entries
  | _ => true

def allWellKeyed : List Value → Bool
  | [] => true
  | v :: vs => wellKeyed v && allWellKeyed vs

def wellKeyedEntries : List (Value × Value) → Bool
  | [] => true
  | (k, v) :: es => k.isKey && es.all (fun e => !alike k e.1) && wellKeyed v && wellKeyedEntries es

end

theorem wellKeyedEntries_iff : wellKeyedEntries es = true ↔
    Keyed es ∧ ∀ e ∈ es, e.2.wellKeyed = true := by
  induction es with
  | nil => simp [wellKeyedEntries, Keyed.nil]
  | cons e es ih =>
    rw [wellKeyedEntries, Bool.and_eq_true, Bool.and_eq_true, Bool.and_eq_true, ih,
      Keyed.cons_iff, List.forall_mem_cons, List.all_eq_true]
    simp only [Bool.not_eq_true']
    grind

theorem wellKeyed_map : (map es).wellKeyed = true ↔ Keyed es ∧ ∀ e ∈ es, e.2.wellKeyed = true := by
  rw [wellKeyed, wellKeyedEntries_iff]

end Value

end LiveForm
