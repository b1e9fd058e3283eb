import LiveForm.Proofs.Value.Entries
import LiveForm.Schema.FreeValue

/-!
# Symmetry of equality

Containers compare in one direction: every member of the first set, and every entry of the first
mapping, has an equal one in the second. Since sets do not repeat a member and mappings do not
repeat a key, as many of them on both sides leave none over.

* `exists_of_forall_exists`: the counting;
* `Value.proper`: no set repeats a member, and no mapping a key;
* **`Value.proper_equiv_symm`**: equality of such values is symmetric;
* `Value.proper_encode`: writing dates as texts keeps a value proper;
* `Value.proper_record`, `Value.proper_lookup`: documents, and what stands in them.
-/

namespace LiveForm

/-- Among as many things on both sides, where everything on the left has a partner on the right and
no two have one in common, everything on the right is a partner. -/
theorem exists_of_forall_exists {α β : Type} {r : α → β → Prop} {as : List α} {bs : List β}
    (hlength : as.length = bs.length)
    (hdistinct : as.Pairwise fun a a' => ∀ b, r a b → ¬ r a' b)
    (h : ∀ a ∈ as, ∃ b ∈ bs, r a b) : ∀ b ∈ bs, ∃ a ∈ as, r a b := by
  induction as generalizing bs with
  | nil =>
    rw [List.length_nil, eq_comm, List.length_eq_zero_iff] at hlength
    rw [hlength]
    exact fun _ hb => absurd hb List.not_mem_nil
  | cons a as ih =>
    obtain ⟨⟨b, hb, hab⟩, has⟩ := List.forall_mem_cons.mp h
    obtain ⟨hother, hdistinct⟩ := List.pairwise_cons.mp hdistinct
    obtain ⟨before, after, rfl⟩ := List.append_of_mem hb
    have hrest : ∀ a' ∈ as, ∃ b' ∈ before ++ after, r a' b' := by
      intro a' ha'
      obtain ⟨b', hb', hab'⟩ := has a' ha'
      refine ⟨b', ?_, hab'⟩
      have hne : b' ≠ b := fun heq => hother a' ha' b hab (heq ▸ hab')
      simpa [hne] using hb'
    have hlength' : as.length = (before ++ after).length := by
      simpa [Nat.add_assoc, ← Nat.add_assoc] using hlength
    intro c hc
    by_cases hcb : c = b
    · exact ⟨a, List.mem_cons_self, hcb ▸ hab⟩
    · obtain ⟨a', ha', hac⟩ := ih hlength' hdistinct hrest c (by simpa [hcb] using hc)
      exact ⟨a', List.mem_cons_of_mem a ha', hac⟩

namespace Value

/-! ## Proper values -/

/-- The values are hashable, and no two of them are equal. -/
def distinctKeys : List Value → Bool
  | [] => true
  | k :: ks => k.isKey && ks.all (fun l => !alike k l) && distinctKeys ks

mutual

/-- **No set in the value repeats a member, and no mapping a key**, and all of these are
hashable. -/
def proper : Value → Bool
  | list items | tuple items => allProper items
  | set items => distinctKeys items
  | map entries => distinctKeys (entries.map Prod.fst) && allProperEntries entries
  | _ => true

def allProper : List Value → Bool
  | [] => true
  | v :: vs => proper v && allProper vs

def allProperEntries : List (Value × Value) → Bool
  | [] => true
  | (_, v) :: es => proper v && allProperEntries es

end

variable {a b : Value} {ks : List Value}

theorem distinctKeys_iff : distinctKeys ks = true ↔
    (∀ k ∈ ks, k.isKey = true) ∧ ks.Pairwise fun k l => alike k l = false := by
  induction ks with
  | nil => simp [distinctKeys]
  | cons k ks ih =>
    rw [distinctKeys, Bool.and_eq_true, Bool.and_eq_true, ih, List.all_eq_true,
      List.forall_mem_cons, List.pairwise_cons]
    simp only [Bool.not_eq_true']
    grind

theorem pairwise_of_distinctKeys (h : distinctKeys ks = true) :
    ks.Pairwise fun k l => ∀ v, alike k v = true → ¬ alike l v = true := by
  obtain ⟨hkeys, hdistinct⟩ := distinctKeys_iff.mp h
  refine hdistinct.imp_of_mem fun hk hl hkl v hkv hlv => ?_
  rw [alike_trans hkv (alike_symm (hkeys _ hl) hlv)] at hkl
  cases hkl

/-! ## Symmetry -/

mutual

/-- **Equality is symmetric** from a proper value on. -/
theorem proper_equiv_symm : (a : Value) → a.proper = true → ∀ {b : Value}, equiv a b = true →
    equiv b a = true
  | .list xs, ha, b, h => by
    cases b with
    | list ys =>
      rw [proper] at ha
      rw [equiv] at h ⊢
      exact proper_equivAll_symm xs ha h
    | _ => simp [equiv] at h
  | .tuple xs, ha, b, h => by
    cases b with
    | tuple ys =>
      rw [proper] at ha
      rw [equiv] at h ⊢
      exact proper_equivAll_symm xs ha h
    | _ => simp [equiv] at h
  | .set xs, ha, b, h => by
    cases b with
    | set ys =>
      rw [proper] at ha
      rw [equiv, Bool.and_eq_true, decide_eq_true_eq] at h ⊢
      -- The members are hashable, so that their equality is symmetric anyway.
      have hpartner : ∀ y ∈ ys, ∃ x ∈ xs, alike x y = true :=
        exists_of_forall_exists h.1 (pairwise_of_distinctKeys ha)
          fun x hx => exists_of_equivWithin h.2 hx
      refine ⟨h.1.symm, equivWithin_of_forall fun y hy => ?_⟩
      obtain ⟨x, hx, hxy⟩ := hpartner y hy
      exact ⟨x, hx, alike_symm ((distinctKeys_iff.mp ha).1 x hx) hxy⟩
    | _ => simp [equiv] at h
  | .map es, ha, b, h => by
    cases b with
    | map fs =>
      rw [proper, Bool.and_eq_true] at ha
      rw [equiv, Bool.and_eq_true, decide_eq_true_eq] at h ⊢
      have hkeys := pairwise_of_distinctKeys ha.1
      have hpartner : ∀ f ∈ fs, ∃ e ∈ es, (alike e.1 f.1 && alike e.2 f.2) = true := by
        refine exists_of_forall_exists h.1 ((List.pairwise_map.mp hkeys).imp ?_)
          fun e he => exists_of_equivEntries h.2 he
        intro e e' hkey f hf hf'
        exact hkey f.1 (Bool.and_eq_true_iff.mp hf).1 (Bool.and_eq_true_iff.mp hf').1
      have hsymm := proper_equivEntries_symm es ha.2
      refine ⟨h.1.symm, equivEntries_of_forall fun f hf => ?_⟩
      obtain ⟨e, he, hef⟩ := hpartner f hf
      rw [Bool.and_eq_true] at hef
      have hkey := (distinctKeys_iff.mp ha.1).1 e.1 (List.mem_map_of_mem he)
      exact ⟨e, he, alike_symm hkey hef.1, hsymm e he hef.2⟩
    | _ => simp [equiv] at h
  | .null, _, _, h | .bool _, _, _, h | .int _, _, _, h | .float _, _, _, h | .text _, _, _, h
  | .bytes _, _, _, h | .date _, _, _, h | .moment _, _, _, h => by
    simp only [equiv] at h
    exact equiv_of_scalarEquiv (scalarEquiv_symm h)

theorem proper_equivAll_symm : (xs : List Value) → allProper xs = true → ∀ {ys : List Value},
    equivAll xs ys = true → equivAll ys xs = true
  | [], _, ys, h => by
    cases ys with
    | nil => exact h
    | cons y ys => simp [equivAll] at h
  | x :: xs, hxs, ys, h => by
    cases ys with
    | nil => simp [equivAll] at h
    | cons y ys =>
      rw [allProper, Bool.and_eq_true] at hxs
      rw [equivAll, Bool.and_eq_true] at h ⊢
      exact ⟨alike_symm_of (proper_equiv_symm x hxs.1) h.1, proper_equivAll_symm xs hxs.2 h.2⟩

theorem proper_equivEntries_symm : (es : List (Value × Value)) → allProperEntries es = true →
    ∀ e ∈ es, ∀ {v : Value}, alike e.2 v = true → alike v e.2 = true
  | [], _, _, he, _, _ => absurd he List.not_mem_nil
  | (k, w) :: es, hes, e, he, v, h => by
    rw [allProperEntries, Bool.and_eq_true] at hes
    rcases List.mem_cons.mp he with rfl | he
    · exact alike_symm_of (proper_equiv_symm w hes.1) h
    · exact proper_equivEntries_symm es hes.2 e he h

end

theorem equiv_comm_of_proper (ha : a.proper = true) (hb : b.proper = true) :
    equiv a b = equiv b a :=
  Bool.eq_iff_iff.mpr ⟨proper_equiv_symm a ha, proper_equiv_symm b hb⟩

/-! ## Encoding -/

theorem keys_encodeEntries (es : Entries) :
    (encodeEntries es).map Prod.fst = es.map Prod.fst := by
  induction es with
  | nil => rfl
  | cons e es ih => rw [encodeEntries, List.map_cons, ih, List.map_cons]

mutual

/-- **An encoded value is proper when the value is.** -/
theorem proper_encode : (v : Value) → v.proper = true → v.encode.proper = true
  | .list items, h => by
    rw [proper] at h
    rw [encode, proper]
    exact allProper_encodeItems items h
  | .tuple items, h => by
    rw [proper] at h
    rw [encode, proper]
    exact allProper_encodeItems items h
  | .map entries, h => by
    rw [proper, Bool.and_eq_true] at h
    rw [encode, proper, keys_encodeEntries, Bool.and_eq_true]
    exact ⟨h.1, allProperEntries_encodeEntries entries h.2⟩
  | .set items, h => h
  | .null, _ | .bool _, _ | .int _, _ | .float _, _ | .text _, _ | .bytes _, _ | .date _, _
  | .moment _, _ => rfl

theorem allProper_encodeItems : (items : List Value) → allProper items = true →
    allProper (encodeItems items) = true
  | [], _ => rfl
  | v :: vs, h => by
    rw [allProper, Bool.and_eq_true] at h
    rw [encodeItems, allProper, Bool.and_eq_true]
    exact ⟨proper_encode v h.1, allProper_encodeItems vs h.2⟩

theorem allProperEntries_encodeEntries : (es : List (Value × Value)) →
    allProperEntries es = true → allProperEntries (encodeEntries es) = true
  | [], _ => rfl
  | (k, v) :: es, h => by
    rw [allProperEntries, Bool.and_eq_true] at h
    rw [encodeEntries, allProperEntries, Bool.and_eq_true]
    exact ⟨proper_encode v h.1, allProperEntries_encodeEntries es h.2⟩

end

/-! ## Documents -/

theorem allProper_iff {items : List Value} :
    allProper items = true ↔ ∀ v ∈ items, v.proper = true := by
  induction items with
  | nil => simp [allProper]
  | cons v vs ih => rw [allProper, Bool.and_eq_true, ih, List.forall_mem_cons]

theorem allProperEntries_iff {es : Entries} :
    allProperEntries es = true ↔ ∀ e ∈ es, e.2.proper = true := by
  induction es with
  | nil => simp [allProperEntries]
  | cons e es ih => rw [allProperEntries, Bool.and_eq_true, ih, List.forall_mem_cons]

theorem proper_list {items : List Value} :
    (list items).proper = true ↔ ∀ v ∈ items, v.proper = true := by
  rw [proper, allProper_iff]

theorem proper_record {members : List (String × Value)} (hkeys : (members.map Prod.fst).Nodup)
    (h : ∀ m ∈ members, m.2.proper = true) : (record members).proper = true := by
  have hfst : (fields members).map Prod.fst = (members.map Prod.fst).map text := by
    rw [fields, List.map_map, List.map_map]
    rfl
  rw [record, proper, hfst, Bool.and_eq_true, distinctKeys_iff, allProperEntries_iff, fields]
  refine ⟨⟨List.forall_mem_map.mpr fun _ _ => rfl, List.pairwise_map.mpr (hkeys.imp ?_)⟩,
    List.forall_mem_map.mpr h⟩
  intro s t hne
  rw [alike_text, decide_eq_false hne]

theorem proper_lookup (h : a.proper = true) (key : String) : (a.lookup key).proper = true := by
  rw [lookup]
  cases hfind : a.lookup? key with
  | none => rfl
  | some v =>
    cases a with
    | map es =>
      obtain ⟨k, hmem, -⟩ := exists_mem_of_find? hfind
      rw [proper, Bool.and_eq_true, allProperEntries_iff] at h
      exact h.2 _ hmem
    | _ => cases hfind

end Value

end LiveForm
