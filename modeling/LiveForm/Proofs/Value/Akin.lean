import Mathlib.Data.List.Perm.Subperm
import LiveForm.Proofs.Number.Decimal
import LiveForm.Proofs.Value.Rearranged

/-!
# Values of the same kinds

Equality of values compares numbers and booleans by magnitude and takes the zeros for one. Two
values are akin when, at every place that both have, the kinds are the same and doubles have the
same sign. Equal storable values that are akin differ at most in the order of entries.

* `Binary64.isNegative`, `Binary64.eq_of_extent`: a double is known by its place and its sign;
* `Value.Akin`: the same kinds and signs at every place;
* `Value.Rearranged.akin`: rearranged values are akin;
* **`Value.rearranged_iff`**: values are rearranged just when they are equal and akin.
-/

namespace LiveForm

namespace Binary64

/-- The sign of a double, of a zero too. -/
def isNegative : Binary64 → Bool
  | .finite negative _ => negative
  | .infinite negative => negative
  | .nan _ => false

/-- **A double is known by its place and its sign.** -/
theorem eq_of_extent {x y : Binary64} (hx : x.isNaN = false) (h : x.extent = y.extent)
    (hsign : x.isNegative = y.isNegative) : x = y := by
  cases x with
  | nan label => cases hx
  | infinite negative =>
    cases y with
    | infinite negative' => exact congrArg infinite hsign
    | _ => cases negative <;> cases h
  | finite negative code =>
    cases y with
    | finite negative' code' =>
      obtain rfl : negative = negative' := hsign
      have hunits : units code = units code' := by
        have hplace := Option.some.inj h
        rw [Extent.at.injEq, signedUnits, signedUnits] at hplace
        cases negative <;> simpa using hplace
      rw [Fin.ext (strictMono_units.injective hunits)]
    | infinite negative' => cases negative' <;> cases h
    | nan label => cases h

end Binary64

namespace Value

variable {a b v : Value} {xs ys : List Value} {es fs : Entries}

/-- **The same kinds and signs**, at every place that two values have. -/
inductive Akin : Value → Value → Prop
  | scalar {a b : Value} (h : a.kind = b.kind) (float : a.kind ≠ .float) (list : a.kind ≠ .list)
    (map : a.kind ≠ .map) : Akin a b
  | float {x y : Binary64} (h : x.isNegative = y.isNegative) : Akin (float x) (float y)
  | list {xs ys : List Value}
    (h : ∀ i (hi : i < xs.length) (hi' : i < ys.length), Akin xs[i] ys[i]) :
    Akin (list xs) (list ys)
  | map {es fs : Entries} (h : ∀ k v w, (k, v) ∈ es → (k, w) ∈ fs → Akin v w) :
    Akin (map es) (map fs)

theorem Rearranged.akin (h : Rearranged a b) : Akin a b := by
  induction h with
  | null | bool | int | text => exact .scalar rfl nofun nofun nofun
  | float x => exact .float rfl
  | list _ _ ih => exact .list ih
  | map _ _ ih => exact .map ih

/-! ## Equal values -/

theorem Storable.isNaN_eq_false (h : Storable v) : v.isNaN = false := by
  cases h with
  | float h => exact h
  | _ => rfl

theorem Storable.sharedNaN_eq_false (h : Storable a) (b : Value) : sharedNaN a b = false := by
  cases h with
  | @float x hx =>
    cases x with
    | nan label => cases hx
    | _ => rfl
  | _ => rfl

theorem equiv_of_alike (ha : Storable a) (h : alike a b = true) : equiv a b = true := by
  rwa [alike, ha.sharedNaN_eq_false, Bool.false_or] at h

theorem equivAll_iff : equivAll xs ys = true ↔
    List.Forall₂ (fun x y => alike x y = true) xs ys := by
  induction xs generalizing ys with
  | nil => rw [equivAll, List.isEmpty_iff, List.forall₂_nil_left_iff]
  | cons x xs ih =>
    cases ys with
    | nil => simp [equivAll]
    | cons y ys => rw [equivAll, Bool.and_eq_true, List.forall₂_cons, ← ih, alike]

theorem alike_list_iff : alike (list xs) (list ys) = true ↔
    List.Forall₂ (fun x y => alike x y = true) xs ys := by
  have hshared : sharedNaN (list xs) (list ys) = false := rfl
  rw [alike, hshared, Bool.false_or, equiv, equivAll_iff]

theorem perm_of_equiv_map (he : Storable (map es)) (hf : Storable (map fs))
    (h : equiv (map es) (map fs) = true) : (es.map Prod.fst).Perm (fs.map Prod.fst) ∧
      ∀ k v w, (k, v) ∈ es → (k, w) ∈ fs → equiv v w = true := by
  rw [equiv, Bool.and_eq_true, decide_eq_true_eq] at h
  obtain ⟨hlength, hentries⟩ := h
  obtain ⟨hnodup, hes⟩ := storable_map.mp he
  obtain ⟨hnodup', hfs⟩ := storable_map.mp hf
  have hmatch : ∀ k v, (k, v) ∈ es → ∃ w, (k, w) ∈ fs ∧ equiv v w = true := by
    intro k v hv
    obtain ⟨⟨k', w⟩, hw, hboth⟩ := exists_of_equivEntries hentries hv
    obtain ⟨hkey, hvalue⟩ := Bool.and_eq_true_iff.mp hboth
    obtain ⟨⟨s, rfl⟩, hstorable⟩ := hes _ hv
    obtain ⟨⟨t, rfl⟩, -⟩ := hfs _ hw
    rw [alike_text, decide_eq_true_eq] at hkey
    subst hkey
    exact ⟨w, hw, equiv_of_alike hstorable hvalue⟩
  have hsubset : es.map Prod.fst ⊆ fs.map Prod.fst := by
    intro k hk
    obtain ⟨⟨k, v⟩, hv, rfl⟩ := List.mem_map.mp hk
    obtain ⟨w, hw, -⟩ := hmatch k v hv
    exact List.mem_map.mpr ⟨_, hw, rfl⟩
  refine ⟨(List.subperm_of_subset hnodup hsubset).perm_of_length_le (by simp [hlength]), ?_⟩
  intro k v w hv hw
  obtain ⟨w', hw', hequiv⟩ := hmatch k v hv
  rwa [eq_of_mem_of_nodup hnodup' hw hw']

theorem rearranged_of_scalar (ha : Storable a) (hb : Storable b) (hkind : a.kind = b.kind)
    (hfloat : a.kind ≠ .float) (hlist : a.kind ≠ .list) (hmap : a.kind ≠ .map)
    (h : equiv a b = true) : Rearranged a b := by
  cases ha with
  | null => cases hb <;> first | exact .null | cases hkind
  | bool x =>
    cases hb with
    | bool y =>
      have hplace : Binary64.extentOfInt (if x then 1 else 0) =
          Binary64.extentOfInt (if y then 1 else 0) := by
        simpa [equiv, scalarEquiv, extent?] using h
      rw [Binary64.extentOfInt_inj] at hplace
      cases x <;> cases y <;> first | exact .bool _ | cases hplace
    | _ => cases hkind
  | int m =>
    cases hb with
    | int n =>
      have hplace : Binary64.extentOfInt m = Binary64.extentOfInt n := by
        simpa [equiv, scalarEquiv, extent?, number?, Number.extent?] using h
      rw [Binary64.extentOfInt_inj.mp hplace]
      exact .int n
    | _ => cases hkind
  | text s =>
    cases hb with
    | text t =>
      have htext : s = t := by simpa [equiv, scalarEquiv] using h
      exact htext ▸ .text s
    | _ => cases hkind
  | float _ => exact absurd rfl hfloat
  | list _ => exact absurd rfl hlist
  | map _ _ _ => exact absurd rfl hmap

theorem eq_of_equiv_float {x y : Binary64} (hx : x.isNaN = false)
    (hsign : x.isNegative = y.isNegative) (h : equiv (float x) (float y) = true) : x = y := by
  obtain ⟨place, hplace⟩ := Option.isSome_iff_exists.mp (Binary64.extent_isSome hx)
  refine Binary64.eq_of_extent hx ?_ hsign
  simp only [equiv, scalarEquiv, extent?, number?, Option.bind_some, Number.extent?, hplace] at h
  cases hy : y.extent with
  | none => simp [hy] at h
  | some place' =>
    rw [hplace]
    simpa [hy] using h

theorem Akin.rearranged (h : Akin a b) (ha : Storable a) (hb : Storable b)
    (hequiv : equiv a b = true) : Rearranged a b := by
  induction h with
  | scalar hkind hfloat hlist hmap =>
    exact rearranged_of_scalar ha hb hkind hfloat hlist hmap hequiv
  | float hsign =>
    rw [eq_of_equiv_float ha.isNaN_eq_false hsign hequiv]
    exact .float _
  | list _ ih =>
    rw [equiv] at hequiv
    obtain ⟨hlength, halike⟩ := List.forall₂_iff_get.mp (equivAll_iff.mp hequiv)
    refine .list hlength fun i hi hi' => ?_
    have hx := storable_list.mp ha _ (List.getElem_mem hi)
    exact ih i hi hi' hx (storable_list.mp hb _ (List.getElem_mem hi'))
      (equiv_of_alike hx (halike i hi hi'))
  | map _ ih =>
    obtain ⟨hkeys, hvalues⟩ := perm_of_equiv_map ha hb hequiv
    exact .map hkeys fun k v w hv hw => ih k v w hv hw ((storable_map.mp ha).2 _ hv).2
      ((storable_map.mp hb).2 _ hw).2 (hvalues k v w hv hw)

/-- **Values are rearranged** just when they are equal and akin. -/
theorem rearranged_iff (ha : Storable a) (hb : Storable b) :
    Rearranged a b ↔ equiv a b = true ∧ Akin a b :=
  ⟨fun h => ⟨h.equiv ha, h.akin⟩, fun ⟨hequiv, hakin⟩ => hakin.rearranged ha hb hequiv⟩

end Value

end LiveForm
