import LiveForm.Notice
import LiveForm.Schema.Basic

/-!
# Transitivity of equality

Equality of values is transitive, NaNs among the members of containers included.

* `Value.Essence`, `Value.essence?`: what equality sees of a value without parts;
* `Value.scalarEquiv_iff`: values without parts are equal when it sees the same;
* **`Value.equiv_trans`, `Value.same_trans`**: equality of values;
* `Notice.equiv_trans`, `listEquiv_trans`: equality of notices, and of lists.
-/

namespace LiveForm

namespace Value

/-! ## Values without parts -/

/-- What equality sees of a value without parts. -/
inductive Essence where
  | null
  | text (s : String)
  | bytes (bs : List UInt8)
  | date (d : Date)
  /-- An instant, with or without an offset. -/
  | moment (offset : Bool) (instant : Int)
  /-- A place on the number line. -/
  | place (x : Binary64.Extent)

/-- What equality sees of a value; of containers and NaNs it sees nothing. -/
def essence? : Value → Option Essence
  | .null => some .null
  | .text s => some (.text s)
  | .bytes bs => some (.bytes bs)
  | .date d => some (.date d)
  | .moment m => some (.moment m.offset.isSome m.instant)
  | v => v.extent?.map .place

/-- **Values without parts are equal when equality sees the same of both.** -/
theorem scalarEquiv_iff {a b : Value} :
    scalarEquiv a b = true ↔ ∃ e, a.essence? = some e ∧ b.essence? = some e := by
  cases a <;> cases b <;>
    simp [scalarEquiv, essence?, extent?, number?, Number.extent?, Moment.sameInstant]
  all_goals grind

theorem scalarEquiv_trans {a b c : Value} (hab : scalarEquiv a b = true)
    (hbc : scalarEquiv b c = true) : scalarEquiv a c = true := by
  obtain ⟨e, ha, hb⟩ := scalarEquiv_iff.mp hab
  obtain ⟨e', hb', hc⟩ := scalarEquiv_iff.mp hbc
  obtain rfl : e = e' := Option.some.inj (hb.symm.trans hb')
  exact scalarEquiv_iff.mpr ⟨e, ha, hc⟩

/-! ## Containers -/

theorem eq_of_sharedNaN {a b : Value} (h : sharedNaN a b = true) : a = b := by
  unfold sharedNaN at h
  split at h
  · simpa using h
  · cases h

theorem alike_trans_of {a b c : Value}
    (htrans : equiv a b = true → equiv b c = true → equiv a c = true)
    (hab : alike a b = true) (hbc : alike b c = true) : alike a c = true := by
  rcases Bool.or_eq_true_iff.mp hab with hshared | hab'
  · rw [eq_of_sharedNaN hshared]
    exact hbc
  · rcases Bool.or_eq_true_iff.mp hbc with hshared | hbc'
    · rw [← eq_of_sharedNaN hshared]
      exact hab
    · exact Bool.or_eq_true_iff.mpr (Or.inr (htrans hab' hbc'))

theorem exists_of_equivWithin {xs ys : List Value} (h : equivWithin xs ys = true) {x : Value}
    (hx : x ∈ xs) : ∃ y ∈ ys, alike x y = true := by
  induction xs with
  | nil => cases hx
  | cons x' xs ih =>
    rw [equivWithin, Bool.and_eq_true, List.any_eq_true] at h
    rcases List.mem_cons.mp hx with rfl | hx
    · exact h.1
    · exact ih h.2 hx

theorem exists_of_equivEntries {es fs : List (Value × Value)} (h : equivEntries es fs = true)
    {e : Value × Value} (he : e ∈ es) :
    ∃ f ∈ fs, (alike e.1 f.1 && alike e.2 f.2) = true := by
  induction es with
  | nil => cases he
  | cons e' es ih =>
    rw [equivEntries, Bool.and_eq_true, List.any_eq_true] at h
    rcases List.mem_cons.mp he with rfl | he
    · exact h.1
    · exact ih h.2 he

theorem equivWithin_of_forall {xs ys : List Value} (h : ∀ x ∈ xs, ∃ y ∈ ys, alike x y = true) :
    equivWithin xs ys = true := by
  induction xs with
  | nil => rw [equivWithin]
  | cons x xs ih =>
    obtain ⟨hx, hxs⟩ := List.forall_mem_cons.mp h
    rw [equivWithin, Bool.and_eq_true, List.any_eq_true]
    exact ⟨hx, ih hxs⟩

theorem equivEntries_of_forall {es fs : List (Value × Value)}
    (h : ∀ e ∈ es, ∃ f ∈ fs, alike e.1 f.1 = true ∧ alike e.2 f.2 = true) :
    equivEntries es fs = true := by
  induction es with
  | nil => rw [equivEntries]
  | cons e es ih =>
    obtain ⟨he, hes⟩ := List.forall_mem_cons.mp h
    obtain ⟨f, hf, hkey, hvalue⟩ := he
    rw [equivEntries, Bool.and_eq_true, List.any_eq_true]
    exact ⟨⟨f, hf, Bool.and_eq_true_iff.mpr ⟨hkey, hvalue⟩⟩, ih hes⟩

theorem scalarEquiv_of_equiv {b c : Value} (hb : b.essence?.isSome = true)
    (h : equiv b c = true) : scalarEquiv b c = true := by
  cases b with
  | list _ | tuple _ | set _ | map _ => simp [essence?, extent?, number?] at hb
  | _ => simpa [equiv] using h

theorem equiv_trans_scalar {a b c : Value} (hab : scalarEquiv a b = true)
    (hbc : equiv b c = true) : scalarEquiv a c = true := by
  obtain ⟨e, -, hb⟩ := scalarEquiv_iff.mp hab
  exact scalarEquiv_trans hab (scalarEquiv_of_equiv (by rw [hb]; rfl) hbc)

mutual

/-- **Equality of values is transitive.** -/
theorem equiv_trans : (a : Value) → ∀ {b c : Value}, equiv a b = true → equiv b c = true →
    equiv a c = true
  | .list xs, b, c, hab, hbc => by
    cases b with
    | list ys =>
      cases c with
      | list zs =>
        rw [equiv] at hab hbc ⊢
        exact equivAll_trans xs hab hbc
      | _ => simp [equiv] at hbc
    | _ => simp [equiv] at hab
  | .tuple xs, b, c, hab, hbc => by
    cases b with
    | tuple ys =>
      cases c with
      | tuple zs =>
        rw [equiv] at hab hbc ⊢
        exact equivAll_trans xs hab hbc
      | _ => simp [equiv] at hbc
    | _ => simp [equiv] at hab
  | .set xs, b, c, hab, hbc => by
    cases b with
    | set ys =>
      cases c with
      | set zs =>
        simp only [equiv, Bool.and_eq_true, decide_eq_true_eq] at hab hbc ⊢
        exact ⟨hab.1.trans hbc.1, equivWithin_trans xs hab.2 hbc.2⟩
      | _ => simp [equiv] at hbc
    | _ => simp [equiv] at hab
  | .map es, b, c, hab, hbc => by
    cases b with
    | map fs =>
      cases c with
      | map gs =>
        simp only [equiv, Bool.and_eq_true, decide_eq_true_eq] at hab hbc ⊢
        exact ⟨hab.1.trans hbc.1, equivEntries_trans es hab.2 hbc.2⟩
      | _ => simp [equiv] at hbc
    | _ => simp [equiv] at hab
  | .null, _, _, hab, hbc | .bool _, _, _, hab, hbc | .int _, _, _, hab, hbc
  | .float _, _, _, hab, hbc | .text _, _, _, hab, hbc | .bytes _, _, _, hab, hbc
  | .date _, _, _, hab, hbc | .moment _, _, _, hab, hbc => by
    simp only [equiv] at hab ⊢
    exact equiv_trans_scalar hab hbc

theorem equivAll_trans : (xs : List Value) → ∀ {ys zs : List Value}, equivAll xs ys = true →
    equivAll ys zs = true → equivAll xs zs = true
  | [], ys, zs, hxy, hyz => by
    cases ys with
    | nil => exact hyz
    | cons y ys => simp [equivAll] at hxy
  | x :: xs, ys, zs, hxy, hyz => by
    cases ys with
    | nil => simp [equivAll] at hxy
    | cons y ys =>
      cases zs with
      | nil => simp [equivAll] at hyz
      | cons z zs =>
        rw [equivAll, Bool.and_eq_true] at hxy hyz ⊢
        exact ⟨alike_trans_of (equiv_trans x) hxy.1 hyz.1, equivAll_trans xs hxy.2 hyz.2⟩

theorem equivWithin_trans : (xs : List Value) → ∀ {ys zs : List Value},
    equivWithin xs ys = true → equivWithin ys zs = true → equivWithin xs zs = true
  | [], _, _, _, _ => by rw [equivWithin]
  | x :: xs, ys, zs, hxy, hyz => by
    rw [equivWithin, Bool.and_eq_true, List.any_eq_true] at hxy ⊢
    obtain ⟨⟨y, hy, hx⟩, hxs⟩ := hxy
    obtain ⟨z, hz, hyz'⟩ := exists_of_equivWithin hyz hy
    exact ⟨⟨z, hz, alike_trans_of (equiv_trans x) hx hyz'⟩, equivWithin_trans xs hxs hyz⟩

theorem equivEntries_trans : (es : List (Value × Value)) → ∀ {fs gs : List (Value × Value)},
    equivEntries es fs = true → equivEntries fs gs = true → equivEntries es gs = true
  | [], _, _, _, _ => by rw [equivEntries]
  | (k, v) :: es, fs, gs, hef, hfg => by
    rw [equivEntries, Bool.and_eq_true, List.any_eq_true] at hef ⊢
    obtain ⟨⟨f, hf, he⟩, hes⟩ := hef
    obtain ⟨g, hg, hfg'⟩ := exists_of_equivEntries hfg hf
    rw [Bool.and_eq_true] at he hfg'
    refine ⟨⟨g, hg, ?_⟩, equivEntries_trans es hes hfg⟩
    rw [Bool.and_eq_true]
    exact ⟨alike_trans_of (equiv_trans k) he.1 hfg'.1, alike_trans_of (equiv_trans v) he.2 hfg'.2⟩

end

/-- **Equality with one kind is transitive.** -/
theorem same_trans {a b c : Value} (hab : a.same b = true) (hbc : b.same c = true) :
    a.same c = true := by
  rw [same, Bool.and_eq_true, decide_eq_true_eq] at hab hbc ⊢
  exact ⟨hab.1.trans hbc.1, equiv_trans a hab.2 hbc.2⟩

end Value

/-! ## Notices -/

theorem Notice.equiv_trans {a b c : Notice} (hab : a.equiv b = true) (hbc : b.equiv c = true) :
    a.equiv c = true := by
  simp only [Notice.equiv, Bool.and_eq_true, decide_eq_true_eq] at hab hbc ⊢
  obtain ⟨⟨⟨⟨hkind, hmessage⟩, hdetails⟩, hhint⟩, hdecision⟩ := hab
  obtain ⟨⟨⟨⟨hkind', hmessage'⟩, hdetails'⟩, hhint'⟩, hdecision'⟩ := hbc
  exact ⟨⟨⟨⟨hkind.trans hkind', hmessage.trans hmessage'⟩,
    Value.equiv_trans _ hdetails hdetails'⟩, hhint.trans hhint'⟩, hdecision.trans hdecision'⟩

theorem listEquiv_trans {α : Type} {r : α → α → Bool}
    (h : ∀ {a b c}, r a b = true → r b c = true → r a c = true) {as bs cs : List α}
    (hab : listEquiv r as bs = true) (hbc : listEquiv r bs cs = true) :
    listEquiv r as cs = true := by
  induction as generalizing bs cs with
  | nil =>
    cases bs with
    | nil => exact hbc
    | cons b bs => cases hab
  | cons a as ih =>
    cases bs with
    | nil => cases hab
    | cons b bs =>
      cases cs with
      | nil => cases hbc
      | cons c cs =>
        rw [listEquiv, Bool.and_eq_true] at hab hbc ⊢
        exact ⟨h hab.1 hbc.1, ih hab.2 hbc.2⟩

end LiveForm
