import LiveForm.Notice
import LiveForm.Schema.Basic

/-!
# Reflexivity of equality

A value equals its own copy unless it is a NaN, which equals nothing. Inside a container even a
NaN counts as equal to its copy.

* `Value.shared_or_equiv`: as a member of a container a value is always alike to itself;
* `Value.same_refl`: a value that is no NaN is the same as itself;
* `Notice.equiv_refl`, `listEquiv_refl`: notices, and lists of them.
-/

namespace LiveForm

theorem Binary64.extent_isSome {x : Binary64} (h : x.isNaN = false) : x.extent.isSome = true := by
  cases x with
  | finite s c => rfl
  | infinite s => cases s <;> rfl
  | nan l => cases h

namespace Value

theorem equiv_float_refl {x : Binary64} (h : x.isNaN = false) :
    equiv (float x) (float x) = true := by
  obtain ⟨e, he⟩ := Option.isSome_iff_exists.mp (Binary64.extent_isSome h)
  simp [equiv, scalarEquiv, extent?, number?, Number.extent?, he]

/-- What is reflexive but for NaNs is reflexive among members: a NaN is known by its label. -/
theorem shared_or_equiv {v : Value} (h : v.isNaN = false → equiv v v = true) :
    (sharedNaN v v || equiv v v) = true := by
  cases hv : v.isNaN with
  | false => rw [h hv, Bool.or_true]
  | true =>
    cases v with
    | float x =>
      cases x with
      | nan l => simp [sharedNaN]
      | _ => cases hv
    | _ => cases hv

mutual

/-- Equality is reflexive but for NaNs. -/
theorem equiv_refl : (v : Value) → v.isNaN = false → equiv v v = true
  | null, _ => by simp [equiv, scalarEquiv]
  | bool b, _ => by simp [equiv, scalarEquiv, extent?]
  | int n, _ => by simp [equiv, scalarEquiv, extent?, number?, Number.extent?]
  | float x, h => equiv_float_refl h
  | text s, _ => by simp [equiv, scalarEquiv]
  | bytes bs, _ => by simp [equiv, scalarEquiv]
  | date d, _ => by simp [equiv, scalarEquiv]
  | moment m, _ => by simp [equiv, scalarEquiv, Moment.sameInstant]
  | list items, _ => by rw [equiv]; exact equivAll_refl items
  | tuple items, _ => by rw [equiv]; exact equivAll_refl items
  | set items, _ => by
    rw [equiv, decide_eq_true rfl, Bool.true_and]
    exact equivWithin_of_subset items items fun _ h => h
  | map entries, _ => by
    rw [equiv, decide_eq_true rfl, Bool.true_and]
    exact equivEntries_of_subset entries entries fun _ h => h

theorem equivAll_refl : (items : List Value) → equivAll items items = true
  | [] => by rw [equivAll]; rfl
  | v :: vs => by rw [equivAll, shared_or_equiv (equiv_refl v), equivAll_refl vs]; rfl

theorem equivWithin_of_subset : (part items : List Value) → (∀ v ∈ part, v ∈ items) →
    equivWithin part items = true
  | [], _, _ => by rw [equivWithin]
  | v :: vs, items, h => by
    rw [equivWithin, equivWithin_of_subset vs items fun w hw => h w (List.mem_cons_of_mem v hw),
      Bool.and_true, List.any_eq_true]
    exact ⟨v, h v List.mem_cons_self, shared_or_equiv (equiv_refl v)⟩

theorem equivEntries_of_subset : (part entries : List (Value × Value)) →
    (∀ e ∈ part, e ∈ entries) → equivEntries part entries = true
  | [], _, _ => by rw [equivEntries]
  | (k, v) :: es, entries, h => by
    rw [equivEntries, equivEntries_of_subset es entries fun e he => h e (List.mem_cons_of_mem _ he),
      Bool.and_true, List.any_eq_true]
    refine ⟨(k, v), h _ List.mem_cons_self, ?_⟩
    rw [shared_or_equiv (equiv_refl k), shared_or_equiv (equiv_refl v)]
    rfl

end

/-- **A value that is no NaN is the same as itself.** -/
theorem same_refl {v : Value} (h : v.isNaN = false) : v.same v = true := by
  rw [same, equiv_refl v h, decide_eq_true rfl]; rfl

end Value

/-! ## Notices -/

theorem Notice.equiv_refl (n : Notice) : n.equiv n = true := by
  simp [Notice.equiv, Value.equiv_refl (.map n.details) rfl]

theorem listEquiv_refl {α : Type} {r : α → α → Bool} (h : ∀ a, r a a = true) (as : List α) :
    listEquiv r as as = true := by
  induction as with
  | nil => rfl
  | cons a as ih => rw [listEquiv, h, ih]; rfl

end LiveForm
