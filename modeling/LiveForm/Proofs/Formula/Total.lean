import Mathlib.Algebra.BigOperators.Group.List.Basic
import LiveForm.Proofs.Formula.Numeric

/-!
# What a total is

Numbers are added from left to right, starting from zero. Integers are added exactly; from the first
double on the sums are doubles, each rounded once, and an integer counts as the double nearest to
it. There is a total unless no finite double is nearest to such an integer.

* `Binary64.IsSum`, **`Binary64.add_eq_iff`**: what adding two doubles gives;
* `Formula.Adds`, `Formula.Totals`: a number more, and the numbers of a list;
* **`Formula.sum_eq_ok_iff`**: summing gives the total;
* `Formula.totals_ints`: that of integers is exact.
-/

namespace LiveForm

/-! ## Doubles -/

namespace Binary64

/-- The exact sum of two finite numbers, in units. -/
def exactSum (s t : Bool) (a b : ℕ) : ℤ := signedUnits s a + signedUnits t b

/-- **The double is the sum of two.** That of finite ones is nearest to the exact sum, on its side
of zero, and infinite when no finite code is nearest; an exact zero is negative when both are.
Opposite infinities have no sum. -/
inductive IsSum : Binary64 → Binary64 → Binary64 → Prop
  | finite {s t : Bool} {a b code : Fin codeLimit} (hne : exactSum s t a b ≠ 0)
      (h : Nearest (exactSum s t a b).natAbs 1 code) :
      IsSum (.finite s a) (.finite t b) (.finite (exactSum s t a b < 0) code)
  | overflow {s t : Bool} {a b : Fin codeLimit} {code : ℕ} (hne : exactSum s t a b ≠ 0)
      (h : Nearest (exactSum s t a b).natAbs 1 code) (hcode : codeLimit ≤ code) :
      IsSum (.finite s a) (.finite t b) (.infinite (exactSum s t a b < 0))
  | cancel {s t : Bool} {a b : Fin codeLimit} (h : exactSum s t a b = 0) :
      IsSum (.finite s a) (.finite t b) (zero (s && t))
  | infinite_left (s : Bool) {y : Binary64} (hy : y.isFinite = true ∨ y = .infinite s) :
      IsSum (.infinite s) y (.infinite s)
  | infinite_right (s : Bool) (a : Fin codeLimit) (t : Bool) :
      IsSum (.finite s a) (.infinite t) (.infinite t)
  | opposite (s : Bool) : IsSum (.infinite s) (.infinite !s) (.nan 0)
  | nan_left (label : ℕ) (y : Binary64) : IsSum (.nan label) y (.nan label)
  | nan_right {x : Binary64} (label : ℕ) (hx : x.isNaN = false) : IsSum x (.nan label) (.nan label)

variable {x y z z' : Binary64}

theorem isSum_add_finite (s t : Bool) (a b : Fin codeLimit) :
    IsSum (.finite s a) (.finite t b) ((Binary64.finite s a).add (.finite t b)) := by
  rw [add]
  change IsSum _ _ (if exactSum s t a b = 0 then _ else
    ofQuotient (exactSum s t a b < 0) (exactSum s t a b).natAbs 1)
  split_ifs with hzero
  · exact .cancel hzero
  · have hnearest := @nearest_nearestCode (exactSum s t a b).natAbs 1 Nat.one_pos
    rw [ofQuotient, ofQuotient?]
    split_ifs with hlt
    · exact @IsSum.finite _ _ _ _ ⟨_, hlt⟩ hzero hnearest
    · exact .overflow hzero hnearest (Nat.not_lt.mp hlt)

theorem isSum_add (x y : Binary64) : IsSum x y (x.add y) := by
  cases x with
  | nan label => exact .nan_left label y
  | finite s a =>
    cases y with
    | finite t b => exact isSum_add_finite s t a b
    | infinite t => exact .infinite_right s a t
    | nan label => exact .nan_right label rfl
  | infinite s =>
    cases y with
    | finite t b => exact .infinite_left s (Or.inl rfl)
    | nan label => exact .nan_right label rfl
    | infinite t =>
      rw [add]
      split_ifs with hsame
      · exact .infinite_left s (Or.inr (hsame ▸ rfl))
      · obtain rfl : t = !s := by cases s <;> cases t <;> simp_all
        exact .opposite s

theorem IsSum.unique (h : IsSum x y z) (h' : IsSum x y z') : z = z' := by
  cases h with
  | finite hne h =>
    cases h' with
    | finite _ h' => rw [Fin.ext (h.unique Nat.one_pos h')]
    | overflow _ h' hcode =>
      rw [← h.unique Nat.one_pos h'] at hcode
      exact absurd hcode (Nat.not_le.mpr (Fin.isLt _))
    | cancel hzero => exact absurd hzero hne
  | overflow hne h hcode =>
    cases h' with
    | finite _ h' =>
      rw [h.unique Nat.one_pos h'] at hcode
      exact absurd hcode (Nat.not_le.mpr (Fin.isLt _))
    | overflow => rfl
    | cancel hzero => exact absurd hzero hne
  | cancel hzero =>
    cases h' with
    | finite hne => exact absurd hzero hne
    | overflow hne => exact absurd hzero hne
    | cancel => rfl
  | infinite_left s hy => cases h' <;> simp_all [isFinite, isNaN]
  | infinite_right s a t => cases h'; rfl
  | opposite s => cases h' <;> simp_all [isFinite]
  | nan_left label y => cases h' <;> simp_all [isNaN]
  | nan_right label hx => cases h' <;> simp_all [isFinite, isNaN]

/-- **Adding gives the sum.** -/
theorem add_eq_iff : x.add y = z ↔ IsSum x y z :=
  ⟨fun h => h ▸ isSum_add x y, (isSum_add x y).unique⟩

end Binary64

namespace Formula

/-! ## One number more -/

/-- **The double is nearest to an integer.** -/
def IsDouble (n : ℤ) (x : Binary64) : Prop :=
  ∃ code : Fin codeLimit, Nearest (n.natAbs * unitsPerOne) 1 code ∧ x = .finite (n < 0) code

/-- **A number and a term make a sum**: exact for integers, else that of doubles. -/
inductive Adds : Number → Number → Number → Prop
  | ints (a b : ℤ) : Adds (.int a) (.int b) (.int (a + b))
  | doubles {x y z : Binary64} : x.IsSum y z → Adds (.float x) (.float y) (.float z)
  | double_int {x y z : Binary64} {b : ℤ} : IsDouble b y → x.IsSum y z →
      Adds (.float x) (.int b) (.float z)
  | int_double {x y z : Binary64} {a : ℤ} : IsDouble a x → x.IsSum y z →
      Adds (.int a) (.float y) (.float z)

variable {a b c : Number} {ns : List Number}

theorem isDouble_iff {n : ℤ} {x : Binary64} : IsDouble n x ↔ Binary64.ofInt? n = some x := by
  rw [Binary64.ofInt?, Binary64.ofQuotient?_eq_some_iff Nat.one_pos, IsDouble]

theorem add_int_double {n : ℤ} {y : Binary64} : add (.int n) (.float y) = .ok c ↔
    ∃ x, Binary64.ofInt? n = some x ∧ c = .float (x.add y) := by
  rw [add.eq_def]
  generalize Binary64.ofInt? = double
  revert double
  -- As for quotients, the rest is checked for any way of making doubles of integers.
  refine id fun double => ?_
  dsimp only
  cases double n <;> simp [eq_comm]

theorem add_double_int {n : ℤ} {x : Binary64} : add (.float x) (.int n) = .ok c ↔
    ∃ y, Binary64.ofInt? n = some y ∧ c = .float (x.add y) := by
  rw [add.eq_def]
  generalize Binary64.ofInt? = double
  revert double
  refine id fun double => ?_
  dsimp only
  cases double n <;> simp [eq_comm]

/-- **Adding gives the sum**, and fails only when no finite double is nearest to an integer. -/
theorem add_eq_ok_iff : add a b = .ok c ↔ Adds a b c := by
  constructor
  · intro h
    cases a with
    | int m =>
      cases b with
      | int n => exact Except.ok.inj h ▸ .ints m n
      | float y =>
        obtain ⟨x, hx, rfl⟩ := add_int_double.mp h
        exact .int_double (isDouble_iff.mpr hx) (x.isSum_add y)
    | float x =>
      cases b with
      | float y => exact Except.ok.inj h ▸ .doubles (x.isSum_add y)
      | int n =>
        obtain ⟨y, hy, rfl⟩ := add_double_int.mp h
        exact .double_int (isDouble_iff.mpr hy) (x.isSum_add y)
  · rintro (⟨m, n⟩ | h | ⟨hy, h⟩ | ⟨hx, h⟩)
    · rfl
    · rw [← Binary64.add_eq_iff.mpr h]
      rfl
    · exact add_double_int.mpr ⟨_, isDouble_iff.mp hy, by rw [Binary64.add_eq_iff.mpr h]⟩
    · exact add_int_double.mpr ⟨_, isDouble_iff.mp hx, by rw [Binary64.add_eq_iff.mpr h]⟩

/-! ## All numbers -/

/-- **Numbers have a total**: they are added one after another to the number at the start. -/
inductive Totals : Number → List Number → Number → Prop
  | nil (a : Number) : Totals a [] a
  | cons {a n b total : Number} {ns : List Number} : Adds a n b → Totals b ns total →
      Totals a (n :: ns) total

theorem foldlM_add_eq_ok_iff : ns.foldlM add a = .ok c ↔ Totals a ns c := by
  induction ns generalizing a with
  | nil =>
    constructor
    · intro h
      exact Except.ok.inj h ▸ .nil a
    · rintro ⟨⟩
      rfl
  | cons n ns ih =>
    rw [List.foldlM_cons, bind_eq_ok]
    constructor
    · rintro ⟨b, hb, hrest⟩
      exact .cons (add_eq_ok_iff.mp hb) (ih.mp hrest)
    · rintro (- | ⟨hb, hrest⟩)
      exact ⟨_, add_eq_ok_iff.mpr hb, ih.mpr hrest⟩

/-- **Summing gives the total** of the numbers from zero on. -/
theorem sum_eq_ok_iff : sum ns = .ok c ↔ Totals (.int 0) ns c := foldlM_add_eq_ok_iff

theorem totals_ints (a : ℤ) (ns : List ℤ) :
    Totals (.int a) (ns.map Number.int) (.int (a + ns.sum)) := by
  induction ns generalizing a with
  | nil => rw [List.sum_nil, Int.add_zero]; exact .nil _
  | cons n ns ih =>
    have hrest := ih (a + n)
    rw [Int.add_assoc] at hrest
    rw [List.map_cons, List.sum_cons]
    exact .cons (.ints a n) hrest

end Formula

end LiveForm
