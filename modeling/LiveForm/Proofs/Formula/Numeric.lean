import LiveForm.Formula
import LiveForm.Proofs.Number.Nearest
import LiveForm.Proofs.Result
import LiveForm.Proofs.Rule.Order

/-!
# What the numeric functions compute

A quotient is the double nearest to the exact one. The largest and the smallest of numbers without a
NaN are found, in the exact order of integers and doubles.

* `IsQuotient`: the double is a number divided by a count;
* **`divide_eq_ok_iff`**: dividing gives that double, and gives none only when it is too large;
* `Number.AtMost`: a number is at most another;
* `IsBest`: what a scan for the best number keeps;
* `Extreme`: the value is one of the numbers and bounds them all, or is null when there are none;
* **`extreme_largest?`, `extreme_smallest?`**: the largest and the smallest number.
-/

namespace LiveForm

/-! ## Quotients -/

/-- A code that is nearest to a quotient is at most a code whose units the quotient does not
exceed. -/
theorem Nearest.le_of_le {num den code bound : ℕ} (hden : 0 < den) (h : Nearest num den code)
    (hbound : num ≤ units bound * den) : code ≤ bound := by
  by_contra hlt
  have hprev : units bound ≤ units (code - 1) := strictMono_units.monotone (by omega)
  have hcode : units bound < units code := strictMono_units (Nat.not_le.mp hlt)
  have hmiddle : (units code + units (code - 1)) * den ≤ 2 * units bound * den := by
    calc (units code + units (code - 1)) * den ≤ 2 * num := h.low
      _ ≤ 2 * (units bound * den) := Nat.mul_le_mul_left 2 hbound
      _ = 2 * units bound * den := (Nat.mul_assoc 2 _ den).symm
  have hle := Nat.le_of_mul_le_mul_right hmiddle hden
  omega

theorem Binary64.ofQuotient?_eq_some_iff {negative : Bool} {num den : ℕ} {q : Binary64}
    (hden : 0 < den) : ofQuotient? negative num den = some q ↔
      ∃ code : Fin codeLimit, Nearest num den code ∧ q = .finite negative code := by
  have hnearest : Nearest num den _ := nearest_nearestCode hden
  rw [ofQuotient?]
  split_ifs with hlt
  · refine ⟨fun h => ⟨_, hnearest, (Option.some.inj h).symm⟩, ?_⟩
    rintro ⟨code, hcode, rfl⟩
    obtain rfl : code = ⟨nearestCode num den, hlt⟩ := Fin.ext (hcode.unique hden hnearest)
    rfl
  · refine iff_of_false nofun ?_
    rintro ⟨code, hcode, -⟩
    exact hlt (hcode.unique hden hnearest ▸ code.isLt)

theorem Binary64.exists_divNat {count : ℕ} (hcount : 0 < count) (s : Bool) (c : Fin codeLimit) :
    ∃ code : Fin codeLimit, Nearest (units c) count code ∧
      (Binary64.finite s c).divNat count = .finite s code := by
  have hnearest : Nearest (units c) count _ := nearest_nearestCode hcount
  have hle : nearestCode (units c) count ≤ c :=
    hnearest.le_of_le hcount (Nat.le_mul_of_pos_right _ hcount)
  have hlt : nearestCode (units c) count < codeLimit := hle.trans_lt c.isLt
  refine ⟨⟨_, hlt⟩, hnearest, ?_⟩
  rw [divNat, ofQuotient, ofQuotient?, dif_pos hlt, Option.getD_some]

namespace Formula

/-- **The double is the number divided by the count**: the one nearest to the exact quotient, with
the sign of the number. Infinities and NaNs stay what they are. -/
inductive IsQuotient (count : ℕ) : Number → Binary64 → Prop
  | int {n : ℤ} {code : Fin codeLimit} (h : Nearest (n.natAbs * unitsPerOne) count code) :
    IsQuotient count (.int n) (.finite (n < 0) code)
  | finite {s : Bool} {c code : Fin codeLimit} (h : Nearest (units c) count code) :
    IsQuotient count (.float (.finite s c)) (.finite s code)
  | infinite (s : Bool) : IsQuotient count (.float (.infinite s)) (.infinite s)
  | nan (label : ℕ) : IsQuotient count (.float (.nan label)) (.nan label)

variable {count : ℕ}

section Positive

variable (hcount : 0 < count)

include hcount

theorem isQuotient_int_iff {n : ℤ} {q : Binary64} :
    IsQuotient count (.int n) q ↔ Binary64.divInt? n count = some q := by
  rw [Binary64.divInt?, Binary64.ofQuotient?_eq_some_iff hcount]
  constructor
  · rintro ⟨hnearest⟩
    exact ⟨_, hnearest, rfl⟩
  · rintro ⟨code, hnearest, rfl⟩
    exact .int hnearest

theorem isQuotient_float_iff {x q : Binary64} :
    IsQuotient count (.float x) q ↔ q = x.divNat count := by
  cases x with
  | infinite s => exact ⟨fun h => by cases h; rfl, fun h => h ▸ .infinite s⟩
  | nan l => exact ⟨fun h => by cases h; rfl, fun h => h ▸ .nan l⟩
  | finite s c =>
    obtain ⟨code, hnearest, hdiv⟩ := Binary64.exists_divNat hcount s c
    rw [hdiv]
    constructor
    · intro h
      cases h with
      | finite hother => rw [Fin.ext (hother.unique hcount hnearest)]
    · exact fun h => h ▸ .finite hnearest

end Positive

theorem divide_int {n : ℤ} {m : Number} : divide (.int n) count = .ok m ↔
    ∃ q, Binary64.divInt? n count = some q ∧ m = .float q := by
  rw [divide.eq_def]
  generalize Binary64.divInt? = quotient
  revert quotient
  -- The rest is for any way of dividing integers; behind `id` it is checked as such, while for the
  -- one at hand the check would set out to compute the quotient.
  refine id fun quotient => ?_
  dsimp only
  cases quotient n count with
  | none => simp
  | some q => simp [eq_comm]

theorem divide_float (x : Binary64) (count : ℕ) :
    divide (.float x) count = .ok (.float (x.divNat count)) := rfl

/-- **Dividing gives the quotient**, and fails only when no finite double is nearest to it. -/
theorem divide_eq_ok_iff (hcount : 0 < count) {n m : Number} :
    divide n count = .ok m ↔ ∃ q, IsQuotient count n q ∧ m = .float q := by
  cases n with
  | int n => simp only [divide_int, isQuotient_int_iff hcount]
  | float x => simp [divide_float, isQuotient_float_iff hcount, eq_comm]

end Formula

/-! ## The exact order -/

namespace Binary64.Extent

theorem lt_asymm {x y : Extent} (h : x.lt y = true) : y.lt x = false := by
  cases x <;> cases y <;> simp_all [Extent.lt]
  omega

theorem not_lt_trans {x y z : Extent} (hxy : x.lt y = false) (hyz : y.lt z = false) :
    x.lt z = false := by
  cases x <;> cases y <;> cases z <;> simp_all [Extent.lt]
  omega

end Binary64.Extent

namespace Number

variable {a b c : Number}

/-- The number is at most the other one. -/
def AtMost (a b : Number) : Prop := a.lt b = true ∨ a.eq b = true

theorem lt_asymm (h : a.lt b = true) : b.lt a = false := by
  unfold lt at *
  cases ha : a.extent? <;> cases hb : b.extent? <;> simp_all
  exact Binary64.Extent.lt_asymm h

theorem not_lt_trans (hb : b.isNaN = false) (hab : a.lt b = false) (hbc : b.lt c = false) :
    a.lt c = false := by
  obtain ⟨y, hy⟩ := exists_extent hb
  unfold lt at *
  cases ha : a.extent? <;> cases hc : c.extent? <;> simp_all
  exact Binary64.Extent.not_lt_trans hab hbc

theorem atMost_of_not_lt (ha : a.isNaN = false) (hb : b.isNaN = false) (h : b.lt a = false) :
    a.AtMost b := by
  have hone := one_of_order ha hb
  unfold AtMost
  cases hlt : a.lt b <;> cases heq : a.eq b <;> simp_all

end Number

namespace Formula

/-! ## The largest and the smallest number -/

/-- **The best of the numbers seen so far**: one of them that none of them beats. -/
structure IsBest (better : Number → Number → Bool) (seen : List Number) (best : Number) : Prop where
  mem : best ∈ seen
  unbeaten : ∀ m ∈ seen, better best m = false

section Scan

variable {better : Number → Number → Bool}
  (asymm : ∀ a b, better a b = true → better b a = false)
  (trans : ∀ a b c, b.isNaN = false → better a b = false → better b c = false →
    better a c = false)

include asymm

theorem not_better_self (n : Number) : better n n = false := by
  cases h : better n n
  · rfl
  · exact h.symm.trans (asymm n n h)

include trans

theorem IsBest.step {seen : List Number} {best m : Number} (h : IsBest better seen best)
    (hbest : best.isNaN = false) :
    IsBest better (seen ++ [m]) (if better best m then m else best) := by
  have hself := not_better_self asymm m
  cases hbetter : better best m
  · exact ⟨List.mem_append_left [m] h.mem,
      List.forall_mem_append.mpr ⟨h.unbeaten, by simpa using hbetter⟩⟩
  · have hseen : ∀ k ∈ seen, better m k = false := fun k hk =>
      trans m best k hbest (asymm best m hbetter) (h.unbeaten k hk)
    exact ⟨List.mem_append_right seen List.mem_cons_self,
      List.forall_mem_append.mpr ⟨hseen, by simpa using hself⟩⟩

theorem IsBest.scan {seen ns : List Number} {best : Number} (h : IsBest better seen best)
    (hns : ∀ m ∈ seen ++ ns, m.isNaN = false) :
    IsBest better (seen ++ ns)
      (ns.foldl (fun best m => if better best m then m else best) best) := by
  induction ns generalizing seen best with
  | nil => simpa using h
  | cons m ns ih =>
    rw [List.append_cons] at hns ⊢
    have hbest := hns best (List.mem_append_left ns (List.mem_append_left [m] h.mem))
    exact ih (h.step asymm trans hbest) hns

variable (better) in
theorem isBest_foldl {n : Number} {ns : List Number} (hns : ∀ m ∈ n :: ns, m.isNaN = false) :
    IsBest better (n :: ns) (ns.foldl (fun best m => if better best m then m else best) n) :=
  have hfirst : IsBest better [n] n :=
    ⟨List.mem_cons_self, by simpa using not_better_self asymm n⟩
  hfirst.scan asymm trans hns

end Scan

/-- **The value is the extreme of numbers**: null when there are none, else one of them to which
each of them is related. -/
def Extreme (r : Number → Number → Prop) (ns : List Number) (v : Value) : Prop :=
  (v = .null ↔ ns = []) ∧ (ns ≠ [] → ∃ n ∈ ns, v = .ofNumber n ∧ ∀ m ∈ ns, r m n)

theorem ofNumber_ne_null (n : Number) : Value.ofNumber n ≠ .null := by
  cases n <;> exact nofun

theorem extreme_of_mem {r : Number → Number → Prop} {ns : List Number} {n : Number} (hn : n ∈ ns)
    (h : ∀ m ∈ ns, r m n) : Extreme r ns (.optNumber (some n)) :=
  ⟨iff_of_false (ofNumber_ne_null n) (List.ne_nil_of_mem hn), fun _ => ⟨n, hn, rfl, h⟩⟩

theorem extreme_nil (r : Number → Number → Prop) : Extreme r [] .null :=
  ⟨iff_of_true rfl rfl, fun h => absurd rfl h⟩

variable {ns : List Number} (hns : ∀ n ∈ ns, n.isNaN = false)

include hns

/-- **The largest number is found.** -/
theorem extreme_largest? : Extreme Number.AtMost ns (.optNumber (largest? ns)) := by
  cases ns with
  | nil => exact extreme_nil _
  | cons n ns =>
    have hbest := isBest_foldl Number.lt (fun _ _ => Number.lt_asymm)
      (fun _ _ _ => Number.not_lt_trans) hns
    exact extreme_of_mem hbest.mem fun m hm =>
      Number.atMost_of_not_lt (hns m hm) (hns _ hbest.mem) (hbest.unbeaten m hm)

/-- **The smallest number is found.** -/
theorem extreme_smallest? : Extreme (flip Number.AtMost) ns (.optNumber (smallest? ns)) := by
  cases ns with
  | nil => exact extreme_nil _
  | cons n ns =>
    have hbest := isBest_foldl (flip Number.lt) (fun _ _ => Number.lt_asymm)
      (fun _ _ _ hb hab hbc => Number.not_lt_trans hb hbc hab) hns
    exact extreme_of_mem hbest.mem fun m hm =>
      Number.atMost_of_not_lt (hns _ hbest.mem) (hns m hm) (hbest.unbeaten m hm)

end Formula

end LiveForm
