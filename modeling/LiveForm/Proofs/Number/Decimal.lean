import Mathlib.Tactic.Ring
import Mathlib.Tactic.NormNum
import LiveForm.Number.Decimal
import LiveForm.Proofs.Number.Nearest

/-!
# The shortest decimal

A decimal rounds to a code exactly when the code is the nearest to its value, so a decimal that
rounds to a code is converted to it. The decimal with the fewest digits is looked for among those
that round to the code.

* `Binary64.roundsTo_iff`: to round to a code is to have it as the nearest one;
* `Binary64.ofDecimal_of_nearest`: a decimal is converted to its nearest code;
* **`Binary64.roundsTo_shortest`**: the shortest decimal of a code rounds to it, so that it is
  converted back.
-/

namespace LiveForm

namespace Nearest

variable {num den code : ℕ}

theorem mul_right {c : ℕ} (h : Nearest num den code) (hc : 0 < c) :
    Nearest (num * c) (den * c) code := by
  have hscale : ∀ u : ℕ, u * (den * c) = u * den * c := fun u => (Nat.mul_assoc u den c).symm
  refine ⟨?_, ?_, fun ho => ?_, fun ho => ?_⟩ <;> rw [hscale, ← Nat.mul_assoc]
  · exact Nat.mul_le_mul_right c h.low
  · exact Nat.mul_le_mul_right c h.high
  · exact Nat.mul_lt_mul_of_pos_right (h.low_odd ho) hc
  · exact Nat.mul_lt_mul_of_pos_right (h.high_odd ho) hc

theorem units_self (code : ℕ) : Nearest (units code) 1 code := by
  have hle : units (code - 1) ≤ units code := strictMono_units.monotone (Nat.sub_le code 1)
  have hlt : units code < units (code + 1) := strictMono_units (Nat.lt_succ_self code)
  refine ⟨by omega, by omega, fun ho => ?_, fun _ => by omega⟩
  have hstrict := strictMono_units (show code - 1 < code by omega)
  omega

theorem num_pos (h : Nearest num den code) (hcode : 0 < code) (hden : 0 < den) : 0 < num := by
  have hunits : units 0 < units code := strictMono_units hcode
  have hpos := Nat.mul_pos (show 0 < units code + units (code - 1) by omega) hden
  have hlow := h.low
  omega

end Nearest

namespace Binary64

variable {code coefficient : ℕ} {exponent : ℤ} {d : Decimal}

/-- **A code is nearest to a decimal.** -/
def NearestTo (coefficient : ℕ) (exponent : ℤ) (code : ℕ) : Prop :=
  Nearest (coefficient * 10 ^ exponent.toNat * unitsPerOne) (10 ^ (-exponent).toNat) code

/-- **A decimal rounds to a code exactly when the code is the nearest.** -/
theorem roundsTo_iff : roundsTo code d = true ↔ NearestTo d.coefficient d.exponent code := by
  have hdouble : 2 * d.coefficient * 10 ^ d.exponent.toNat * unitsPerOne
      = 2 * (d.coefficient * 10 ^ d.exponent.toNat * unitsPerOne) := by ring
  simp only [roundsTo, Nat.pow_eq, hdouble, NearestTo]
  split_ifs with heven
  · simp only [Bool.and_eq_true, decide_eq_true_eq]
    exact ⟨fun h => ⟨h.1, h.2, fun ho => by omega, fun ho => by omega⟩, fun h => ⟨h.low, h.high⟩⟩
  · simp only [Bool.and_eq_true, decide_eq_true_eq]
    have hodd : code % 2 = 1 := by omega
    exact ⟨fun h => ⟨h.1.le, h.2.le, fun _ => h.1, fun _ => h.2⟩,
      fun h => ⟨h.low_odd hodd, h.high_odd hodd⟩⟩

theorem NearestTo.coefficient_ne_zero (h : NearestTo coefficient exponent code)
    (hcode : 0 < code) : coefficient ≠ 0 := by
  rintro rfl
  exact absurd (Nearest.num_pos h hcode (by positivity)) (by simp)

theorem NearestTo.shift (h : NearestTo coefficient exponent code) (hexp : 0 ≤ exponent) :
    NearestTo (coefficient * 10 ^ (exponent.toNat + 1)) (-1) code := by
  have hscaled := Nearest.mul_right h (show 0 < 10 by omega)
  rw [show (-exponent).toNat = 0 by omega, pow_zero, Nat.one_mul] at hscaled
  have hnum : coefficient * 10 ^ (exponent.toNat + 1) * 10 ^ (-1 : ℤ).toNat * unitsPerOne
      = coefficient * 10 ^ exponent.toNat * unitsPerOne * 10 := by
    rw [show (-1 : ℤ).toNat = 0 from rfl, pow_zero, pow_succ]
    ring
  rw [NearestTo, hnum]
  exact hscaled

/-! ## Conversion -/

theorem unitsPerOne_eq : unitsPerOne = 2 ^ 1074 := by decide +kernel

theorem unitsPerOne_pos : 0 < unitsPerOne := by decide +kernel

theorem extentOfInt_inj {m n : ℤ} : extentOfInt m = extentOfInt n ↔ m = n := by
  rw [extentOfInt, extentOfInt, Extent.at.injEq]
  exact Int.mul_eq_mul_right_iff (Int.natCast_ne_zero.mpr unitsPerOne_pos.ne')

theorem units_codeLimit : units codeLimit = 2 ^ 1024 * unitsPerOne := by decide +kernel

theorem le_of_ten_pow_le {m a n : ℕ} (h : 10 ^ m * 2 ^ a ≤ 2 ^ n) : 33 * m + 10 * a ≤ 10 * n := by
  refine (Nat.pow_le_pow_iff_right (show 1 < 2 by omega)).mp ?_
  calc 2 ^ (33 * m + 10 * a) = (2 ^ 33) ^ m * 2 ^ (10 * a) := by rw [pow_add, pow_mul]
    _ ≤ (10 ^ 10) ^ m * 2 ^ (10 * a) :=
        Nat.mul_le_mul_right _ (Nat.pow_le_pow_left (by norm_num) m)
    _ = (10 ^ m * 2 ^ a) ^ 10 := by
        rw [mul_pow, ← pow_mul, ← pow_mul, ← pow_mul, Nat.mul_comm m, Nat.mul_comm a]
    _ ≤ (2 ^ n) ^ 10 := Nat.pow_le_pow_left h 10
    _ = 2 ^ (10 * n) := by rw [← pow_mul, Nat.mul_comm]

theorem le_of_le_ten_pow {m a n : ℕ} (h : 2 ^ n ≤ 2 ^ a * 10 ^ m) : 3 * n ≤ 3 * a + 10 * m := by
  refine (Nat.pow_le_pow_iff_right (show 1 < 2 by omega)).mp ?_
  calc 2 ^ (3 * n) = (2 ^ n) ^ 3 := by rw [← pow_mul, Nat.mul_comm]
    _ ≤ (2 ^ a * 10 ^ m) ^ 3 := Nat.pow_le_pow_left h 3
    _ = 2 ^ (3 * a) * (10 ^ 3) ^ m := by
        rw [mul_pow, ← pow_mul, ← pow_mul, ← pow_mul, Nat.mul_comm m, Nat.mul_comm a]
    _ ≤ 2 ^ (3 * a) * (2 ^ 10) ^ m := Nat.mul_le_mul_left _ (Nat.pow_le_pow_left (by norm_num) m)
    _ = 2 ^ (3 * a + 10 * m) := by rw [pow_add, pow_mul 2 10 m]

theorem magnitude_bounds (h : NearestTo coefficient exponent code) (hcode : 0 < code)
    (hlt : code < codeLimit) (hexp : -1100 ≤ exponent) :
    -400 ≤ (coefficient.log2 : ℤ) * 30103 / 100000 + exponent ∧
    (coefficient.log2 : ℤ) * 30103 / 100000 + exponent ≤ 400 := by
  -- The exponents are named so that nothing computes their powers.
  obtain ⟨u, hu, hone⟩ : ∃ u, u = 1074 ∧ unitsPerOne = 2 ^ u := ⟨1074, rfl, unitsPerOne_eq⟩
  obtain ⟨v, hv, hlimit⟩ : ∃ v, v = 1024 ∧ units codeLimit = 2 ^ v * unitsPerOne :=
    ⟨1024, rfl, units_codeLimit⟩
  have hpos : coefficient ≠ 0 := h.coefficient_ne_zero hcode
  have hunits : units 0 < units code := strictMono_units hcode
  have hlow : 10 ^ (-exponent).toNat * 2 ^ 0
      ≤ 2 ^ (coefficient.log2 + u + 2) * 10 ^ exponent.toNat := by
    calc 10 ^ (-exponent).toNat * 2 ^ 0
        ≤ (units code + units (code - 1)) * 10 ^ (-exponent).toNat := by
          rw [pow_zero, Nat.mul_one]
          exact Nat.le_mul_of_pos_left _ (by omega)
      _ ≤ 2 * (coefficient * 10 ^ exponent.toNat * unitsPerOne) := h.low
      _ = coefficient * (2 * 2 ^ u * 10 ^ exponent.toNat) := by rw [hone]; ring
      _ ≤ 2 ^ (coefficient.log2 + 1) * (2 * 2 ^ u * 10 ^ exponent.toNat) :=
          Nat.mul_le_mul_right _ Nat.lt_log2_self.le
      _ = 2 ^ (coefficient.log2 + u + 2) * 10 ^ exponent.toNat := by ring
  have hhigh : 2 ^ coefficient.log2 * 10 ^ exponent.toNat ≤ 2 ^ v * 10 ^ (-exponent).toNat := by
    refine Nat.le_of_mul_le_mul_right ?_ (Nat.mul_pos (show 0 < 2 by omega) unitsPerOne_pos)
    calc 2 ^ coefficient.log2 * 10 ^ exponent.toNat * (2 * unitsPerOne)
        = 2 ^ coefficient.log2 * (10 ^ exponent.toNat * (2 * unitsPerOne)) := by ring
      _ ≤ coefficient * (10 ^ exponent.toNat * (2 * unitsPerOne)) :=
          Nat.mul_le_mul_right _ (Nat.log2_self_le hpos)
      _ = 2 * (coefficient * 10 ^ exponent.toNat * unitsPerOne) := by ring
      _ ≤ (units code + units (code + 1)) * 10 ^ (-exponent).toNat := h.high
      _ ≤ (units codeLimit + units codeLimit) * 10 ^ (-exponent).toNat :=
          Nat.mul_le_mul_right _ (Nat.add_le_add (strictMono_units.monotone hlt.le)
            (strictMono_units.monotone hlt))
      _ = 2 ^ v * 10 ^ (-exponent).toNat * (2 * unitsPerOne) := by rw [hlimit]; ring
  rcases le_or_gt 0 exponent with hnonneg | hneg
  · rw [show (-exponent).toNat = 0 by omega, pow_zero, Nat.mul_one, Nat.mul_comm] at hhigh
    have hbound := le_of_ten_pow_le hhigh
    omega
  · rw [show exponent.toNat = 0 by omega, pow_zero 10, Nat.mul_one] at hhigh hlow
    have hlower := le_of_ten_pow_le hlow
    have hupper := le_of_le_ten_pow hhigh
    omega

/-- **A decimal is converted to its nearest code.** -/
theorem ofDecimal_of_nearest (s : Bool) (h : NearestTo coefficient exponent code)
    (hcode : 0 < code) (hlt : code < codeLimit) (hexp : -1100 ≤ exponent) :
    ofDecimal s coefficient exponent = .finite s ⟨code, hlt⟩ := by
  have hpos : coefficient ≠ 0 := h.coefficient_ne_zero hcode
  obtain ⟨hlow, hhigh⟩ := magnitude_bounds h hcode hlt hexp
  have hof : ∀ num den, nearestCode num den = code →
      ofQuotient s num den = .finite s ⟨code, hlt⟩ := by
    rintro num den rfl
    simp [ofQuotient, ofQuotient?, hlt]
  rw [ofDecimal, if_neg hpos]
  simp only [Nat.pow_eq]
  rw [if_neg (by omega), if_neg (by omega)]
  split_ifs with hnonneg
  · rw [NearestTo, show (-exponent).toNat = 0 by omega, pow_zero] at h
    exact hof _ _ ((nearestCode_eq_iff Nat.one_pos).mpr h)
  · rw [NearestTo, show exponent.toNat = 0 by omega, pow_zero, Nat.mul_one] at h
    exact hof _ _ ((nearestCode_eq_iff (by positivity)).mpr h)

/-! ## The shortest decimal -/

theorem onGrid?_eq_some (h : onGrid? code exponent = some d) :
    roundsTo code d = true ∧ d.exponent = exponent := by
  simp only [onGrid?] at h
  split_ifs at h with hnear hbelow habove
  · exact Option.some.inj h ▸ ⟨hnear, rfl⟩
  · exact Option.some.inj h ▸ ⟨hbelow, rfl⟩
  · exact Option.some.inj h ▸ ⟨habove, rfl⟩

theorem nearestTo_units (code : ℕ) {n : ℕ} (hn : unitsPerOne = 2 ^ n) :
    NearestTo (units code * Nat.pow 5 n) (-n) code := by
  have hscaled := (Nearest.units_self code).mul_right (show 0 < 10 ^ n by positivity)
  have hnum : units code * Nat.pow 5 n * 10 ^ (-n : ℤ).toNat * unitsPerOne
      = units code * 10 ^ n := by
    rw [show (-n : ℤ).toNat = 0 by omega, pow_zero, Nat.mul_one, hn, Nat.pow_eq, Nat.mul_assoc,
      ← Nat.mul_pow]
  rw [NearestTo, hnum, show (- -(n : ℤ)).toNat = n by omega]
  rwa [Nat.one_mul] at hscaled

/-- **The shortest decimal of a code rounds to it.** -/
theorem roundsTo_shortest (code : ℕ) :
    NearestTo (shortest code).coefficient (shortest code).exponent code ∧
      -1100 ≤ (shortest code).exponent := by
  simp only [shortest]
  generalize htop : ((Nat.log2 (units code) : ℤ) - 1072) * 30103 / 100000 + 1 = top
  cases hfind : (List.range 24).findSome? fun i : ℕ => onGrid? code (top - i) with
  | none =>
    rw [Option.getD_none]
    exact ⟨nearestTo_units code unitsPerOne_eq, by norm_num⟩
  | some d =>
    obtain ⟨i, hi, hgrid⟩ := List.exists_of_findSome?_eq_some hfind
    obtain ⟨hrounds, hexp⟩ := onGrid?_eq_some hgrid
    refine ⟨roundsTo_iff.mp hrounds, ?_⟩
    rw [List.mem_range] at hi
    rw [Option.getD_some, hexp]
    omega

end Binary64

end LiveForm
