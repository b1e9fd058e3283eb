import Mathlib.Order.Monotone.Basic
import Mathlib.Tactic.Ring
import Mathlib.Tactic.SplitIfs
import LiveForm.Number.Binary64

/-!
# The nearest code

A code is nearest to a quotient when the quotient lies between the middles to the codes next to it;
a middle belongs to the even one of its two codes. No quotient has two such codes, and the one that
is computed is one.

* `units_succ`, `strictMono_units`: how units grow with codes;
* `Nearest`: the code is nearest to a quotient of units;
* `Nearest.unique`: no other code is;
* **`nearest_nearestCode`, `nearestCode_eq_iff`**: the nearest code is found.
-/

namespace LiveForm

/-! ## Units -/

/-- The value of a significand `r` at a scale: below the least normal number there is one scale. -/
theorem units_scaled {s r : ℕ} (hr : r ≤ 2 * leastNormal) (hs : s = 0 ∨ leastNormal ≤ r) :
    units (s * leastNormal + r) = r * 2 ^ s := by
  rw [units, Nat.pow_eq]
  unfold leastNormal at hr hs ⊢
  split_ifs with hlt
  · obtain rfl : s = 0 := by omega
    simp
  · rcases Nat.lt_or_eq_of_le hr with hr | rfl
    · have hmod : (s * 4503599627370496 + r) % 4503599627370496 = r - 4503599627370496 := by omega
      have hdiv : (s * 4503599627370496 + r) / 4503599627370496 - 1 = s := by omega
      rw [hmod, hdiv, Nat.add_sub_cancel' (by omega)]
    · have hmod : (s * 4503599627370496 + 2 * 4503599627370496) % 4503599627370496 = 0 := by omega
      have hdiv : (s * 4503599627370496 + 2 * 4503599627370496) / 4503599627370496 - 1 = s + 1 := by
        omega
      rw [hmod, hdiv, Nat.pow_succ]
      ring

/-- **From each code to the next the units grow by the scale of the code.** -/
theorem units_succ (code : ℕ) : units (code + 1) = units code + 2 ^ (code / leastNormal - 1) := by
  obtain ⟨s, r, hcode, hs, hr, hscale⟩ : ∃ s r, code = s * leastNormal + r ∧
      (s = 0 ∨ leastNormal ≤ r) ∧ r < 2 * leastNormal ∧ code / leastNormal - 1 = s := by
    unfold leastNormal
    exact ⟨code / 4503599627370496 - 1, code - (code / 4503599627370496 - 1) * 4503599627370496,
      by omega, by omega, by omega, rfl⟩
  rw [hscale, hcode, Nat.add_assoc, units_scaled hr (by omega), units_scaled hr.le hs,
    Nat.succ_mul]

theorem strictMono_units : StrictMono units := by
  refine strictMono_nat_of_lt_succ fun code => ?_
  rw [units_succ]
  exact Nat.lt_add_of_pos_right (Nat.two_pow_pos _)

/-! ## Middles -/

/-- **The code is nearest to a quotient**: the quotient lies between the middles to the codes next
to it, and on a middle only when the code is even. -/
structure Nearest (num den code : ℕ) : Prop where
  low : (units code + units (code - 1)) * den ≤ 2 * num
  high : 2 * num ≤ (units code + units (code + 1)) * den
  low_odd : code % 2 = 1 → (units code + units (code - 1)) * den < 2 * num
  high_odd : code % 2 = 1 → 2 * num < (units code + units (code + 1)) * den

variable {num den code code' : ℕ}

namespace Nearest

theorem not_lt (hden : 0 < den) (h : Nearest num den code) (h' : Nearest num den code') :
    ¬ code < code' := by
  intro hlt
  have hle : units (code + 1) ≤ units code' := strictMono_units.monotone hlt
  have hprev : units code ≤ units (code' - 1) := strictMono_units.monotone (by omega)
  have hchain : (units code' + units (code' - 1)) * den ≤ (units code + units (code + 1)) * den :=
    h'.low.trans h.high
  have hsum := Nat.le_of_mul_le_mul_right hchain hden
  obtain rfl : code' = code + 1 := by
    by_contra hne
    have := strictMono_units (show code + 1 < code' by omega)
    omega
  -- The quotient is on the middle between the two, one of which is odd.
  have hsame : units (code + 1) + units (code + 1 - 1) = units code + units (code + 1) := by
    rw [Nat.add_sub_cancel, Nat.add_comm]
  rcases Nat.mod_two_eq_zero_or_one code with heven | hodd
  · have hstrict := h'.low_odd (by omega)
    rw [hsame] at hstrict
    exact absurd h.high (Nat.not_le.mpr hstrict)
  · have hstrict := h.high_odd hodd
    rw [← hsame] at hstrict
    exact absurd h'.low (Nat.not_le.mpr hstrict)

/-- **No quotient has two nearest codes.** -/
theorem unique (hden : 0 < den) (h : Nearest num den code) (h' : Nearest num den code') :
    code = code' :=
  Nat.le_antisymm (Nat.not_lt.mp (h'.not_lt hden h)) (Nat.not_lt.mp (h.not_lt hden h'))

end Nearest

/-! ## Rounding -/

/-- The nearest whole number to a quotient is within a half of it, and at a half it is even. -/
theorem roundDiv_spec (num : ℕ) (hden : 0 < den) :
    2 * num ≤ (2 * roundDiv num den + 1) * den ∧
    2 * roundDiv num den * den ≤ 2 * num + den ∧
    (roundDiv num den % 2 = 1 → 2 * num < (2 * roundDiv num den + 1) * den ∧
      2 * roundDiv num den * den < 2 * num + den) := by
  have hdiv := Nat.div_add_mod' num den
  have hmod := Nat.mod_lt num hden
  have hsplit : ∀ r, (2 * r + 1) * den = 2 * (r * den) + den ∧ 2 * r * den = 2 * (r * den) :=
    fun r => ⟨by ring, by ring⟩
  obtain ⟨hhigh, hlow⟩ := hsplit (roundDiv num den)
  rw [hhigh, hlow, roundDiv]
  split_ifs with h₁ h₂
  · omega
  · rw [Nat.add_mul, Nat.one_mul]
    omega
  · rcases Nat.mod_two_eq_zero_or_one (num / den) with heven | hodd
    · rw [heven, Nat.add_zero]
      omega
    · rw [hodd, Nat.add_mul, Nat.one_mul]
      omega

theorem le_roundDiv {k : ℕ} (hden : 0 < den) (h : k * den ≤ num) : k ≤ roundDiv num den := by
  have hk : k ≤ num / den := (Nat.le_div_iff_mul_le hden).mpr h
  rw [roundDiv]
  split_ifs <;> omega

theorem roundDiv_le {k : ℕ} (hden : 0 < den) (h : num < k * den) : roundDiv num den ≤ k := by
  have hk : num / den < k := (Nat.div_lt_iff_lt_mul hden).mpr h
  rw [roundDiv]
  split_ifs <;> omega

theorem excessBits_spec (num : ℕ) (hden : 0 < den) :
    num < 2 * leastNormal * (den * 2 ^ excessBits (num / den)) ∧
    (0 < excessBits (num / den) → leastNormal * (den * 2 ^ excessBits (num / den)) ≤ num) := by
  have hnormal : leastNormal = 2 ^ 52 := by norm_num
  constructor
  · have hlt : num / den < 2 ^ (53 + excessBits (num / den)) :=
      Nat.lt_log2_self.trans_le (Nat.pow_le_pow_right (by omega) (by unfold excessBits; omega))
    rw [Nat.div_lt_iff_lt_mul hden] at hlt
    calc num < 2 ^ (53 + excessBits (num / den)) * den := hlt
      _ = 2 * leastNormal * (den * 2 ^ excessBits (num / den)) := by rw [hnormal, pow_add]; ring
  · intro hpos
    have hlog : 52 + excessBits (num / den) ≤ (num / den).log2 := by unfold excessBits at *; omega
    have hne : num / den ≠ 0 := by
      intro h
      rw [h] at hpos
      exact absurd hpos (by decide)
    rw [Nat.le_log2 hne, Nat.le_div_iff_mul_le hden] at hlog
    calc leastNormal * (den * 2 ^ excessBits (num / den))
        = 2 ^ (52 + excessBits (num / den)) * den := by rw [hnormal, pow_add]; ring
      _ ≤ num := hlog

theorem le_units_succ {s r : ℕ} (hr : r ≤ 2 * leastNormal) (hs : s = 0 ∨ leastNormal ≤ r) :
    (r + 1) * 2 ^ s ≤ units (s * leastNormal + r + 1) := by
  rw [units_succ, units_scaled hr hs, Nat.succ_mul]
  refine Nat.add_le_add_left (Nat.pow_le_pow_right (by omega) ?_) _
  unfold leastNormal at *
  omega

/-- The middle below a significand is half a step of the scale lower, unless the significand is the
least at its scale. -/
theorem middle_below (den : ℕ) {s n : ℕ} (hn : n + 1 ≤ 2 * leastNormal)
    (hs : s = 0 ∨ leastNormal ≤ n) :
    (units (s * leastNormal + (n + 1)) + units (s * leastNormal + n)) * den + den * 2 ^ s
      = 2 * (n + 1) * (den * 2 ^ s) := by
  rw [units_scaled hn (by omega), units_scaled (by omega) hs]
  ring

theorem low_middle {s r : ℕ} (hr : r ≤ 2 * leastNormal) (hs : s = 0 ∨ leastNormal ≤ r)
    (hge : 0 < s → leastNormal * (den * 2 ^ s) ≤ num)
    (hlow : 2 * r * (den * 2 ^ s) ≤ 2 * num + den * 2 ^ s)
    (hodd : r % 2 = 1 → 2 * r * (den * 2 ^ s) < 2 * num + den * 2 ^ s) :
    (units (s * leastNormal + r) + units (s * leastNormal + r - 1)) * den ≤ 2 * num ∧
    (r % 2 = 1 → (units (s * leastNormal + r) + units (s * leastNormal + r - 1)) * den < 2 * num) :=
  by
  rcases r with - | n
  · obtain rfl : s = 0 := by unfold leastNormal at hs; omega
    simp [units]
  rw [Nat.add_succ_sub_one]
  by_cases hleast : s = 0 ∨ leastNormal ≤ n
  · have hmiddle := middle_below den hr hleast
    omega
  · -- The least significand of its scale is even, and the quotient is not below it.
    obtain ⟨hpos, hn⟩ : 0 < s ∧ n + 1 = leastNormal := by unfold leastNormal at *; omega
    have hprev : units (s * leastNormal + n) ≤ units (s * leastNormal + (n + 1)) :=
      strictMono_units.monotone (by omega)
    have hle : (units (s * leastNormal + (n + 1)) + units (s * leastNormal + n)) * den ≤
        2 * num := by
      calc (units (s * leastNormal + (n + 1)) + units (s * leastNormal + n)) * den
          ≤ (2 * units (s * leastNormal + (n + 1))) * den := Nat.mul_le_mul_right _ (by omega)
        _ = 2 * (leastNormal * (den * 2 ^ s)) := by rw [units_scaled hr hs, hn]; ring
        _ ≤ 2 * num := Nat.mul_le_mul_left 2 (hge hpos)
    refine ⟨hle, fun h => ?_⟩
    rw [hn] at h
    exact absurd h (by decide)

/-- **The computed code is nearest.** -/
theorem nearest_nearestCode (hden : 0 < den) : Nearest num den (nearestCode num den) := by
  obtain ⟨hlt, hge⟩ := excessBits_spec num hden
  rw [nearestCode, Nat.pow_eq]
  generalize excessBits (num / den) = s at hlt hge ⊢
  have hD : 0 < den * 2 ^ s := Nat.mul_pos hden (Nat.two_pow_pos s)
  obtain ⟨hhigh, hlow, hodd⟩ := roundDiv_spec num hD
  have hr : roundDiv num (den * 2 ^ s) ≤ 2 * leastNormal := roundDiv_le hD hlt
  have hs : s = 0 ∨ leastNormal ≤ roundDiv num (den * 2 ^ s) :=
    (Nat.eq_zero_or_pos s).imp_right fun h => le_roundDiv hD (hge h)
  generalize roundDiv num (den * 2 ^ s) = r at hhigh hlow hodd hr hs ⊢
  have hparity : (s * leastNormal + r) % 2 = r % 2 := by unfold leastNormal; omega
  have hup : (2 * r + 1) * (den * 2 ^ s)
      ≤ (units (s * leastNormal + r) + units (s * leastNormal + r + 1)) * den := by
    calc (2 * r + 1) * (den * 2 ^ s) = (r * 2 ^ s + (r + 1) * 2 ^ s) * den := by ring
      _ ≤ _ := Nat.mul_le_mul_right _ (Nat.add_le_add (units_scaled hr hs).ge (le_units_succ hr hs))
  obtain ⟨hdown, hdownOdd⟩ := low_middle hr hs hge hlow fun h => (hodd h).2
  exact ⟨hdown, hhigh.trans hup, fun h => hdownOdd (hparity ▸ h),
    fun h => (hodd (hparity ▸ h)).1.trans_le hup⟩

theorem nearestCode_eq_iff (hden : 0 < den) : nearestCode num den = code ↔ Nearest num den code :=
  ⟨fun h => h ▸ nearest_nearestCode hden, fun h => (nearest_nearestCode hden).unique hden h⟩

end LiveForm
