import Mathlib.Order.Monotone.Basic
import LiveForm.Number.Basic
import LiveForm.Proofs.Calendar.Reading
import LiveForm.Proofs.Value.Reflexive

/-!
# The orders that rules compare by

Dates are compared by their positions in the calendar, and numbers by their places on the common
line of integers and doubles. Both orders are total: of two dates, and of two numbers that are no
NaNs, exactly one is less, or they are equal.

* `Date.daysBeforeYear_succ`, `Date.daysBeforeMonth_succ`: the counts of days grow by the length of
  a year and of a month;
* **`Date.ordinal_lt_iff`**: the order of positions is that of year, month and day;
* **`Date.one_of_order`, `Number.one_of_order`**: exactly one of less, equal and greater.
-/

namespace LiveForm

theorem count_of_trichotomy {α : Type} [LinearOrder α] (a b : α) :
    [decide (a < b), decide (a = b), decide (b < a)].count true = 1 := by
  rcases lt_trichotomy a b with h | h | h
  · simp [h, h.ne, h.not_gt]
  · simp [h]
  · simp [h, h.ne', h.not_gt]

namespace Date

/-! ## Days of a year -/

theorem daysBeforeMonth_succ (year month : ℕ) : daysBeforeMonth year (month + 1) =
    daysBeforeMonth year month + daysInMonth year month := by
  rw [daysBeforeMonth, List.range_succ, List.foldl_append]
  rfl

theorem monotone_daysBeforeMonth (year : ℕ) : Monotone (daysBeforeMonth year) :=
  monotone_nat_of_le_succ fun month => by
    rw [daysBeforeMonth_succ]
    exact Nat.le_add_right _ _

theorem daysBeforeMonth_thirteen (year : ℕ) :
    daysBeforeMonth year 13 = if isLeap year then 366 else 365 := by
  have hfebruary : daysInMonth year 2 = if isLeap year then 29 else 28 := rfl
  simp only [daysBeforeMonth_succ, hfebruary]
  split <;> rfl

theorem isLeap_iff (year : ℕ) : isLeap year = true ↔ 4 ∣ year ∧ (¬ 100 ∣ year ∨ 400 ∣ year) := by
  simp [isLeap, Nat.dvd_iff_mod_eq_zero]

theorem daysBeforeYear_succ {year : ℕ} (h : 1 ≤ year) : daysBeforeYear (year + 1) =
    daysBeforeYear year + daysBeforeMonth year 13 := by
  obtain ⟨y, rfl⟩ := Nat.exists_eq_add_of_le' h
  rw [daysBeforeMonth_thirteen]
  simp only [daysBeforeYear, Nat.add_sub_cancel, Nat.succ_div, isLeap_iff]
  -- Each of the three quotients grows exactly when the new year is a multiple.
  have h100 : 100 ∣ y + 1 → 4 ∣ y + 1 := Nat.dvd_trans (by decide)
  have h400 : 400 ∣ y + 1 → 100 ∣ y + 1 := Nat.dvd_trans (by decide)
  have hle : y / 100 ≤ y / 4 := Nat.div_le_div_left (by decide) (by decide)
  generalize y / 4 = fourths at *
  generalize y / 100 = centuries at *
  split_ifs <;> grind

theorem monotone_daysBeforeYear : Monotone daysBeforeYear :=
  monotone_nat_of_le_succ fun year => by
    rcases Nat.eq_zero_or_pos year with rfl | h
    · decide
    · rw [daysBeforeYear_succ h]
      exact Nat.le_add_right _ _

/-! ## Positions of dates -/

variable (d e : Date)

theorem year_pos : 1 ≤ d.year := by
  have h := d.exists_day
  simp only [isDay, Bool.and_eq_true, decide_eq_true_eq] at h
  exact h.1.1.1

theorem day_pos : 1 ≤ d.day := by
  have h := d.exists_day
  simp only [isDay, Bool.and_eq_true, decide_eq_true_eq] at h
  exact h.1.2

theorem position_le : daysBeforeMonth d.year d.month + d.day ≤
    daysBeforeMonth d.year (d.month + 1) := by
  have h := d.exists_day
  simp only [isDay, Bool.and_eq_true, decide_eq_true_eq] at h
  rw [daysBeforeMonth_succ]
  exact Nat.add_le_add_left h.2 _

theorem ordinal_le : d.ordinal ≤ daysBeforeYear (d.year + 1) := by
  have hmonth : daysBeforeMonth d.year (d.month + 1) ≤ daysBeforeMonth d.year 13 :=
    monotone_daysBeforeMonth d.year (Nat.succ_le_succ d.month_le)
  rw [ordinal, daysBeforeYear_succ d.year_pos, Nat.add_assoc]
  exact Nat.add_le_add_left (d.position_le.trans hmonth) _

variable {d e}

theorem ordinal_lt_of_year (h : d.year < e.year) : d.ordinal < e.ordinal := by
  have hyears : daysBeforeYear (d.year + 1) ≤ daysBeforeYear e.year := monotone_daysBeforeYear h
  have hd := d.ordinal_le
  have he := e.day_pos
  unfold ordinal at *
  omega

theorem ordinal_lt_of_month (hyear : d.year = e.year) (h : d.month < e.month) :
    d.ordinal < e.ordinal := by
  have hmonths : daysBeforeMonth e.year (d.month + 1) ≤ daysBeforeMonth e.year e.month :=
    monotone_daysBeforeMonth e.year h
  have hd := d.position_le
  have he := e.day_pos
  unfold ordinal
  rw [hyear] at hd ⊢
  omega

theorem ordinal_lt_of_day (hyear : d.year = e.year) (hmonth : d.month = e.month)
    (h : d.day < e.day) : d.ordinal < e.ordinal := by
  rw [ordinal, ordinal, hyear, hmonth]
  exact Nat.add_lt_add_left h _

/-- **The calendar goes by year, then by month, then by day.** -/
theorem ordinal_lt_iff : d.ordinal < e.ordinal ↔ d.year < e.year ∨
    d.year = e.year ∧ (d.month < e.month ∨ d.month = e.month ∧ d.day < e.day) := by
  constructor
  · intro h
    -- Otherwise the other date comes first, or the dates have equal positions.
    rcases lt_trichotomy d.year e.year with hy | hy | hy
    · exact Or.inl hy
    · refine Or.inr ⟨hy, ?_⟩
      rcases lt_trichotomy d.month e.month with hm | hm | hm
      · exact Or.inl hm
      · refine Or.inr ⟨hm, ?_⟩
        rw [ordinal, ordinal, hy, hm] at h
        exact Nat.lt_of_add_lt_add_left h
      · exact absurd (ordinal_lt_of_month hy.symm hm) h.not_gt
    · exact absurd (ordinal_lt_of_year hy) h.not_gt
  · rintro (hy | ⟨hy, hm | ⟨hm, hd⟩⟩)
    · exact ordinal_lt_of_year hy
    · exact ordinal_lt_of_month hy hm
    · exact ordinal_lt_of_day hy hm hd

theorem ordinal_inj : d.ordinal = e.ordinal ↔ d = e := by
  refine ⟨fun h => ?_, fun h => h ▸ rfl⟩
  have hde := mt ordinal_lt_iff.mpr h.not_lt
  have hed := mt ordinal_lt_iff.mpr h.not_gt
  obtain ⟨hy, hm, hday⟩ : d.year = e.year ∧ d.month = e.month ∧ d.day = e.day := by omega
  cases d
  cases e
  cases hy
  cases hm
  cases hday
  rfl

/-- **Of two dates exactly one comes first, or they are the same.** -/
theorem one_of_order (d e : Date) : [d.lt e, decide (d = e), e.lt d].count true = 1 := by
  have heq : decide (d = e) = decide (d.ordinal = e.ordinal) :=
    decide_eq_decide.mpr ordinal_inj.symm
  rw [heq]
  exact count_of_trichotomy d.ordinal e.ordinal

end Date

/-! ## Numbers -/

theorem Binary64.Extent.one_of_order (x y : Extent) :
    [x.lt y, decide (x = y), y.lt x].count true = 1 := by
  cases x with
  | bottom => cases y <;> rfl
  | top => cases y <;> rfl
  | «at» a =>
    cases y with
    | bottom => rfl
    | top => rfl
    | «at» b =>
      simp only [Extent.lt, Extent.at.injEq]
      exact count_of_trichotomy a b

namespace Number

variable {a b : Number}

theorem exists_extent (h : a.isNaN = false) : ∃ x, a.extent? = some x := by
  cases a with
  | int n => exact ⟨_, rfl⟩
  | float x => exact Option.isSome_iff_exists.mp (Binary64.extent_isSome h)

theorem eq_refl (h : a.isNaN = false) : a.eq a = true := by
  obtain ⟨x, hx⟩ := exists_extent h
  rw [eq, hx]
  exact decide_eq_true rfl

/-- **Of two numbers that are no NaNs exactly one is less, or they are equal.** -/
theorem one_of_order (ha : a.isNaN = false) (hb : b.isNaN = false) :
    [a.lt b, a.eq b, b.lt a].count true = 1 := by
  obtain ⟨x, hx⟩ := exists_extent ha
  obtain ⟨y, hy⟩ := exists_extent hb
  rw [lt, lt, eq, hx, hy]
  exact x.one_of_order y

end Number

end LiveForm
