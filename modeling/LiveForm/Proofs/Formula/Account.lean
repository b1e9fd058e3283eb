import LiveForm.Proofs.Formula.Total
import LiveForm.Proofs.Value.Printable

/-!
# Formulas account for every source

Every source of a formula is blank, a NaN, a number or something else. The numeric functions use
the numbers, count the numbers and the others, and report the others one by one: no source is
dropped and none is counted twice, also when a field is a source more than once. They have no value
when a source cannot be reported, or when the numbers have no total.

* `filled`, `numeric`, `leftOut`, `terms`, `report`: the sources told apart, from their values;
* `Formula.Reportable`: what is left out can be reported;
* `Formula.outcome`: the value that a function has on the sources of a formula;
* `Formula.Accounts`: the functions account for every source;
* **`Formula.accounts`**: they do, whatever the sources and their values are.
-/

namespace LiveForm

/-! ## Kinds of values -/

namespace Value

variable {v : Value}

theorem not_isBlank_of_isNumber (h : v.isNumber = true) : v.isBlank = false := by
  cases v <;> first | rfl | exact nomatch h

theorem isNumber_of_isNaN (h : v.isNaN = true) : v.isNumber = true := by
  cases v <;> first | rfl | exact nomatch h

theorem isNaN_of_number? {n : Number} (h : v.number? = some n) : n.isNaN = v.isNaN := by
  cases v <;> cases h <;> rfl

theorem ofNumber_injective : Function.Injective ofNumber := by
  intro a b h
  cases a <;> cases b <;> cases h <;> rfl

end Value

namespace Formula

variable (f : Formula) (settings : Settings) (data : String → Value)

/-! ## The sources of a formula -/

/-- The sources that are neither blank nor a NaN. -/
def filled : List String := f.sources.filter fun key => !(data key).isBlank && !(data key).isNaN

/-- The sources that are numbers other than NaN. -/
def numeric : List String := f.sources.filter fun key => (data key).isNumber && !(data key).isNaN

/-- The sources that are neither blank nor numbers. -/
def leftOut : List String := f.sources.filter fun key => !(data key).isBlank && !(data key).isNumber

/-- The numbers among the sources. -/
def terms : List Number := (f.numeric data).filterMap fun key => (data key).number?

/-- An issue for each source that is left out. -/
def report : List Issue := (f.leftOut data).map fun key => ⟨key, data key⟩

/-- **Each source that is left out can be reported**: it holds no integer that is too long to be
written out. -/
def Reportable : Prop := ∀ key ∈ f.leftOut data, ¬ (data key).HoldsLong

/-- The value that a function has on the sources of a formula. -/
def outcome (function : Function) : Except Fault Value :=
  (({ f with function } : Formula).evaluate settings data).map Result.value

/-- **The functions account for every source.** -/
structure Accounts : Prop where
  /-- COUNT is the number of sources that have a value. -/
  count : f.outcome settings data .count = .ok (.int (f.filled data).length)
  /-- As often as it is a source, each of them is a number or is left out. -/
  parts : (f.numeric data ++ f.leftOut data).Perm (f.filled data)
  /-- SUM and AVG report those that they leave out, in the order of the sources. -/
  issues : ∀ function ∈ [Function.sum, .avg], ∀ result,
    ({ f with function } : Formula).evaluate settings data = .ok result →
    result.issues = f.report data
  /-- What they count is what they add and what they report. -/
  balance : ∀ function ∈ [Function.sum, .avg], ∀ result,
    ({ f with function } : Formula).evaluate settings data = .ok result →
    (f.filled data).length = (f.terms data).length + result.issues.length
  /-- SUM is the total of the numbers, and there is none only when they have no total or what is
  left out cannot be reported. -/
  sum : ∀ v, f.outcome settings data .sum = .ok v ↔
    f.Reportable data ∧ ∃ total, Totals (.int 0) (f.terms data) total ∧ v = .ofNumber total
  /-- AVG is zero when there is nothing to count. -/
  avg_zero : f.filled data = [] → f.outcome settings data .avg = .ok (.int 0)
  /-- Otherwise it is SUM divided by COUNT. -/
  avg : f.filled data ≠ [] → ∀ v, f.outcome settings data .avg = .ok v ↔
    ∃ total q, f.outcome settings data .sum = .ok (.ofNumber total) ∧
      IsQuotient (f.filled data).length total q ∧ v = .float q
  /-- Integers have their exact sum, in whichever order their sources are. -/
  sum_ints : f.Reportable data → ∀ ns : List ℤ, f.terms data = ns.map .int →
    ∀ sources, sources.Perm f.sources →
    ({ f with sources } : Formula).outcome settings data .sum = .ok (.int ns.sum)
  /-- MAX is the largest number. -/
  max : ∃ v, f.outcome settings data .max = .ok v ∧ Extreme Number.AtMost (f.terms data) v
  /-- MIN is the smallest number. -/
  min : ∃ v, f.outcome settings data .min = .ok v ∧
    Extreme (flip Number.AtMost) (f.terms data) v

/-! ## The sources told apart -/

variable {settings f data}

theorem numeric_eq_filter : f.numeric data =
    (f.filled data).filter fun key => (data key).isNumber := by
  rw [numeric, filled, List.filter_filter]
  refine List.filter_congr fun key _ => ?_
  cases h : (data key).isNumber
  · simp
  · simp [Value.not_isBlank_of_isNumber h]

theorem leftOut_eq_filter : f.leftOut data =
    (f.filled data).filter fun key => !(data key).isNumber := by
  rw [leftOut, filled, List.filter_filter]
  refine List.filter_congr fun key _ => ?_
  cases h : (data key).isNaN
  · simp [Bool.and_comm]
  · simp [Value.isNumber_of_isNaN h]

theorem parts : (f.numeric data ++ f.leftOut data).Perm (f.filled data) := by
  rw [numeric_eq_filter, leftOut_eq_filter]
  exact List.filter_append_perm _ _

theorem terms_length : (f.terms data).length = (f.numeric data).length := by
  rw [terms, List.length_filterMap_eq_countP, List.countP_eq_length]
  intro key hkey
  exact (Bool.and_eq_true_iff.mp (List.mem_filter.mp hkey).2).1

theorem filled_length :
    (f.filled data).length = (f.terms data).length + (f.report data).length := by
  rw [← parts.length_eq, List.length_append, terms_length, report, List.length_map]

theorem isNaN_of_mem_terms : ∀ n ∈ f.terms data, n.isNaN = false := by
  intro n hn
  obtain ⟨key, hkey, hnumber⟩ := List.mem_filterMap.mp hn
  rw [Value.isNaN_of_number? hnumber]
  simpa using (Bool.and_eq_true_iff.mp (List.mem_filter.mp hkey).2).2

theorem terms_perm {sources : List String} (h : sources.Perm f.sources) :
    (({ f with sources } : Formula).terms data).Perm (f.terms data) :=
  (h.filter _).filterMap _

theorem report_of_empty (h : f.filled data = []) : f.report data = [] := by
  rw [report, leftOut_eq_filter, h, List.filter_nil, List.map_nil]

theorem reportable_of_perm {sources : List String} (h : sources.Perm f.sources)
    (hf : f.Reportable data) : ({ f with sources } : Formula).Reportable data := fun key hkey =>
  hf key ((h.filter _).mem_iff.mp hkey)

/-! ## What the functions use -/

theorem present_sources : present (f.sources.map fun key => (key, data key)) =
    (f.filled data).map fun key => (key, data key) := by
  rw [present, filled, List.filter_map]
  simp [Function.comp_def, isEmpty]

theorem numbers_sources : numbers (f.sources.map fun key => (key, data key)) = f.terms data := by
  rw [numbers, present_sources, terms, numeric_eq_filter, List.filterMap_map, List.filterMap_filter]
  refine List.filterMap_congr fun key _ => ?_
  cases h : (data key).number? <;> simp [Value.isNumber, h]

theorem issues_sources : issues (f.sources.map fun key => (key, data key)) = f.report data := by
  rw [issues, present_sources, report, leftOut_eq_filter, List.filter_map, List.map_map]
  rfl

theorem printable_report : ((f.report data).all fun i => i.value.printable) = true ↔
    f.Reportable data := by
  rw [List.all_eq_true, report, List.forall_mem_map]
  refine forall₂_congr fun key _ => ?_
  rw [← Value.printable_eq_false_iff, Bool.not_eq_false]

theorem reasoned_eq_ok_iff {left : List Issue} :
    reasoned (f.sources.map fun key => (key, data key)) = .ok left ↔
      f.Reportable data ∧ left = f.report data := by
  rw [reasoned, issues_sources, ← printable_report]
  split_ifs with h <;> simp [h, eq_comm]

theorem total_eq_ok_iff {t : Number × List Issue} :
    total (f.sources.map fun key => (key, data key)) = .ok t ↔
      f.Reportable data ∧ Totals (.int 0) (f.terms data) t.1 ∧ t.2 = f.report data := by
  rw [total, bind_eq_ok, numbers_sources]
  constructor
  · rintro ⟨left, hleft, h⟩
    obtain ⟨n, hn, hpair⟩ := bind_eq_ok.mp h
    cases hpair
    obtain ⟨hreportable, rfl⟩ := reasoned_eq_ok_iff.mp hleft
    exact ⟨hreportable, sum_eq_ok_iff.mp hn, rfl⟩
  · rintro ⟨hreportable, htotals, hleft⟩
    refine ⟨_, reasoned_eq_ok_iff.mpr ⟨hreportable, rfl⟩, ?_⟩
    rw [sum_eq_ok_iff.mpr htotals, ← hleft]
    rfl

theorem mean_of_empty (h : f.filled data = []) :
    mean (f.sources.map fun key => (key, data key)) = .ok (.int 0, []) := by
  rw [mean, present_sources, h, List.map_nil, if_pos rfl]

theorem mean_eq_ok_iff (h : f.filled data ≠ []) {m : Number × List Issue} :
    mean (f.sources.map fun key => (key, data key)) = .ok m ↔
      ∃ t q, total (f.sources.map fun key => (key, data key)) = .ok t ∧
        IsQuotient (f.filled data).length t.1 q ∧ m = (.float q, t.2) := by
  have hpos : 0 < (f.filled data).length := List.length_pos_iff.mpr h
  rw [mean, present_sources, if_neg (by simpa using h), List.length_map, bind_eq_ok]
  refine exists_congr fun t => ?_
  rw [exists_and_left, bind_eq_ok]
  simp only [divide_eq_ok_iff hpos]
  grind

/-! ## The functions -/

section Functions

variable (hown : f.precision = none) (hdefault : settings.precision = .null)

include hown hdefault

theorem evaluate_eq_apply (function : Function) :
    ({ f with function } : Formula).evaluate settings data =
      ({ f with function } : Formula).apply settings
        (f.sources.map fun key => (key, data key)) := by
  unfold evaluate
  generalize apply settings { f with function } _ = applied
  cases applied with
  | error e => rfl
  | ok result => cases function <;> simp [hown, hdefault, roundTo, ok_bind]

theorem outcome_count : f.outcome settings data .count = .ok (.int (f.filled data).length) := by
  rw [outcome, evaluate_eq_apply hown hdefault, apply, present_sources, List.length_map]
  rfl

theorem evaluate_sum :
    ({ f with function := .sum } : Formula).evaluate settings data =
      (total (f.sources.map fun key => (key, data key))).map fun t => ⟨.ofNumber t.1, t.2⟩ := by
  rw [evaluate_eq_apply hown hdefault, apply]
  cases total (f.sources.map fun key => (key, data key)) <;> rfl

theorem evaluate_avg :
    ({ f with function := .avg } : Formula).evaluate settings data =
      (mean (f.sources.map fun key => (key, data key))).map fun m => ⟨.ofNumber m.1, m.2⟩ := by
  rw [evaluate_eq_apply hown hdefault, apply]
  cases mean (f.sources.map fun key => (key, data key)) <;> rfl

theorem outcome_sum : f.outcome settings data .sum =
    (total (f.sources.map fun key => (key, data key))).map fun t => .ofNumber t.1 := by
  rw [outcome, evaluate_sum hown hdefault]
  cases total (f.sources.map fun key => (key, data key)) <;> rfl

theorem outcome_avg : f.outcome settings data .avg =
    (mean (f.sources.map fun key => (key, data key))).map fun m => .ofNumber m.1 := by
  rw [outcome, evaluate_avg hown hdefault]
  cases mean (f.sources.map fun key => (key, data key)) <;> rfl

theorem outcome_max :
    f.outcome settings data .max = .ok (.optNumber (largest? (f.terms data))) := by
  rw [outcome, evaluate_eq_apply hown hdefault, apply, numbers_sources]
  rfl

theorem outcome_min :
    f.outcome settings data .min = .ok (.optNumber (smallest? (f.terms data))) := by
  rw [outcome, evaluate_eq_apply hown hdefault, apply, numbers_sources]
  rfl

theorem issues_eq_report (function : Function) (h : function ∈ [Function.sum, .avg])
    (result : Result)
    (hresult : ({ f with function } : Formula).evaluate settings data = .ok result) :
    result.issues = f.report data := by
  obtain rfl | rfl : function = .sum ∨ function = .avg := by simpa using h
  · rw [evaluate_sum hown hdefault, map_eq_ok] at hresult
    obtain ⟨t, ht, rfl⟩ := hresult
    exact (total_eq_ok_iff.mp ht).2.2
  · rw [evaluate_avg hown hdefault, map_eq_ok] at hresult
    obtain ⟨m, hm, rfl⟩ := hresult
    by_cases hempty : f.filled data = []
    · rw [mean_of_empty hempty] at hm
      cases hm
      exact (report_of_empty hempty).symm
    · obtain ⟨t, q, ht, -, rfl⟩ := (mean_eq_ok_iff hempty).mp hm
      exact (total_eq_ok_iff.mp ht).2.2

theorem outcome_sum_eq_ok_iff {v : Value} : f.outcome settings data .sum = .ok v ↔
    f.Reportable data ∧ ∃ n, Totals (.int 0) (f.terms data) n ∧ v = .ofNumber n := by
  rw [outcome_sum hown hdefault, map_eq_ok]
  simp only [total_eq_ok_iff]
  constructor
  · rintro ⟨t, ⟨hreportable, htotals, -⟩, rfl⟩
    exact ⟨hreportable, t.1, htotals, rfl⟩
  · rintro ⟨hreportable, n, htotals, rfl⟩
    exact ⟨(n, f.report data), ⟨hreportable, htotals, rfl⟩, rfl⟩

theorem outcome_avg_eq_ok_iff (h : f.filled data ≠ []) {v : Value} :
    f.outcome settings data .avg = .ok v ↔
      ∃ n q, f.outcome settings data .sum = .ok (.ofNumber n) ∧
        IsQuotient (f.filled data).length n q ∧ v = .float q := by
  rw [outcome_avg hown hdefault, outcome_sum hown hdefault]
  simp only [map_eq_ok, mean_eq_ok_iff h]
  constructor
  · rintro ⟨_, ⟨t, q, ht, hq, rfl⟩, rfl⟩
    exact ⟨t.1, q, ⟨t, ht, rfl⟩, hq, rfl⟩
  · rintro ⟨n, q, ⟨t, ht, heq⟩, hq, rfl⟩
    obtain rfl := Value.ofNumber_injective heq
    exact ⟨_, ⟨t, q, ht, hq, rfl⟩, rfl⟩

theorem outcome_sum_ints (hreportable : f.Reportable data) {ns : List ℤ}
    (hns : f.terms data = ns.map .int) {sources : List String} (hsources : sources.Perm f.sources) :
    ({ f with sources } : Formula).outcome settings data .sum = .ok (.int ns.sum) := by
  have hperm : (({ f with sources } : Formula).terms data).Perm (f.terms data) :=
    terms_perm hsources
  rw [hns] at hperm
  obtain ⟨ms, hms, hmn⟩ := (congrFun₂ (List.eq_map_comp_perm Number.int) _ ns).mpr hperm
  refine (outcome_sum_eq_ok_iff (f := { f with sources }) hown hdefault).mpr
    ⟨reportable_of_perm hsources hreportable, .int ns.sum, ?_, rfl⟩
  rw [hms, ← hmn.sum_eq, ← Int.zero_add ms.sum]
  exact totals_ints 0 ms

/-- **Formulas account for every source**, whatever the sources and their values are. -/
theorem accounts : f.Accounts settings data where
  count := outcome_count hown hdefault
  parts := parts
  issues := issues_eq_report hown hdefault
  balance function h result hresult := by
    rw [issues_eq_report hown hdefault function h result hresult, filled_length]
  sum _ := outcome_sum_eq_ok_iff hown hdefault
  avg_zero h := by
    rw [outcome_avg hown hdefault, mean_of_empty h]
    rfl
  avg h v := outcome_avg_eq_ok_iff hown hdefault h
  sum_ints hreportable _ hns _ hsources := outcome_sum_ints hown hdefault hreportable hns hsources
  max := ⟨_, outcome_max hown hdefault, extreme_largest? isNaN_of_mem_terms⟩
  min := ⟨_, outcome_min hown hdefault, extreme_smallest? isNaN_of_mem_terms⟩

end Functions

/-- A basket whose price is a source twice. -/
def basket : Formula where
  function := .avg
  sources := ["price", "note", "price", "weight", "agreed", "rebate", "coupon"]
  separator := none
  precision := none

/-- Its values: numbers of both kinds, a text, a truth, a NaN and a blank. -/
def basketValues : String → Value
  | "price" => .int 3
  | "note" => .text "fresh"
  | "weight" => .float (.zero true)
  | "agreed" => .bool true
  | "rebate" => .float (.nan 0)
  | _ => .null

theorem basket_accounts : basket.precision = none ∧ ({} : Settings).precision = .null ∧
    basket.filled basketValues = ["price", "note", "price", "weight", "agreed"] ∧
    basket.leftOut basketValues = ["note", "agreed"] ∧ basket.Accounts {} basketValues :=
  ⟨rfl, rfl, by decide, by decide, accounts rfl rfl⟩

end Formula

end LiveForm
