import Mathlib.Data.Int.Notation
import Mathlib.Tactic.ByContra
import LiveForm.Value.Literal

/-!
# Values that can be written out

An integer with too many digits has no text, wherever it stands in a value.

* `Value.HoldsLong`: such an integer is in a value;
* **`Value.printable_eq_false_iff`**: it is what keeps a value from being written out.
-/

namespace LiveForm

namespace Value

/-- **An integer with too many digits is in the value**, at any depth. -/
inductive HoldsLong : Value → Prop
  | int {n : ℤ} : digitLimit < digitCount n → HoldsLong (int n)
  | list {items : List Value} {v : Value} : v ∈ items → HoldsLong v → HoldsLong (list items)
  | tuple {items : List Value} {v : Value} : v ∈ items → HoldsLong v → HoldsLong (tuple items)
  | set {items : List Value} {v : Value} : v ∈ items → HoldsLong v → HoldsLong (set items)
  | key {entries : Entries} {e : Value × Value} : e ∈ entries → HoldsLong e.1 →
      HoldsLong (map entries)
  | value {entries : Entries} {e : Value × Value} : e ∈ entries → HoldsLong e.2 →
      HoldsLong (map entries)

theorem allPrintable_iff {items : List Value} :
    allPrintable items = true ↔ ∀ v ∈ items, v.printable = true := by
  induction items with
  | nil => simp [allPrintable]
  | cons v vs ih => rw [allPrintable, Bool.and_eq_true, ih, List.forall_mem_cons]

theorem entriesPrintable_iff {entries : Entries} : entriesPrintable entries = true ↔
    ∀ e ∈ entries, e.1.printable = true ∧ e.2.printable = true := by
  induction entries with
  | nil => simp [entriesPrintable]
  | cons e es ih => rw [entriesPrintable, Bool.and_eq_true, Bool.and_eq_true, ih,
      List.forall_mem_cons]

theorem HoldsLong.printable {v : Value} (h : HoldsLong v) : v.printable = false := by
  induction h with
  | int hlong => rw [Value.printable, decide_eq_false_iff_not, Nat.not_le]; exact hlong
  | list hv _ ih | tuple hv _ ih | set hv _ ih =>
    rw [Value.printable, Bool.eq_false_iff, ne_eq, allPrintable_iff]
    exact fun hall => by rw [hall _ hv] at ih; cases ih
  | key he _ ih =>
    rw [Value.printable, Bool.eq_false_iff, ne_eq, entriesPrintable_iff]
    exact fun hall => by rw [(hall _ he).1] at ih; cases ih
  | value he _ ih =>
    rw [Value.printable, Bool.eq_false_iff, ne_eq, entriesPrintable_iff]
    exact fun hall => by rw [(hall _ he).2] at ih; cases ih

mutual

theorem printable_of_not_holdsLong : (v : Value) → ¬ HoldsLong v → v.printable = true
  | .int n, h => by
    rw [printable, decide_eq_true_eq]
    exact Nat.not_lt.mp fun hlong => h (.int hlong)
  | .list items, h => by
    rw [printable]
    exact allPrintable_of_not_holdsLong items fun v hv hlong => h (.list hv hlong)
  | .tuple items, h => by
    rw [printable]
    exact allPrintable_of_not_holdsLong items fun v hv hlong => h (.tuple hv hlong)
  | .set items, h => by
    rw [printable]
    exact allPrintable_of_not_holdsLong items fun v hv hlong => h (.set hv hlong)
  | .map entries, h => by
    rw [printable]
    exact entriesPrintable_of_not_holdsLong entries fun e he =>
      ⟨fun hlong => h (.key he hlong), fun hlong => h (.value he hlong)⟩
  | .null, _ | .bool _, _ | .float _, _ | .text _, _ | .bytes _, _ | .date _, _
  | .moment _, _ => rfl

theorem allPrintable_of_not_holdsLong : (items : List Value) → (∀ v ∈ items, ¬ HoldsLong v) →
    allPrintable items = true
  | [], _ => rfl
  | v :: vs, h => by
    obtain ⟨hv, hvs⟩ := List.forall_mem_cons.mp h
    rw [allPrintable, printable_of_not_holdsLong v hv, allPrintable_of_not_holdsLong vs hvs]
    rfl

theorem entriesPrintable_of_not_holdsLong : (entries : Entries) →
    (∀ e ∈ entries, ¬ HoldsLong e.1 ∧ ¬ HoldsLong e.2) → entriesPrintable entries = true
  | [], _ => rfl
  | (k, v) :: es, h => by
    obtain ⟨⟨hk, hv⟩, hes⟩ := List.forall_mem_cons.mp h
    rw [entriesPrintable, printable_of_not_holdsLong k hk, printable_of_not_holdsLong v hv,
      entriesPrintable_of_not_holdsLong es hes]
    rfl

end

/-- **A value can be written out unless it holds such an integer.** -/
theorem printable_eq_false_iff {v : Value} : v.printable = false ↔ HoldsLong v := by
  refine ⟨fun h => ?_, HoldsLong.printable⟩
  by_contra hnone
  rw [printable_of_not_holdsLong v hnone] at h
  cases h

end Value

end LiveForm
