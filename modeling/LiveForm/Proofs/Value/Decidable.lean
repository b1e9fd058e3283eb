import LiveForm.Value.Basic

/-!
# Deciding whether values are the same

`Value.equiv` compares as documents do, where `1` and `true` are equal and a NaN is not. Here values
are compared part by part, which decides whether they are one value. The decision is computed, so
what a fixed document is read as can be found by evaluation.

* `Value.identical`, `Value.identical_iff`: equal in all parts;
* `eq_ok_of_toOption`: a result is found by its value alone.
-/

namespace LiveForm

namespace Value

mutual

/-- The values are equal in all parts. -/
def identical : Value → Value → Bool
  | null, null => true
  | bool a, bool b => a = b
  | int m, int n => m = n
  | float x, float y => x = y
  | text s, text t => s = t
  | bytes a, bytes b => a = b
  | date d, date e => d = e
  | moment m, moment n => m = n
  | list xs, list ys => allIdentical xs ys
  | tuple xs, tuple ys => allIdentical xs ys
  | set xs, set ys => allIdentical xs ys
  | map es, map fs => allIdenticalEntries es fs
  | _, _ => false

def allIdentical : List Value → List Value → Bool
  | [], [] => true
  | x :: xs, y :: ys => identical x y && allIdentical xs ys
  | _, _ => false

def allIdenticalEntries : List (Value × Value) → List (Value × Value) → Bool
  | [], [] => true
  | (k, v) :: es, (l, w) :: fs => identical k l && identical v w && allIdenticalEntries es fs
  | _, _ => false

end

mutual

theorem identical_iff : (a b : Value) → (identical a b = true ↔ a = b)
  | list xs, b => by cases b <;> simp [identical, allIdentical_iff xs]
  | tuple xs, b => by cases b <;> simp [identical, allIdentical_iff xs]
  | set xs, b => by cases b <;> simp [identical, allIdentical_iff xs]
  | map es, b => by cases b <;> simp [identical, allIdenticalEntries_iff es]
  | null, b | bool _, b | int _, b | float _, b | text _, b | bytes _, b | date _, b
  | moment _, b => by cases b <;> simp [identical]

theorem allIdentical_iff : (xs ys : List Value) → (allIdentical xs ys = true ↔ xs = ys)
  | [], ys => by cases ys <;> simp [allIdentical]
  | x :: xs, ys => by
    cases ys <;> simp [allIdentical, identical_iff x, allIdentical_iff xs]

theorem allIdenticalEntries_iff : (es fs : List (Value × Value)) →
    (allIdenticalEntries es fs = true ↔ es = fs)
  | [], fs => by cases fs <;> simp [allIdenticalEntries]
  | (k, v) :: es, fs => by
    cases fs <;> simp [allIdenticalEntries, identical_iff k, identical_iff v,
      allIdenticalEntries_iff es, Prod.ext_iff]

end

instance : DecidableEq Value := fun a b => decidable_of_iff _ (identical_iff a b)

end Value

theorem eq_ok_of_toOption {ε α : Type} {x : Except ε α} {a : α} (h : x.toOption = some a) :
    x = .ok a := by
  cases x with
  | error e => cases h
  | ok b => rw [Option.some.inj h]

end LiveForm
