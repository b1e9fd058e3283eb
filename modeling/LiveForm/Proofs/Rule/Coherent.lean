import Mathlib.Logic.Function.Basic
import LiveForm.Rule
import LiveForm.Proofs.Rule.Order
import LiveForm.Proofs.Value.Entries

/-!
# The conditions of rules agree with each other

The conditions are judged one by one, each on a trigger and a compared value that are read in their
own ways. Still they fit together: what differs is not equal, of two numbers or dates exactly one
is less or they are equal, and lists are equal when each contains the other.

* `Typed.Reads`, `Typed.reads`: what a value can read as by a type;
* `Typed.Reads.readLike_self`: a value that fits its type reads alike next to itself;
* `Rule.readings`, `Rule.judge_eq`: what is compared, and that all comparisons compare the same;
* `Typed.Ordered`: two numbers, or two dates;
* `Rule.Coherent`: the laws of the conditions;
* **`Rule.coherent_evaluate`**: the verdicts of a rule obey them.
-/

namespace LiveForm

variable {type : FieldType} {t t' c c' : Value} {xs xs' ys ys' : List Value}

/-! ## Readings -/

namespace Typed

/-- What a value reads as by a type. -/
inductive Reads : FieldType → Value → Typed → Prop
  | blank {type : FieldType} {t : Value} : t.isBlank = true → Reads type t empty
  | nan {x : Binary64} : x.isNaN = true → Reads .number (.float x) empty
  | number {n : Number} : n.isNaN = false → Reads .number (.ofNumber n) (number n)
  | text {type : FieldType} {s : String} : type ∈ [.text, .textarea, .select, .radio] → s ≠ "" →
      Reads type (.text s) (text s)
  | boolean {b : Bool} : Reads .boolean (.bool b) (boolean b)
  | date {t : Value} {d : Date} : t.isBlank = false → dateOf? t = some d → Reads .date t (date d)
  | list {t : Value} {xs : List Value} : t.isBlank = false → items? t = some xs →
      Reads .checkbox t (list xs)
  | invalid {type : FieldType} {t : Value} : Reads type t (invalid t)

/-- A number reads as itself, unless it is a NaN. -/
theorem reads_number {n : Number} (h : t.number? = some n) : Reads .number t (ofNumber n) := by
  have ht : t = .ofNumber n := by cases t <;> cases h <;> rfl
  subst ht
  unfold ofNumber
  cases hn : n.isNaN with
  | false => exact .number hn
  | true =>
    cases n with
    | int k => cases hn
    | float x => exact .nan hn

/-- **Every value reads in one of these ways.** -/
theorem reads (type : FieldType) (t : Value) : Reads type t (read (some type) t) := by
  unfold read
  cases hblank : t.isBlank with
  | true => exact .blank hblank
  | false =>
    cases type
    case number =>
      cases hn : t.number? with
      | none => exact .invalid
      | some n => exact reads_number hn
    case boolean => cases t <;> first | exact .boolean | exact .invalid
    case date =>
      show Reads .date t (ofDate t)
      unfold ofDate
      cases hd : dateOf? t with
      | none => exact .invalid
      | some d => exact .date hblank hd
    case checkbox =>
      cases hxs : items? t with
      | none => exact .invalid
      | some xs => exact .list hblank hxs
    all_goals
      cases t
      case text s => exact .text (by decide) (of_decide_eq_false hblank)
      all_goals exact .invalid

/-- The value does not fit. -/
def isInvalid : Typed → Bool
  | invalid _ => true
  | _ => false

/-- The reading is no NaN. -/
def isProper : Typed → Bool
  | number n => !n.isNaN
  | _ => true

variable {a b : Typed}

theorem Reads.isProper (h : Reads type t a) : a.isProper = true := by
  cases h with
  | number hn => rw [Typed.isProper, hn]; rfl
  | _ => rfl

theorem isProper_ofNumber (n : Number) : (ofNumber n).isProper = true := by
  unfold ofNumber
  cases h : n.isNaN with
  | true => rfl
  | false => rw [if_neg Bool.false_ne_true, isProper, h]; rfl

theorem isProper_readLike (other : Typed) (raw : Value) : (other.readLike raw).isProper = true := by
  have hinfer : (infer raw).isProper = true := by
    unfold infer
    split
    · rfl
    · cases raw <;> first | rfl | exact isProper_ofNumber _
  have hdate : (ofDate raw).isProper = true := by
    unfold ofDate
    cases dateOf? raw <;> rfl
  unfold readLike
  split
  · rfl
  · cases other <;> first | exact hdate | exact hinfer

theorem readLike_of_isBlank (other : Typed) (h : c.isBlank = true) : other.readLike c = empty :=
  if_pos h

/-- **A value that fits its type reads alike next to itself.** -/
theorem Reads.readLike_self (h : Reads type t a) (hfits : a.isInvalid = false) :
    a.readLike t = a := by
  cases h with
  | blank hblank => exact readLike_of_isBlank _ hblank
  -- A NaN is read as empty, and next to what is empty it is read by itself, as empty again.
  | nan hx => exact if_pos hx
  | @number n hn =>
    cases n with
    | int k => rfl
    | float x => exact if_neg (Bool.eq_false_iff.mp hn)
  | @text _ s _ hs =>
    have hblank : (Value.text s).isBlank = false := decide_eq_false hs
    simp [readLike, infer, hblank]
  | boolean => rfl
  | date hblank hd => simp [readLike, hblank, ofDate, hd]
  | list hblank hxs => cases t <;> cases hxs <;> simp [readLike, infer, hblank]
  | invalid => cases hfits

/-! ## Readings of lists -/

theorem Reads.eq_checkbox (h : Reads type t (Typed.list xs)) :
    type = .checkbox ∧ t.isBlank = false ∧ items? t = some xs := by
  cases h with
  | list hblank hxs => exact ⟨rfl, hblank, hxs⟩

theorem isBlank_of_items (h : items? c = some ys) : c.isBlank = ys.isEmpty := by
  cases c <;> cases h <;> rfl

theorem read_items (h : items? c = some ys) :
    read (some .checkbox) c = if ys.isEmpty then empty else list ys := by
  rw [← isBlank_of_items h]
  cases c <;> cases h <;> rfl

theorem readLike_list (xs : List Value) (c : Value) : (list xs).readLike c = infer c := by
  unfold readLike infer
  split <;> rfl

theorem infer_items (h : items? c = some ys) :
    infer c = if ys.isEmpty then empty else list ys := by
  cases c <;> cases h <;> cases ys <;> rfl

theorem infer_ne_list (h : items? c = none) (ys : List Value) : infer c ≠ list ys := by
  unfold infer
  cases c
  case text s => split <;> exact nofun
  case float x =>
    show ofNumber (.float x) ≠ list ys
    unfold ofNumber
    split <;> exact nofun
  case list items => cases h
  case tuple items => cases h
  all_goals exact nofun

/-! ## Operators on readings -/

theorem member_of_mem {v : Value} (h : v ∈ xs) : v.member xs = true :=
  List.any_eq_true.mpr ⟨v, h, Value.alike_refl v⟩

theorem sameMembers_self (xs : List Value) : sameMembers xs xs = true := by
  have hall : xs.all (·.member xs) = true := List.all_eq_true.mpr fun _ => member_of_mem
  rw [sameMembers, hall]
  rfl

/-- A list is within another whatever the order of its members, and however often each stands
there. -/
theorem all_member_congr (h : ∀ v : Value, v.member xs = v.member xs') (ys : List Value) :
    xs.all (·.member ys) = xs'.all (·.member ys) := by
  have himp : ∀ {as bs : List Value}, (∀ v : Value, v.member as = v.member bs) →
      as.all (·.member ys) = true → bs.all (·.member ys) = true := by
    intro as bs hmember hall
    refine List.all_eq_true.mpr fun b hb => ?_
    obtain ⟨a, ha, hab⟩ := List.any_eq_true.mp ((hmember b).trans (member_of_mem hb))
    obtain ⟨y, hy, hya⟩ := List.any_eq_true.mp (List.all_eq_true.mp hall a ha)
    exact List.any_eq_true.mpr ⟨y, hy, Value.alike_trans hya hab⟩
  exact Bool.eq_iff_iff.mpr ⟨himp h, himp fun v => (h v).symm⟩

theorem sameMembers_congr (hxs : ∀ v : Value, v.member xs = v.member xs')
    (hys : ∀ v : Value, v.member ys = v.member ys') :
    sameMembers xs ys = sameMembers xs' ys' := by
  simp only [sameMembers, all_member_congr hxs, all_member_congr hys, hxs, hys]

theorem isEmpty_congr (h : ∀ v : Value, v.member xs = v.member xs') :
    xs.isEmpty = xs'.isEmpty := by
  have hiff : ∀ as : List Value, as.isEmpty = true ↔ ∀ v : Value, v.member as = false := by
    intro as
    cases as with
    | nil => exact ⟨fun _ _ => rfl, fun _ => rfl⟩
    | cons a as =>
      refine ⟨nofun, fun hnone => ?_⟩
      cases (member_of_mem List.mem_cons_self).symm.trans (hnone a)
  rw [Bool.eq_iff_iff, hiff, hiff]
  simp only [h]

/-- The value is one of its own: a truth value, a number that is no NaN, a text or a date. -/
def isScalar : Value → Bool
  | .bool _ | .int _ | .text _ | .date _ => true
  | .float x => !x.isNaN
  | _ => false

/-- Two numbers, or two dates. -/
def Ordered (a b : Typed) : Prop :=
  (∃ m n, a = number m ∧ b = number n) ∨ ∃ d e, a = date d ∧ b = date e

theorem Ordered.fits (h : Ordered a b) : a.isInvalid = false ∧ b.isInvalid = false := by
  obtain ⟨m, n, rfl, rfl⟩ | ⟨d, e, rfl, rfl⟩ := h <;> exact ⟨rfl, rfl⟩

/-- **Of two numbers or dates exactly one is less, or they are equal.** -/
theorem one_of_order (h : Ordered a b) (ha : a.isProper = true) (hb : b.isProper = true) :
    [(a.precedes b).holds, (a.equals b).holds, (a.follows b).holds].count true = 1 := by
  obtain ⟨m, n, rfl, rfl⟩ | ⟨d, e, rfl, rfl⟩ := h
  · exact Number.one_of_order ((Bool.not_eq_true' _).mp ha) ((Bool.not_eq_true' _).mp hb)
  · exact Date.one_of_order d e

theorem not_in_order (h : ¬ Ordered a b) :
    (a.precedes b).holds = false ∧ (a.follows b).holds = false := by
  cases a <;> cases b
  case number.number m n => exact absurd (Or.inl ⟨m, n, rfl, rfl⟩) h
  case date.date d e => exact absurd (Or.inr ⟨d, e, rfl, rfl⟩) h
  all_goals exact ⟨rfl, rfl⟩

theorem equals_empty (a : Typed) : a.equals empty = .ok a.isEmpty := by cases a <;> rfl

theorem equals_list_of_ne (h : ∀ ys, b ≠ list ys) : (list xs).equals b = (list xs).contains b := by
  cases b with
  | list ys => exact absurd rfl (h ys)
  | _ => rfl

theorem contains_scalar (xs : List Value) (hc : isScalar c = true) (hblank : c.isBlank = false) :
    (infer c).isInvalid = false ∧ (list xs).contains (infer c) = .ok (c.member xs) := by
  cases c with
  | bool b => exact ⟨rfl, rfl⟩
  | int n => exact ⟨rfl, rfl⟩
  | date d => exact ⟨rfl, rfl⟩
  | text s =>
    have hinfer : infer (.text s) = text s := by simp [infer, hblank]
    rw [hinfer]
    exact ⟨rfl, rfl⟩
  | float x =>
    have hinfer : infer (.float x) = number (.float x) :=
      if_neg (Bool.eq_false_iff.mp ((Bool.not_eq_true' _).mp hc))
    rw [hinfer]
    exact ⟨rfl, rfl⟩
  | _ => cases hc

/-- **What fits equals itself.** -/
theorem equals_self (h : a.isInvalid = false) (ha : a.isProper = true) : a.equals a = .ok true := by
  cases a with
  | empty => rfl
  | number n => rw [equals, Number.eq_refl ((Bool.not_eq_true' _).mp ha)]
  | text s => exact congrArg Except.ok (decide_eq_true rfl)
  | boolean b => exact congrArg Except.ok (decide_eq_true rfl)
  | date d => exact congrArg Except.ok (decide_eq_true rfl)
  | list items => rw [equals, sameMembers_self]
  | invalid raw => cases h

end Typed

namespace Rule

open Typed

/-! ## What is compared -/

/-- The readings of a trigger and of a compared value, when both fit. -/
def readings (type : FieldType) (trigger compare : Value) : Except Misfit (Typed × Typed) :=
  if (read (some type) trigger).isInvalid then .error (.triggerType type)
  else if ((read (some type) trigger).readLike compare).isInvalid then .error .compareValue
  else .ok (read (some type) trigger, (read (some type) trigger).readLike compare)

/-- The operator looks at the compared value. -/
def compares : Operator → Bool
  | .isEmpty | .isNotEmpty => false
  | _ => true

/-- **All comparisons compare the same readings.** -/
theorem judge_eq {op : Operator} (h : compares op = true) :
    judge op type t c = readings type t c >>= fun p => compareBy op p.1 p.2 := by
  have hjudge : judge op type t c = match read (some type) t with
      | .invalid _ => .error (.triggerType type)
      | a => match a.readLike c with
        | .invalid _ => .error .compareValue
        | b => compareBy op a b := by
    cases op <;> first | rfl | cases h
  rw [hjudge, readings]
  -- Both sides look at the trigger first, and at the compared value only when the trigger fits.
  generalize read (some type) t = a
  cases a
  case invalid raw => rfl
  all_goals
    dsimp only
    generalize readLike _ c = b
    cases b <;> rfl

theorem readings_of_fits (ht : (read (some type) t).isInvalid = false)
    (hc : ((read (some type) t).readLike c).isInvalid = false) :
    readings type t c = .ok (read (some type) t, (read (some type) t).readLike c) := by
  rw [readings, ht, hc]
  rfl

theorem eq_of_readings {p : Typed × Typed} (h : readings type t c = .ok p) :
    p = (read (some type) t, (read (some type) t).readLike c) := by
  unfold readings at h
  split at h
  · cases h
  · split at h
    · cases h
    · exact (Except.ok.inj h).symm

/-! ## Laws -/

/-- **The conditions on triggers of a type are coherent.** -/
structure Coherent (type : FieldType) (judge : Operator → Value → Value → Verdict) : Prop where
  /-- What could not be judged is not satisfied. -/
  misfit : ∀ op t c, (judge op t c).misfit?.isSome = true → (judge op t c).holds = false
  /-- Emptiness can always be judged, and either the trigger is empty or it is not. -/
  emptiness : ∀ t c, (judge .isEmpty t c).misfit? = none ∧ (judge .isNotEmpty t c).misfit? = none ∧
    (judge .isNotEmpty t c).holds = !(judge .isEmpty t c).holds
  /-- Equality and difference are judged on the same values, and are opposite there. -/
  difference : ∀ t c, (judge .equals t c).misfit? = (judge .notEquals t c).misfit? ∧
    ((judge .equals t c).misfit? = none →
      (judge .notEquals t c).holds = !(judge .equals t c).holds)
  /-- Of two numbers or dates exactly one is less, or they are equal. -/
  ordered : ∀ t c, Ordered (read (some type) t) ((read (some type) t).readLike c) →
    [(judge .lessThan t c).holds, (judge .equals t c).holds,
      (judge .greaterThan t c).holds].count true = 1
  /-- Nothing else is less or greater. -/
  unordered : ∀ t c, ¬ Ordered (read (some type) t) ((read (some type) t).readLike c) →
    (judge .lessThan t c).holds = false ∧ (judge .greaterThan t c).holds = false
  /-- What equals a blank value is empty. -/
  blank : ∀ t c, c.isBlank = true → (judge .equals t c).holds = (judge .isEmpty t c).holds
  /-- A trigger that fits its type equals itself. -/
  self : ∀ t, (read (some type) t).isInvalid = false → judge .equals t t = .ok true
  /-- A list equals another when each contains the other. -/
  list : ∀ t c xs ys, read (some type) t = .list xs → items? c = some ys → ys ≠ [] →
    (judge .equals t c).holds = ((judge .contains t c).holds && (judge .contains c t).holds)
  /-- So neither the order of the members counts nor how often each stands there. -/
  members : ∀ t t' c c' xs xs' ys ys', read (some type) t = .list xs →
    read (some type) t' = .list xs' → items? c = some ys → items? c' = some ys' →
    (∀ v : Value, v.member xs = v.member xs') → (∀ v : Value, v.member ys = v.member ys') →
    judge .equals t c = judge .equals t' c'
  /-- A list equals what is no list when it contains it. -/
  single : ∀ t c xs, read (some type) t = .list xs → items? c = none →
    judge .equals t c = judge .contains t c
  /-- A list contains its members. -/
  scalar : ∀ t c xs, read (some type) t = .list xs → isScalar c = true → c.isBlank = false →
    judge .contains t c = .ok (c.member xs)

theorem judge_notEquals (type : FieldType) (t c : Value) :
    judge .notEquals type t c = (judge .equals type t c).map (!·) := by
  rw [judge_eq rfl, judge_eq rfl]
  cases readings type t c <;> rfl

theorem judge_of_fits {op : Operator} (hop : compares op = true)
    (ht : (read (some type) t).isInvalid = false)
    (hc : ((read (some type) t).readLike c).isInvalid = false) :
    judge op type t c = compareBy op (read (some type) t) ((read (some type) t).readLike c) := by
  rw [judge_eq hop, readings_of_fits ht hc]
  rfl

theorem compareBy_of_holds {op : Operator} (hop : compares op = true)
    (h : (judge op type t c).holds = true) :
    (compareBy op (read (some type) t) ((read (some type) t).readLike c)).holds = true := by
  rw [judge_eq hop] at h
  cases hp : readings type t c with
  | error m => rw [hp] at h; cases h
  | ok p =>
    rw [hp, eq_of_readings hp] at h
    exact h

theorem judge_ordered (h : Ordered (read (some type) t) ((read (some type) t).readLike c)) :
    [(judge .lessThan type t c).holds, (judge .equals type t c).holds,
      (judge .greaterThan type t c).holds].count true = 1 := by
  obtain ⟨ht, hc⟩ := h.fits
  rw [judge_of_fits rfl ht hc, judge_of_fits rfl ht hc, judge_of_fits rfl ht hc]
  exact one_of_order h (reads type t).isProper (isProper_readLike _ c)

theorem judge_unordered (h : ¬ Ordered (read (some type) t) ((read (some type) t).readLike c)) :
    (judge .lessThan type t c).holds = false ∧ (judge .greaterThan type t c).holds = false := by
  obtain ⟨hprecedes, hfollows⟩ := not_in_order h
  refine ⟨Bool.eq_false_iff.mpr fun hless => ?_, Bool.eq_false_iff.mpr fun hgreater => ?_⟩
  · exact Bool.eq_false_iff.mp hprecedes (compareBy_of_holds rfl hless)
  · exact Bool.eq_false_iff.mp hfollows (compareBy_of_holds rfl hgreater)

theorem judge_blank (h : c.isBlank = true) :
    (judge .equals type t c).holds = (judge .isEmpty type t c).holds := by
  cases ht : (read (some type) t).isInvalid with
  | true =>
    have hempty : (read (some type) t).isEmpty = false := by
      generalize read (some type) t = a at ht
      cases a <;> first | rfl | cases ht
    rw [judge_eq rfl, readings, ht]
    exact hempty.symm
  | false =>
    have hc : (read (some type) t).readLike c = empty := readLike_of_isBlank _ h
    rw [judge_of_fits rfl ht (by rw [hc]; rfl), hc, compareBy, equals_empty]
    rfl

theorem judge_self (h : (read (some type) t).isInvalid = false) :
    judge .equals type t t = .ok true := by
  have hself := (reads type t).readLike_self h
  rw [judge_of_fits rfl h (by rwa [hself]), hself]
  exact equals_self h (reads type t).isProper

section Lists

variable (ht : read (some type) t = list xs)

include ht

theorem judge_items {op : Operator} (hop : compares op = true) (hc : items? c = some ys) :
    judge op type t c = compareBy op (list xs) (if ys.isEmpty then empty else list ys) := by
  have hlike : (read (some type) t).readLike c = if ys.isEmpty then empty else list ys := by
    rw [ht, readLike_list, infer_items hc]
  rw [judge_of_fits hop (by rw [ht]; rfl) (by rw [hlike]; split <;> rfl), hlike, ht]

theorem judge_single (hc : items? c = none) :
    judge .equals type t c = judge .contains type t c := by
  rw [judge_eq rfl, judge_eq rfl]
  cases hp : readings type t c with
  | error m => rfl
  | ok p =>
    rw [eq_of_readings hp, ht, readLike_list]
    exact equals_list_of_ne (infer_ne_list hc)

theorem judge_scalar (hc : isScalar c = true) (hblank : c.isBlank = false) :
    judge .contains type t c = .ok (c.member xs) := by
  obtain ⟨hfits, hcontains⟩ := contains_scalar xs hc hblank
  rw [judge_of_fits rfl (by rw [ht]; rfl) (by rwa [ht, readLike_list]), ht, readLike_list]
  exact hcontains

end Lists

theorem judge_list (ht : read (some type) t = list xs) (hc : items? c = some ys) (hys : ys ≠ []) :
    (judge .equals type t c).holds =
      ((judge .contains type t c).holds && (judge .contains type c t).holds) := by
  obtain ⟨rfl, hblank, hxs⟩ := (ht ▸ reads type t).eq_checkbox
  have hne : ys.isEmpty = false := List.isEmpty_eq_false_iff.mpr hys
  have hread : read (some .checkbox) c = list ys := by rw [read_items hc, hne]; rfl
  rw [isBlank_of_items hxs] at hblank
  rw [judge_items ht rfl hc, judge_items ht rfl hc, judge_items hread rfl hxs, hne, hblank]
  -- The members of the second list are sought in the first one before those of the first.
  exact Bool.and_comm _ _

theorem judge_members (ht : read (some type) t = list xs) (ht' : read (some type) t' = list xs')
    (hc : items? c = some ys) (hc' : items? c' = some ys')
    (hxs : ∀ v : Value, v.member xs = v.member xs')
    (hys : ∀ v : Value, v.member ys = v.member ys') :
    judge .equals type t c = judge .equals type t' c' := by
  rw [judge_items ht rfl hc, judge_items ht' rfl hc', isEmpty_congr hys]
  cases ys'.isEmpty with
  | true => rfl
  | false => exact congrArg Except.ok (sameMembers_congr hxs hys)

theorem coherent_judge (type : FieldType) : Coherent type fun op t c => judge op type t c where
  misfit op t c h := by
    cases hv : judge op type t c with
    | error m => rfl
    | ok b => rw [hv] at h; cases h
  emptiness _ _ := ⟨rfl, rfl, rfl⟩
  difference t c := by
    rw [judge_notEquals]
    cases judge .equals type t c with
    | error m => exact ⟨rfl, nofun⟩
    | ok b => exact ⟨rfl, fun _ => rfl⟩
  ordered _ _ := judge_ordered
  unordered _ _ := judge_unordered
  blank _ _ := judge_blank
  self _ := judge_self
  list _ _ _ _ := judge_list
  members _ _ _ _ _ _ _ _ := judge_members
  single _ _ _ := judge_single
  scalar _ _ _ := judge_scalar

/-- **The verdicts of a rule on a declared trigger are coherent**, whatever else the rule says and
whatever else the form holds. -/
theorem coherent_evaluate (r : Rule) {types : FieldTypes} (data : FormData)
    (h : types r.trigger = some type) :
    Coherent type fun op t c => ({ r with operator := op, compare := c } : Rule).evaluate types
      (Function.update data r.trigger t) := by
  have heq : (fun op t c => ({ r with operator := op, compare := c } : Rule).evaluate types
      (Function.update data r.trigger t)) = fun op t c => judge op type t c := by
    funext op t c
    simp only [evaluate, h, Function.update_self]
  rw [heq]
  exact coherent_judge type

/-- A field of several choices. -/
def toppingTypes : FieldTypes := fun key => if key = "toppings" then some .checkbox else none

/-- A rule on the choices that were made. -/
def toppingRule : Rule where
  id := "r1"
  name := "ham and egg"
  trigger := "toppings"
  operator := .equals
  compare := .texts ["ham", "egg"]
  target := "note"
  effect := .visibility
  effectValue := .bool true

theorem toppingRule_coherent : toppingTypes toppingRule.trigger = some .checkbox ∧
    Coherent .checkbox fun op t c =>
      ({ toppingRule with operator := op, compare := c } : Rule).evaluate toppingTypes
        (Function.update (fun _ => .null) toppingRule.trigger t) :=
  ⟨rfl, coherent_evaluate toppingRule (fun _ => .null) rfl⟩

example :
    (toppingRule.evaluate toppingTypes fun _ => .texts ["egg", "ham", "egg"]).holds = true := by
  decide +kernel

end Rule

end LiveForm
