import Mathlib.Data.List.TakeDrop
import Mathlib.Data.String.Basic
import Mathlib.Tactic.IntervalCases
import LiveForm.Json.Reader
import LiveForm.Json.Writer
import LiveForm.Proofs.Number.Decimal

/-!
# Reading back numbers

A written number is read back when what follows it cannot belong to it. An integer comes back as
long as its digits are within the limit, and a double, written with the fewest digits that round to
it, comes back whatever the layout of these digits is.

* `Json.Ends`: what follows cannot belong to a number;
* `Json.readNumber_of_parts`: a number is read by its whole part, its fraction and its exponent;
* **`Json.readNumber_digits`**: the digits of an integer are read as it;
* **`Json.readNumber_layout`**: the laid out digits of a double are read as it.
-/

namespace LiveForm

/-! ## Digits -/

theorem digitsValue_eq (cs : List Char) : digitsValue cs = Nat.ofDigitChars 10 cs 0 :=
  Nat.ofDigitChars_eq_foldl.symm

theorem digitsValue_toDigits (n : ℕ) : digitsValue (Nat.toDigits 10 n) = n :=
  (digitsValue_eq _).trans Nat.ofDigitChars_ten_toDigits

theorem digitsValue_zeros_append (k : ℕ) (cs : List Char) :
    digitsValue (List.replicate k '0' ++ cs) = digitsValue cs := by
  rw [digitsValue_eq, Nat.ofDigitChars_append, Nat.ofDigitChars_replicate_zero, Nat.mul_zero,
    ← digitsValue_eq]

theorem digitsValue_append_zeros (k : ℕ) (cs : List Char) :
    digitsValue (cs ++ List.replicate k '0') = digitsValue cs * 10 ^ k := by
  rw [digitsValue_eq, Nat.ofDigitChars_append, Nat.ofDigitChars_replicate_zero, ← digitsValue_eq,
    Nat.mul_comm]

theorem isDigit_toDigits {n : ℕ} : ∀ c ∈ Nat.toDigits 10 n, c.isDigit = true :=
  fun _ hc => Nat.isDigit_of_mem_toDigits (by decide) (by decide) hc

theorem isDigit_replicate {k : ℕ} : ∀ c ∈ List.replicate k '0', c.isDigit = true :=
  fun _ hc => List.eq_of_mem_replicate hc ▸ rfl

theorem spanDigits_append {ds rest : List Char} (hds : ∀ c ∈ ds, c.isDigit = true)
    (hrest : ∀ c ∈ rest.head?, c.isDigit = false) : spanDigits (ds ++ rest) = (ds, rest) := by
  have hstop : rest.takeWhile Char.isDigit = [] ∧ rest.dropWhile Char.isDigit = rest := by
    cases rest with
    | nil => exact ⟨rfl, rfl⟩
    | cons c cs =>
      have hc := hrest c rfl
      exact ⟨List.takeWhile_cons_of_neg (by simp [hc]), List.dropWhile_cons_of_neg (by simp [hc])⟩
  rw [spanDigits, List.span_eq_takeWhile_dropWhile, List.takeWhile_append_of_pos hds,
    List.dropWhile_append_of_pos hds, hstop.1, hstop.2, List.append_nil]

namespace Json

variable {limit : ℕ} {negative : Bool} {whole fraction ds rest rest' : List Char}
  {exponent : Option ℤ}

/-! ## Parts of numbers -/

/-- **What follows cannot belong to a number**: nothing, or a comma, a closing bracket or brace, or
white space. -/
def Ends (rest : List Char) : Prop :=
  ∀ c ∈ rest.head?, c = ',' ∨ c = ']' ∨ c = '\x7d' ∨ isWhite c = true

theorem Ends.not_mem (h : Ends rest) : ∀ c ∈ rest.head?,
    c.isDigit = false ∧ c ≠ '.' ∧ c ≠ 'e' ∧ c ≠ 'E' := by
  intro c hc
  have hcases : c = ',' ∨ c = ']' ∨ c = '\x7d' ∨ c = ' ' ∨ c = '\t' ∨ c = '\n' ∨ c = '\r' := by
    simpa [isWhite, or_assoc] using h c hc
  rcases hcases with rfl | rfl | rfl | rfl | rfl | rfl | rfl <;> decide

/-- **The whole part of a number**: a zero, or digits that do not begin with one. -/
structure Whole (ds : List Char) : Prop where
  isDigit : ∀ c ∈ ds, c.isDigit = true
  leading : ds = ['0'] ∨ ∃ c cs, ds = c :: cs ∧ c ≠ '0'

theorem isDigit_zero : ∀ c ∈ ['0'], c.isDigit = true := List.forall_mem_singleton.mpr rfl

theorem whole_zero : Whole ['0'] := ⟨isDigit_zero, Or.inl rfl⟩

theorem exists_toDigits {n : ℕ} (hn : n ≠ 0) : ∃ c cs, Nat.toDigits 10 n = c :: cs ∧ c ≠ '0' := by
  induction n using Nat.strong_induction_on with
  | _ n ih =>
    rw [Nat.toDigits_eq_if (by decide)]
    split_ifs with hlt
    · refine ⟨n.digitChar, [], rfl, ?_⟩
      interval_cases n <;> first | contradiction | decide
    · obtain ⟨c, cs, heq, hc⟩ := ih (n / 10) (by omega) (by omega)
      exact ⟨c, cs ++ [(n % 10).digitChar], by rw [heq]; rfl, hc⟩

theorem whole_toDigits (n : ℕ) : Whole (Nat.toDigits 10 n) := by
  refine ⟨isDigit_toDigits, ?_⟩
  rcases Nat.eq_zero_or_pos n with rfl | hpos
  · exact Or.inl rfl
  · exact Or.inr (exists_toDigits hpos.ne')

theorem readNumber_of_parts (hwhole : Whole whole) (hrest : ∀ c ∈ rest.head?, c.isDigit = false)
    (hfraction : splitFraction rest = (fraction, rest'))
    {rest'' : List Char} (hexponent : splitExponent rest' = (exponent, rest'')) :
    readNumber limit negative (whole ++ rest) =
      if fraction = [] ∧ exponent = none then
        if limit < whole.length then .error .hugeInteger
        else .ok (int (if negative then -(digitsValue whole : ℤ) else digitsValue whole), rest'')
      else .ok (float (decimalNumber negative whole fraction (exponent.getD 0)), rest'') := by
  rcases hwhole.leading with rfl | ⟨c, cs, rfl, hc⟩
  · simp only [List.singleton_append, readNumber, hfraction, hexponent, reduceCtorEq, if_false]
  · rw [List.cons_append, readNumber, ← List.cons_append, spanDigits_append hwhole.isDigit hrest]
    · simp only [hfraction, hexponent, reduceCtorEq, if_false]
    · rintro r heq
      exact hc (List.cons.inj heq).1

theorem splitFraction_of_ends (h : ∀ c ∈ rest.head?, c ≠ '.') :
    splitFraction rest = ([], rest) := by
  cases rest with
  | nil => rfl
  | cons c cs =>
    rw [splitFraction]
    rintro r heq
    exact h c rfl (List.cons.inj heq).1

theorem splitFraction_point (hds : ∀ c ∈ ds, c.isDigit = true) (hne : ds ≠ [])
    (hrest : ∀ c ∈ rest.head?, c.isDigit = false) :
    splitFraction ('.' :: (ds ++ rest)) = (ds, rest) := by
  rw [splitFraction, spanDigits_append hds hrest, if_neg hne]

theorem splitExponent_of_ends (h : ∀ c ∈ rest.head?, c ≠ 'e' ∧ c ≠ 'E') :
    splitExponent rest = (none, rest) := by
  cases rest with
  | nil => rfl
  | cons c cs =>
    obtain ⟨he, hE⟩ := h c rfl
    simp [splitExponent, he, hE]

theorem splitExponent_signed (negative : Bool) (hds : ∀ c ∈ ds, c.isDigit = true) (hne : ds ≠ [])
    (hrest : ∀ c ∈ rest.head?, c.isDigit = false) :
    splitExponent ('e' :: (if negative then '-' else '+') :: (ds ++ rest)) =
      (some (if negative then -(digitsValue ds : ℤ) else digitsValue ds), rest) := by
  cases negative <;> simp [splitExponent, splitSign, spanDigits_append hds hrest, hne]

/-! ## Integers -/

/-- **The digits of an integer are read as it**, if they are not too many. -/
theorem readNumber_digits (n : ℕ) (hrest : Ends rest) :
    readNumber limit negative (Nat.toDigits 10 n ++ rest) =
      if limit < (Nat.toDigits 10 n).length then .error .hugeInteger
      else .ok (int (if negative then -(n : ℤ) else n), rest) := by
  rw [readNumber_of_parts (whole_toDigits n) (fun c hc => (hrest.not_mem c hc).1)
    (splitFraction_of_ends fun c hc => (hrest.not_mem c hc).2.1)
    (splitExponent_of_ends fun c hc => (hrest.not_mem c hc).2.2), if_pos ⟨rfl, rfl⟩,
    digitsValue_toDigits]

/-! ## Doubles -/

theorem readNumber_point (hwhole : Whole whole) (hds : ∀ c ∈ ds, c.isDigit = true) (hne : ds ≠ [])
    (hrest : Ends rest) : readNumber limit negative (whole ++ '.' :: (ds ++ rest)) =
      .ok (float (decimalNumber negative whole ds 0), rest) := by
  rw [readNumber_of_parts hwhole (by simp)
    (splitFraction_point hds hne fun c hc => (hrest.not_mem c hc).1)
    (splitExponent_of_ends fun c hc => (hrest.not_mem c hc).2.2), if_neg fun h => hne h.1,
    Option.getD_none]

theorem readNumber_exponent (limit : ℕ) (negative sign : Bool) (hwhole : Whole whole)
    (hfraction : ∀ c ∈ fraction, c.isDigit = true)
    (hds : ∀ c ∈ ds, c.isDigit = true) (hne : ds ≠ []) (hrest : Ends rest) :
    readNumber limit negative (whole ++ (if fraction = [] then [] else '.' :: fraction)
        ++ 'e' :: (if sign then '-' else '+') :: (ds ++ rest)) =
      .ok (float (decimalNumber negative whole fraction
        (if sign then -(digitsValue ds : ℤ) else digitsValue ds)), rest) := by
  have hexponent := splitExponent_signed sign hds hne
    fun c hc => (hrest.not_mem c hc).1
  rw [List.append_assoc]
  by_cases hnone : fraction = []
  · rw [if_pos hnone, List.nil_append,
      readNumber_of_parts hwhole (by simp) (splitFraction_of_ends (by simp)) hexponent,
      if_neg (by simp), Option.getD_some, hnone]
  · rw [if_neg hnone, List.cons_append, readNumber_of_parts hwhole (by simp)
      (splitFraction_point hfraction hnone (by simp)) hexponent, if_neg (by simp),
      Option.getD_some]

theorem toList_exponentDigits (n : ℕ) :
    ∃ ds, ((if (toString n).length < 2 then "0" else "") ++ toString n).toList = ds ∧
      (∀ c ∈ ds, c.isDigit = true) ∧ ds ≠ [] ∧ digitsValue ds = n := by
  refine ⟨_, rfl, ?_⟩
  rw [String.toList_append, Nat.toString_eq_ofList_toDigits, String.toList_ofList]
  have hpad : ∃ k, (if (String.ofList (Nat.toDigits 10 n)).length < 2 then "0" else "").toList =
      List.replicate k '0' := by
    split_ifs
    · exact ⟨1, rfl⟩
    · exact ⟨0, rfl⟩
  obtain ⟨k, hk⟩ := hpad
  rw [hk, digitsValue_zeros_append, digitsValue_toDigits]
  refine ⟨fun c hc => ?_, by simp [Nat.toDigits_ne_nil], rfl⟩
  exact (List.mem_append.mp hc).elim (isDigit_replicate c) (isDigit_toDigits c)

/-- **Digits that spell a number** that is not zero, without leading zeros. -/
structure Spells (ds : List Char) (k : ℕ) : Prop where
  isDigit : ∀ c ∈ ds, c.isDigit = true
  leading : ∃ c cs, ds = c :: cs ∧ c ≠ '0'
  value : digitsValue ds = k

theorem spells_toDigits {k : ℕ} (hk : k ≠ 0) : Spells (Nat.toDigits 10 k) k :=
  ⟨isDigit_toDigits, exists_toDigits hk, digitsValue_toDigits k⟩

namespace Spells

variable {k : ℕ} {e : ℤ} (h : Spells ds k)

include h

theorem ne_nil : ds ≠ [] := by
  obtain ⟨c, cs, rfl, -⟩ := h.leading
  simp

theorem isDigit_append_replicate (m : ℕ) : ∀ c ∈ ds ++ List.replicate m '0', c.isDigit = true :=
  fun c hc => (List.mem_append.mp hc).elim (h.isDigit c) (isDigit_replicate c)

theorem isDigit_replicate_append (m : ℕ) : ∀ c ∈ List.replicate m '0' ++ ds, c.isDigit = true :=
  fun c hc => (List.mem_append.mp hc).elim (isDigit_replicate c) (h.isDigit c)

theorem isDigit_drop (m : ℕ) : ∀ c ∈ ds.drop m, c.isDigit = true :=
  fun c hc => h.isDigit c (List.mem_of_mem_drop hc)

theorem whole_take {m : ℕ} (hm : 0 < m) : Whole (ds.take m) := by
  obtain ⟨c, cs, hds, hc⟩ := h.leading
  exact ⟨fun c hc => h.isDigit c (List.mem_of_mem_take hc),
    Or.inr ⟨c, cs.take (m - 1), by rw [hds, List.take_cons hm], hc⟩⟩

theorem whole_append_replicate (m : ℕ) : Whole (ds ++ List.replicate m '0') := by
  obtain ⟨c, cs, hds, hc⟩ := h.leading
  exact ⟨h.isDigit_append_replicate m, Or.inr ⟨c, cs ++ List.replicate m '0', by rw [hds]; rfl, hc⟩⟩

theorem readNumber_behind {m : ℕ} (hm : e = -(m + ds.length)) (hrest : Ends rest) :
    readNumber limit negative (("0." ++ zeros m ++ String.ofList ds).toList ++ rest) =
      .ok (float (Binary64.ofDecimal negative k e), rest) := by
  have htext : ("0." ++ zeros m ++ String.ofList ds).toList ++ rest =
      ['0'] ++ '.' :: (List.replicate m '0' ++ ds ++ rest) := by simp [zeros]
  have hvalue : digitsValue (['0'] ++ (List.replicate m '0' ++ ds)) = k := by
    rw [← h.value, ← List.append_assoc]
    exact digitsValue_zeros_append (m + 1) ds
  have hexponent : (0 : ℤ) - (List.replicate m '0' ++ ds).length = e := by
    rw [List.length_append, List.length_replicate]
    omega
  rw [htext, readNumber_point whole_zero (h.isDigit_replicate_append m) (by simp [h.ne_nil]) hrest,
    decimalNumber, hvalue, hexponent]

theorem readNumber_before (m : ℕ) (hrest : Ends rest) :
    readNumber limit negative ((String.ofList ds ++ zeros m ++ ".0").toList ++ rest) =
      .ok (float (Binary64.ofDecimal negative (k * 10 ^ (m + 1)) (-1)), rest) := by
  have htext : (String.ofList ds ++ zeros m ++ ".0").toList ++ rest =
      ds ++ List.replicate m '0' ++ '.' :: (['0'] ++ rest) := by simp [zeros]
  have hvalue : digitsValue (ds ++ List.replicate m '0' ++ ['0']) = k * 10 ^ (m + 1) := by
    rw [List.append_assoc, ← List.replicate_succ', digitsValue_append_zeros, h.value]
  rw [htext, readNumber_point (h.whole_append_replicate m) isDigit_zero (by simp) hrest,
    decimalNumber, hvalue]
  rfl

theorem readNumber_around {m : ℕ} (hm : 0 < m) (hlt : m < ds.length) (he : e = m - ds.length)
    (hrest : Ends rest) :
    readNumber limit negative
        ((String.ofList (ds.take m) ++ "." ++ String.ofList (ds.drop m)).toList ++ rest) =
      .ok (float (Binary64.ofDecimal negative k e), rest) := by
  have htext : (String.ofList (ds.take m) ++ "." ++ String.ofList (ds.drop m)).toList ++ rest =
      ds.take m ++ '.' :: (ds.drop m ++ rest) := by simp
  have hexponent : (0 : ℤ) - (ds.drop m).length = e := by
    rw [List.length_drop]
    omega
  rw [htext, readNumber_point (h.whole_take hm) (h.isDigit_drop m) (by simp; omega) hrest,
    decimalNumber, List.take_append_drop, h.value, hexponent]

theorem readNumber_scientific {x : ℤ} (hx : x = e + (ds.length - 1)) (hrest : Ends rest) :
    readNumber limit negative
        (((if (ds.length : ℤ) ≤ 1 then String.ofList ds ++ numberLayout.loneDigitTail
            else String.ofList (ds.take 1) ++ "." ++ String.ofList (ds.drop 1)) ++ "e"
          ++ (if x < 0 then "-" else "+") ++ (if (toString x.natAbs).length < 2 then "0" else "")
          ++ toString x.natAbs).toList ++ rest) =
      .ok (float (Binary64.ofDecimal negative k e), rest) := by
  obtain ⟨es, hes, hdigits, hne, hexponent⟩ := toList_exponentDigits x.natAbs
  have hmantissa : (if (ds.length : ℤ) ≤ 1 then String.ofList ds ++ numberLayout.loneDigitTail
      else String.ofList (ds.take 1) ++ "." ++ String.ofList (ds.drop 1)).toList =
      ds.take 1 ++ (if ds.drop 1 = [] then [] else '.' :: ds.drop 1) := by
    obtain ⟨c, cs, rfl, -⟩ := h.leading
    cases cs with
    | nil => simp [numberLayout]
    | cons c' cs =>
      rw [if_neg (by simp only [List.length_cons]; omega)]
      simp
  have hsign : (if x < 0 then "-" else "+").toList = [if decide (x < 0) then '-' else '+'] := by
    by_cases hneg : x < 0
    · rw [if_pos hneg, decide_eq_true hneg]; rfl
    · rw [if_neg hneg, decide_eq_false hneg]; rfl
  have hcount : x - (ds.drop 1).length = e := by
    have := List.length_pos_of_ne_nil h.ne_nil
    rw [List.length_drop]
    omega
  have hvalue : (if decide (x < 0) then -(digitsValue es : ℤ) else digitsValue es) = x := by
    rw [hexponent]
    split_ifs with hneg <;> rw [decide_eq_true_eq] at hneg <;> omega
  have hread := readNumber_exponent limit negative (decide (x < 0))
    (h.whole_take Nat.one_pos) (h.isDigit_drop 1) hdigits hne hrest
  rw [hvalue, decimalNumber, List.take_append_drop, h.value, hcount] at hread
  have hletter : "e".toList = ['e'] := rfl
  rw [← hread, ← hes]
  simp only [String.toList_append, hmantissa, hsign, hletter, List.append_assoc, List.cons_append,
    List.nil_append]

end Spells

/-- **The laid out digits of a double are read as it.** -/
theorem readNumber_layout (limit : ℕ) (negative : Bool) {k code : ℕ} {e : ℤ}
    (h : Binary64.NearestTo k e code) (hcode : 0 < code) (hlt : code < codeLimit)
    (hexp : -1100 ≤ e) (hrest : Ends rest) :
    readNumber limit negative
        ((numberLayout.digits (toString k) ((toString k).length + e)).toList ++ rest) =
      .ok (float (.finite negative ⟨code, hlt⟩), rest) := by
  have hread : Binary64.ofDecimal negative k e = .finite negative ⟨code, hlt⟩ :=
    Binary64.ofDecimal_of_nearest negative h hcode hlt hexp
  have hspells := spells_toDigits (h.coefficient_ne_zero hcode)
  have hlength := List.length_pos_of_ne_nil hspells.ne_nil
  rw [Nat.toString_eq_ofList_toDigits]
  generalize Nat.toDigits 10 k = ds at hspells hlength ⊢
  simp only [FloatLayout.digits, String.length_ofList, String.toList_ofList]
  by_cases hpositional : -4 < (ds.length + e : ℤ) ∧ (ds.length + e : ℤ) ≤ 16
  · rw [if_pos hpositional]
    split_ifs with hbehind hbefore
    · rw [hspells.readNumber_behind (e := e) (by omega) hrest, hread]
    · have hshift := h.shift (by omega)
      rw [show ((ds.length + e : ℤ) - ds.length).toNat = e.toNat by omega,
        hspells.readNumber_before e.toNat hrest,
        Binary64.ofDecimal_of_nearest negative hshift hcode hlt (by decide)]
    · rw [hspells.readNumber_around (e := e) (by omega) (by omega) (by omega) hrest, hread]
  · rw [if_neg hpositional, hspells.readNumber_scientific (e := e) (by omega) hrest, hread]

/-! ## Signed numbers -/

theorem readScalar_unsigned {c : Char} {cs : List Char} (hc : c.isDigit = true) :
    readScalar limit (c :: cs) = readNumber limit false (c :: cs) := by
  have hne : ∀ d : Char, d.isDigit = false → ∀ r, c :: cs = d :: r → False := by
    rintro d hd r heq
    rw [(List.cons.inj heq).1, hd] at hc
    exact Bool.false_ne_true hc
  rw [readScalar]
  · exact hne _ rfl
  · exact hne _ rfl
  · exact hne _ rfl
  · exact hne _ rfl
  · exact hne _ rfl
  · exact hne _ rfl
  · exact fun r => hne _ rfl _
  · exact hne _ rfl

theorem readScalar_negative {c : Char} {cs : List Char} (hc : c.isDigit = true) :
    readScalar limit ('-' :: c :: cs) = readNumber limit true (c :: cs) := by
  rw [readScalar]
  rintro r heq
  rw [(List.cons.inj heq).1] at hc
  exact absurd hc (by decide)

theorem readScalar_signed (hds : ∃ c cs, ds = c :: cs ∧ c.isDigit = true) :
    readScalar limit ((if negative then ['-'] else []) ++ ds) = readNumber limit negative ds := by
  obtain ⟨c, cs, rfl, hc⟩ := hds
  cases negative
  · exact readScalar_unsigned hc
  · exact readScalar_negative hc

theorem toList_toString (n : ℤ) : (toString n).toList =
    (if decide (n < 0) then ['-'] else []) ++ Nat.toDigits 10 n.natAbs := by
  cases n with
  | ofNat m => exact Nat.toList_repr
  | negSucc m =>
    change ("-" ++ (m + 1).repr).toList = _
    rw [String.toList_append, Nat.toList_repr, decide_eq_true (Int.negSucc_lt_zero m)]
    rfl

/-- **A written integer is read back**, if its digits are not too many. -/
theorem readScalar_int (n : ℤ) (hrest : Ends rest) :
    readScalar limit ((toString n).toList ++ rest) =
      if limit < digitCount n then .error .hugeInteger else .ok (int n, rest) := by
  have hbegins : ∃ c cs, Nat.toDigits 10 n.natAbs ++ rest = c :: cs ∧ c.isDigit = true := by
    obtain ⟨c, cs, hds⟩ := List.exists_cons_of_ne_nil (@Nat.toDigits_ne_nil n.natAbs 10)
    exact ⟨c, cs ++ rest, by rw [hds]; rfl, isDigit_toDigits c (by rw [hds]; simp)⟩
  have hsign : (if decide (n < 0) then -(n.natAbs : ℤ) else n.natAbs) = n := by
    split_ifs with h <;> rw [decide_eq_true_eq] at h <;> omega
  rw [toList_toString, List.append_assoc, readScalar_signed hbegins, readNumber_digits _ hrest,
    hsign, digitCount]

/-- A double as it is read: the NaNs that are read share a label. -/
def rereadFloat : Binary64 → Binary64
  | .nan _ => .nan nanLabel
  | x => x

theorem exists_isDigit_of_readNumber {r : Json × List Char}
    (h : readNumber limit negative ds = .ok r) : ∃ c cs, ds = c :: cs ∧ c.isDigit = true := by
  cases ds with
  | nil => exact nomatch h
  | cons c cs =>
    refine ⟨c, cs, rfl, ?_⟩
    by_contra hc
    rw [Bool.not_eq_true] at hc
    have hnone : spanDigits (c :: cs) = ([], c :: cs) :=
      @spanDigits_append [] (c :: cs) (by simp) (by simpa using hc)
    rw [readNumber, hnone] at h
    · exact nomatch h
    · rintro r heq
      rw [(List.cons.inj heq).1] at hc
      exact absurd hc (by decide)

theorem toList_write_zero (s : Bool) (hlt : 0 < codeLimit) :
    ((Binary64.finite s ⟨0, hlt⟩).write numberLayout).toList =
      (if s then ['-'] else []) ++ ['0', '.', '0'] := by
  rw [Binary64.write, if_pos rfl, String.toList_append]
  cases s <;> rfl

theorem toList_write_succ (s : Bool) {code : ℕ} (hlt : code + 1 < codeLimit) :
    ((Binary64.finite s ⟨code + 1, hlt⟩).write numberLayout).toList =
      (if s then ['-'] else []) ++
        (numberLayout.digits (toString (Binary64.shortest (code + 1)).coefficient)
          ((toString (Binary64.shortest (code + 1)).coefficient).length
            + (Binary64.shortest (code + 1)).exponent)).toList := by
  rw [Binary64.write, if_neg (Nat.succ_ne_zero code), String.toList_append]
  cases s <;> rfl

/-- **A written double is read back.** -/
theorem readScalar_float (x : Binary64) (hrest : Ends rest) :
    readScalar limit ((x.write numberLayout).toList ++ rest) =
      .ok (float (rereadFloat x), rest) := by
  match x with
  | .nan label =>
    rw [show Binary64.write numberLayout (.nan label) = "NaN" from rfl,
      show "NaN".toList = ['N', 'a', 'N'] from rfl]
    rfl
  | .infinite true =>
    rw [show (Binary64.write numberLayout (.infinite true)).toList =
      ['-', 'I', 'n', 'f', 'i', 'n', 'i', 't', 'y'] from rfl]
    rfl
  | .infinite false =>
    rw [show (Binary64.write numberLayout (.infinite false)).toList =
      ['I', 'n', 'f', 'i', 'n', 'i', 't', 'y'] from rfl]
    rfl
  | .finite s ⟨0, hlt⟩ =>
    have hread : readNumber limit s (['0', '.', '0'] ++ rest) =
        .ok (float (.finite s ⟨0, hlt⟩), rest) :=
      readNumber_point whole_zero isDigit_zero (by simp) hrest
    rw [toList_write_zero, List.append_assoc,
      readScalar_signed (exists_isDigit_of_readNumber hread), hread, rereadFloat]
    simp
  | .finite s ⟨code + 1, hlt⟩ =>
    obtain ⟨hnearest, hexp⟩ := Binary64.roundsTo_shortest (code + 1)
    have hread := readNumber_layout limit s hnearest (Nat.succ_pos code) hlt hexp hrest
    rw [toList_write_succ, List.append_assoc,
      readScalar_signed (exists_isDigit_of_readNumber hread), hread, rereadFloat]
    simp

end Json

end LiveForm
