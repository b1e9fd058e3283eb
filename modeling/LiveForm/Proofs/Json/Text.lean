import Mathlib.Data.String.Basic
import Mathlib.Tactic.IntervalCases
import LiveForm.Json.Reader
import LiveForm.Json.Writer

/-!
# Reading back texts

A quoted text is read as the text up to its closing quote, whatever stands behind it.

* `Json.readCodes_escape`: a written character is read as its code;
* `Json.joinSurrogates_codes`: the codes of characters are not taken for surrogates;
* **`Json.readText_quoteChars`**: a quoted text is read back.
-/

namespace LiveForm

namespace Json

variable {c : Char} {cs rest : List Char}

/-! ## Characters -/

theorem exists_hexText {n : ℕ} (hn : n < 32) : ∃ a b c d,
    (hexText 4 n).toList = [a, b, c, d] ∧ hexQuad? a b c d = some n := by
  interval_cases n <;> exact ⟨_, _, _, _, rfl, rfl⟩

/-- What is read of a text, with one more code in front. -/
def withCode (code : ℕ) (r : Except Unreadable (List ℕ × List Char)) :
    Except Unreadable (List ℕ × List Char) := r.map fun p => (code :: p.1, p.2)

theorem readCodes_letter {l e : Char} (hl : l ≠ 'u') (he : unescape? l = some e)
    (cs : List Char) : readCodes ('\\' :: l :: cs) = withCode e.toNat (readCodes cs) := by
  rw [readCodes, he]
  · cases readCodes cs <;> rfl
  · rintro a b c d r hu -
    exact hl hu

theorem readCodes_hexText {n : ℕ} (hn : n < 32) (cs : List Char) :
    readCodes ('\\' :: 'u' :: (hexText 4 n).toList ++ cs) = withCode n (readCodes cs) := by
  obtain ⟨a, b, c, d, hdigits, hquad⟩ := exists_hexText hn
  rw [hdigits]
  change readCodes ('\\' :: 'u' :: a :: b :: c :: d :: cs) = _
  rw [readCodes, hquad]
  cases readCodes cs <;> rfl

theorem readCodes_plain (hquote : c ≠ '"') (hslash : c ≠ '\\') (hc : ¬ c.toNat < 32)
    (cs : List Char) : readCodes (c :: cs) = withCode c.toNat (readCodes cs) := by
  rw [readCodes, if_neg hc]
  · cases readCodes cs <;> rfl
  · exact hquote
  · rintro a b d e r h -
    exact hslash h
  · rintro d r h -
    exact hslash h

/-- **A written character is read as its code.** -/
theorem readCodes_escape (c : Char) (cs : List Char) :
    readCodes (escape c ++ cs) = withCode c.toNat (readCodes cs) := by
  unfold escape
  split
  · exact readCodes_letter (by decide) rfl cs
  · exact readCodes_letter (by decide) rfl cs
  · exact readCodes_letter (by decide) rfl cs
  · exact readCodes_letter (by decide) rfl cs
  · exact readCodes_letter (by decide) rfl cs
  · exact readCodes_letter (by decide) rfl cs
  · exact readCodes_letter (by decide) rfl cs
  · split_ifs with hlt
    · exact readCodes_hexText hlt cs
    · exact readCodes_plain ‹_› ‹_› hlt cs

theorem readCodes_quoteChars (cs rest : List Char) :
    readCodes (cs.flatMap escape ++ '"' :: rest) = .ok (cs.map Char.toNat, rest) := by
  induction cs with
  | nil => rfl
  | cons c cs ih => rw [List.flatMap_cons, List.append_assoc, readCodes_escape, ih]; rfl

/-! ## Surrogates -/

theorem not_surrogate (c : Char) :
    isHighSurrogate c.toNat = false ∧ isLowSurrogate c.toNat = false := by
  have hvalid : c.toNat < 0xD800 ∨ 0xDFFF < c.toNat ∧ c.toNat < 0x110000 := c.valid
  simp only [isHighSurrogate, isLowSurrogate, Bool.and_eq_false_iff, decide_eq_false_iff_not]
  omega

/-- **The codes of characters are not taken for surrogates.** -/
theorem joinSurrogates_codes (cs : List Char) :
    joinSurrogates (cs.map Char.toNat) = .ok cs := by
  have hchar : ∀ c : Char, charOf c.toNat = .ok c := by
    intro c
    obtain ⟨hhigh, hlow⟩ := not_surrogate c
    rw [charOf, hhigh, hlow, Char.ofNat_toNat]
    rfl
  induction cs with
  | nil => rfl
  | cons c cs ih =>
    cases cs with
    | nil =>
      rw [List.map_cons, List.map_nil, joinSurrogates, hchar]
      rfl
    | cons c' cs =>
      rw [List.map_cons] at ih
      rw [List.map_cons, List.map_cons, joinSurrogates, (not_surrogate c).1, hchar, ih]
      rfl

/-- **A quoted text is read back.** -/
theorem readText_quoteChars (s : String) (rest : List Char) :
    readText (s.toList.flatMap escape ++ '"' :: rest) = .ok (s, rest) := by
  rw [readText, readCodes_quoteChars]
  change (do Except.ok (String.ofList (← joinSurrogates (s.toList.map Char.toNat)), rest)) = _
  rw [joinSurrogates_codes]
  exact congrArg (fun t => Except.ok (t, rest)) String.ofList_toList

end Json

end LiveForm
