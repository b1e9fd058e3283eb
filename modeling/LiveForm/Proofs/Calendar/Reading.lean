import Mathlib.Data.String.Basic
import LiveForm.Calendar.Reading

/-!
# Reading back ISO 8601 text

The text of a date is read as that date. The text of a moment is read as that moment, as long as
its offset is not below a second: such an offset is read as that of UTC.

* `Date.takeDigits_padded`: a padded number is read back;
* **`Date.ofText?_isoText`**: so is a date;
* `readClock_minutes`, `readClock_seconds`: the text of a clock, with and without seconds;
* `Offset.Regular`, `Moment.Regular`: the offsets and the moments that can be read;
* **`Moment.ofText?_isoText`**: such moments are read back, and
  `Moment.regular_of_ofText?`: no others are read.
-/

namespace LiveForm

/-! ## Padded numbers -/

namespace Date

variable {width n : ℕ}

theorem toList_padded (width n : ℕ) : (padded width n).toList =
    List.replicate (width - (Nat.toDigits 10 n).length) '0' ++ Nat.toDigits 10 n := by
  rw [padded, String.toList_append, String.toList_ofList, Nat.toString_eq_repr, Nat.toList_repr,
    ← String.length_toList, Nat.toList_repr]

theorem isDigit_of_mem_padded {c : Char} (h : c ∈ (padded width n).toList) : c.isDigit = true := by
  rw [toList_padded, List.mem_append] at h
  rcases h with h | h
  · rw [List.eq_of_mem_replicate h]
    rfl
  · exact Nat.isDigit_of_mem_toDigits (by decide) (by decide) h

theorem length_padded (hwidth : 0 < width) (hn : n < 10 ^ width) :
    (padded width n).toList.length = width := by
  have hle := (Nat.length_toDigits_le_iff (by decide) hwidth).mpr hn
  rw [toList_padded, List.length_append, List.length_replicate]
  omega

theorem ofDigitChars_padded (width n : ℕ) :
    Nat.ofDigitChars 10 (padded width n).toList 0 = n := by
  have hzeros : ∀ k, Nat.ofDigitChars 10 (List.replicate k '0') 0 = 0 := by
    intro k
    induction k with
    | zero => rfl
    | succ k ih => rw [List.replicate_succ, Nat.ofDigitChars_cons]; exact ih
  rw [toList_padded, Nat.ofDigitChars_append, hzeros,
    Nat.ofDigitChars_toDigits (by decide) (by decide)]

/-- **A padded number is read back.** -/
theorem takeDigits_padded (hwidth : 0 < width) (hn : n < 10 ^ width) (rest : List Char) :
    takeDigits width ((padded width n).toList ++ rest) = some (n, rest) := by
  have hlength := length_padded hwidth hn
  have hdigits : (padded width n).toList.all Char.isDigit = true :=
    List.all_eq_true.mpr fun _ hc => isDigit_of_mem_padded hc
  rw [takeDigits, List.take_left' hlength, List.drop_left' hlength, if_pos ⟨hlength, hdigits⟩]
  exact congrArg (fun v => some (v, rest)) (ofDigitChars_padded width n)

theorem exists_cons_padded (hwidth : 0 < width) (hn : n < 10 ^ width) :
    ∃ c cs, (padded width n).toList = c :: cs ∧ c.isDigit = true := by
  have hlength := length_padded hwidth hn
  cases hcs : (padded width n).toList with
  | nil =>
    rw [hcs] at hlength
    exact absurd hlength.symm hwidth.ne'
  | cons c cs => exact ⟨c, cs, rfl, isDigit_of_mem_padded (hcs ▸ List.mem_cons_self)⟩

theorem utf8ByteSize_padded (hwidth : 0 < width) (hn : n < 10 ^ width) :
    (padded width n).utf8ByteSize = width := by
  have hsize : ∀ cs : List Char, (∀ c ∈ cs, c.isDigit = true) → String.utf8Len cs = cs.length := by
    intro cs h
    induction cs with
    | nil => rfl
    | cons c cs ih =>
      obtain ⟨hc, hcs⟩ := List.forall_mem_cons.mp h
      have hone : c.utf8Size = 1 := Char.utf8Size_eq_one_iff.mpr (by
        simp only [Char.isDigit, Bool.and_eq_true, decide_eq_true_eq] at hc
        exact UInt32.le_trans hc.2 (by decide))
      rw [String.utf8Len_cons, ih hcs, hone, List.length_cons]
  rw [← String.utf8Len_toList, hsize _ fun _ => isDigit_of_mem_padded, length_padded hwidth hn]

/-! ## Dates -/

variable (d : Date)

theorem year_lt : d.year < 10 ^ 4 := by
  have h := d.exists_day
  simp only [isDay, Bool.and_eq_true, decide_eq_true_eq] at h
  omega

theorem day_lt : d.day < 10 ^ 2 := by
  have h := d.exists_day
  simp only [isDay, Bool.and_eq_true, decide_eq_true_eq] at h
  have hle : daysInMonth d.year d.month ≤ 31 := by
    unfold daysInMonth
    split <;> first | omega | (split <;> omega)
  omega

theorem month_le : d.month ≤ 12 := by
  have h := d.exists_day
  simp only [isDay, Bool.and_eq_true, decide_eq_true_eq] at h
  by_contra hmonth
  have hnone : daysInMonth d.year d.month = 0 := by
    unfold daysInMonth
    split <;> omega
  omega

theorem month_lt : d.month < 10 ^ 2 := Nat.lt_of_le_of_lt d.month_le (by decide)

theorem toList_isoText : d.isoText.toList = (padded 4 d.year).toList ++
    '-' :: ((padded 2 d.month).toList ++ '-' :: (padded 2 d.day).toList) := by
  have hdash : "-".toList = ['-'] := rfl
  rw [isoText]
  simp only [String.toList_append, hdash, List.append_assoc, List.cons_append,
    List.nil_append]

/-- **A date is read back**, whatever follows it. -/
theorem readDate_isoText (width : ℕ) (rest : List Char) :
    readDate width (d.isoText.toList ++ rest) = some d := by
  have hyear := takeDigits_padded (by decide) d.year_lt
  have hmonth := takeDigits_padded (by decide) d.month_lt
  have hday := takeDigits_padded (by decide) d.day_lt
  obtain ⟨c, cs, hcs, hc⟩ := exists_cons_padded (by decide) d.month_lt
  simp only [toList_isoText, List.append_assoc, List.cons_append]
  rw [readDate, hyear]
  simp only [Option.bind_eq_bind, Option.bind_some]
  split
  · next heq =>
    -- A week would begin with a letter.
    rw [hcs, List.cons_append, List.cons_eq_cons] at heq
    rw [heq.1] at hc
    exact absurd hc (by decide)
  · simp only [hmonth, if_true, skipChar, Option.bind_some, hday]
    rw [ofNumbers?, dif_pos d.exists_day]

theorem utf8ByteSize_isoText : d.isoText.utf8ByteSize = 10 := by
  have hdash : "-".utf8ByteSize = 1 := rfl
  simp only [isoText, String.utf8ByteSize_append, hdash, utf8ByteSize_padded (by decide) d.year_lt,
    utf8ByteSize_padded (by decide) d.month_lt, utf8ByteSize_padded (by decide) d.day_lt]

theorem length_toList_isoText : d.isoText.toList.length = 10 := by
  rw [toList_isoText]
  simp only [List.length_append, List.length_cons, length_padded (by decide) d.year_lt,
    length_padded (by decide) d.month_lt, length_padded (by decide) d.day_lt]

theorem separatorIndex_isoText (rest : List Char) {width : ℕ} (hwidth : width ≠ 7) :
    separatorIndex width (d.isoText.toList ++ rest) = 10 := by
  have hlength := length_padded (by decide) d.year_lt
  obtain ⟨c, cs, hcs, hc⟩ := exists_cons_padded (by decide) d.month_lt
  have htext : d.isoText.toList ++ rest = (padded 4 d.year).toList ++
      '-' :: c :: (cs ++ '-' :: ((padded 2 d.day).toList ++ rest)) := by
    rw [toList_isoText, hcs]
    simp only [List.append_assoc, List.cons_append]
  have hdash : (d.isoText.toList ++ rest)[4]? = some '-' := by
    rw [htext, List.getElem?_append_right hlength.le, hlength]
    rfl
  have hdigit : (d.isoText.toList ++ rest)[5]? = some c := by
    rw [htext, List.getElem?_append_right (by omega), hlength]
    rfl
  have hweek : c ≠ 'W' := by
    rintro rfl
    exact absurd hc (by decide)
  rw [separatorIndex, if_neg hwidth, if_pos hdash, hdigit, if_neg (by simpa using hweek)]

/-- **The text of a date is read as that date.** -/
theorem ofText?_isoText : ofText? d.isoText = some d := by
  have hread := d.readDate_isoText 10 []
  rw [List.append_nil] at hread
  rw [ofText?, d.utf8ByteSize_isoText, if_pos (by decide), hread]

end Date

/-! ## Times -/

open Date (padded takeDigits_padded exists_cons_padded)

section

variable {followed : Bool} {left n u : ℕ} {colons : Option Bool} {fields : List ℕ}

theorem readPairs_colon (hn : n < 10 ^ 2) (hcolons : colons ≠ some false) {more : List Char}
    (hmore : more ≠ []) :
    readPairs followed (left + 1) colons fields ((padded 2 n).toList ++ ':' :: more) =
      readPairs followed left (some true) (fields ++ [n]) more := by
  obtain ⟨c, cs, rfl⟩ := List.exists_cons_of_ne_nil hmore
  have htrue : colons.getD true = true := by
    cases colons with
    | none => rfl
    | some b =>
      cases b with
      | false => exact absurd rfl hcolons
      | true => rfl
  rw [readPairs, takeDigits_padded (by decide) hn]
  simp only [Option.bind_eq_bind, Option.bind_some, beq_self_eq_true, htrue, Bool.and_self,
    if_true]

theorem readPairs_last (hn : n < 10 ^ 2) :
    readPairs followed (left + 1) colons fields (padded 2 n).toList =
      some (Clock.ofFields (fields ++ [n]) 0 followed) := by
  have htake := takeDigits_padded (by decide) hn []
  rw [List.append_nil] at htake
  rw [readPairs, htake]
  rfl

theorem readPairs_fraction (hn : n < 10 ^ 2) (hu : u < 10 ^ 6) :
    readPairs followed (left + 1) (some true) fields
        ((padded 2 n).toList ++ '.' :: (padded 6 u).toList) =
      some (Clock.ofFields (fields ++ [n]) u followed) := by
  have hlength := Date.length_padded (by decide) hu
  have htake := takeDigits_padded (by decide) hu []
  rw [List.append_nil] at htake
  obtain ⟨c, cs, hcs, -⟩ := exists_cons_padded (by decide) hu
  have hfraction : readFraction (fields ++ [n]) followed (padded 6 u).toList =
      some (Clock.ofFields (fields ++ [n]) u followed) := by
    rw [readFraction, hlength]
    simp only [Nat.min_self, htake, Option.bind_eq_bind, Option.bind_some, List.dropWhile_nil,
      if_true, Nat.sub_self]
    exact congrArg (fun v => some (Clock.ofFields _ v followed)) (Nat.mul_one u)
  rw [hcs] at hfraction ⊢
  rw [readPairs, takeDigits_padded (by decide) hn]
  simp only [Option.bind_eq_bind, Option.bind_some]
  rw [if_neg (by decide), if_pos (Or.inl trivial), hfraction]

end

/-- The text of a fraction of a second; there is none of zero. -/
def fractionText (u : ℕ) : String := if u = 0 then "" else "." ++ padded 6 u

section

variable {followed : Bool} {hour minute second u : ℕ}

theorem readClock_minutes (hhour : hour < 10 ^ 2) (hminute : minute < 10 ^ 2) :
    readClock followed ((padded 2 hour).toList ++ ':' :: (padded 2 minute).toList) =
      some ⟨hour, minute, 0, 0, followed⟩ := by
  obtain ⟨c, cs, hcs, -⟩ := exists_cons_padded (by decide) hminute
  rw [readClock, readPairs_colon hhour (by decide) (by rw [hcs]; exact List.cons_ne_nil c cs),
    readPairs_last hminute]
  rfl

theorem readClock_seconds (hhour : hour < 10 ^ 2) (hminute : minute < 10 ^ 2)
    (hsecond : second < 10 ^ 2) (hu : u < 10 ^ 6) :
    readClock followed ((padded 2 hour).toList ++ ':' :: ((padded 2 minute).toList ++
        ':' :: ((padded 2 second).toList ++ (fractionText u).toList))) =
      some ⟨hour, minute, second, u, followed⟩ := by
  obtain ⟨c, cs, hcs, -⟩ := exists_cons_padded (by decide) hminute
  obtain ⟨c', cs', hcs', -⟩ := exists_cons_padded (by decide) hsecond
  rw [readClock, readPairs_colon hhour (by decide) (by rw [hcs]; exact List.cons_ne_nil _ _),
    readPairs_colon hminute (by decide) (by rw [hcs']; exact List.cons_ne_nil _ _)]
  by_cases hzero : u = 0
  · subst hzero
    have hnil : (fractionText 0).toList = [] := rfl
    rw [hnil, List.append_nil, readPairs_last hsecond]
    rfl
  · have hcons : (fractionText u).toList = '.' :: (padded 6 u).toList := by
      rw [fractionText, if_neg hzero, String.toList_append]
      rfl
    rw [hcons, readPairs_fraction hsecond hu]
    rfl

end

/-! ## Offsets -/

namespace Offset

variable {o : Offset}

/-- **An offset that can be read**: none, or one of a second at least. Offsets below a second are
read as none. -/
def Regular (o : Offset) : Prop := o.microseconds = 0 ∨ 1000000 ≤ o.microseconds.natAbs

theorem ofMicroseconds?_self (o : Offset) : ofMicroseconds? o.microseconds = some o :=
  dif_pos o.short

theorem microseconds_of_ofMicroseconds? {k : ℤ} (h : ofMicroseconds? k = some o) :
    o.microseconds = k := by
  rw [ofMicroseconds?] at h
  split_ifs at h
  rw [← Option.some.inj h]

theorem eq_utc (h : o.microseconds = 0) : o = utc := by
  obtain ⟨n, hn⟩ := o
  subst h
  rfl

theorem regular_of_readOffset {cs : List Char} (h : readOffset cs = some o) : o.Regular := by
  have hutc : utc.Regular := Or.inl rfl
  rw [readOffset.eq_def] at h
  split at h
  · cases h
  · split_ifs at h
    exact Option.some.inj h ▸ hutc
  · next sign r _ =>
    obtain ⟨c, -, hc⟩ := Option.bind_eq_some_iff.mp h
    dsimp only at hc
    split_ifs at hc with _ hseconds hsign
    · exact Option.some.inj hc ▸ hutc
    all_goals
      refine Or.inr ?_
      rw [microseconds_of_ofMicroseconds? hc]
      omega

/-- The digits of an offset, after its sign. -/
def clockText (o : Offset) : List Char :=
  let n := o.microseconds.natAbs
  let s := n / 1000000
  let u := n % 1000000
  (padded 2 (s / 3600)).toList ++ ':' :: ((padded 2 (s / 60 % 60)).toList ++
    if s % 60 = 0 ∧ u = 0 then [] else
      ':' :: ((padded 2 (s % 60)).toList ++ (fractionText u).toList))

theorem toList_offsetText (o : Offset) : (Moment.offsetText o).toList =
    (if o.microseconds < 0 then '-' else '+') :: o.clockText := by
  have hsign : (if o.microseconds < 0 then "-" else "+").toList =
      [if o.microseconds < 0 then '-' else '+'] := by
    split <;> rfl
  have hcolon : ":".toList = [':'] := rfl
  have hempty : "".toList = [] := rfl
  by_cases hshort : o.microseconds.natAbs / 1000000 % 60 = 0 ∧ o.microseconds.natAbs % 1000000 = 0
  · simp only [Moment.offsetText, clockText, if_pos hshort, if_pos hshort.2, String.toList_append,
      hsign, hcolon, hempty, List.append_assoc, List.cons_append, List.nil_append,
      List.append_nil]
  · simp only [Moment.offsetText, clockText, if_neg hshort, fractionText, String.toList_append,
      hsign, hcolon, List.append_assoc, List.cons_append, List.nil_append]

theorem readClock_clockText (o : Offset) : readClock false o.clockText = some
    (let s := o.microseconds.natAbs / 1000000
     ⟨s / 3600, s / 60 % 60, s % 60, o.microseconds.natAbs % 1000000, false⟩) := by
  have hshort : o.microseconds.natAbs < 86400000000 := o.short
  rw [clockText]
  dsimp only
  split_ifs with hzero
  · rw [List.append_nil, readClock_minutes (by omega) (by omega), hzero.1, hzero.2]
  · rw [readClock_seconds (by omega) (by omega) (by omega) (by omega)]

end Offset

/-- **An offset is read back.** -/
theorem readOffset_offsetText {o : Offset} (h : o.Regular) :
    readOffset (Moment.offsetText o).toList = some o := by
  have hsign : (if o.microseconds < 0 then '-' else '+') ≠ 'Z' := by
    split <;> decide
  rw [Offset.toList_offsetText, readOffset.eq_def]
  split
  · next heq => cases heq
  · next heq => exact absurd (List.cons_eq_cons.mp heq).1 hsign
  · next heq =>
    obtain ⟨rfl, rfl⟩ := List.cons_eq_cons.mp heq
    have hshort : o.microseconds.natAbs < 86400000000 := o.short
    have hwhole : (o.microseconds.natAbs / 1000000 / 3600 * 60
        + o.microseconds.natAbs / 1000000 / 60 % 60) * 60 + o.microseconds.natAbs / 1000000 % 60 =
          o.microseconds.natAbs / 1000000 := by omega
    have hsigned : ∀ n : ℕ, n = o.microseconds.natAbs →
        (if (if o.microseconds < 0 then '-' else '+') = '-' then -(n : ℤ) else n) =
          o.microseconds := by
      rintro n rfl
      by_cases hneg : o.microseconds < 0
      · rw [if_pos hneg, if_pos rfl]
        omega
      · rw [if_neg hneg, if_neg (by decide)]
        omega
    rw [Offset.readClock_clockText]
    simp only [Option.bind_eq_bind, Option.bind_some, Bool.false_eq_true, if_false, hwhole]
    by_cases hseconds : o.microseconds.natAbs / 1000000 = 0
    · have hzero : o.microseconds = 0 := by
        rcases h with h | h <;> omega
      rw [if_pos hseconds, Offset.eq_utc hzero]
    · rw [if_neg hseconds, hsigned _ (by omega), Offset.ofMicroseconds?_self]

/-! ## Moments -/

namespace Moment

/-- **A moment that can be read**: its offset can, if it has one. -/
def Regular (m : Moment) : Prop := ∀ o ∈ m.offset, o.Regular

theorem offset_of_ofNumbers? {date : Date} {hour minute second microsecond : ℕ}
    {offset : Option Offset} {m : Moment}
    (h : ofNumbers? date hour minute second microsecond offset = some m) : m.offset = offset := by
  rw [ofNumbers?] at h
  split_ifs at h
  rw [← Option.some.inj h]

theorem readTime_append {date : Date} {body zone : List Char}
    (hbody : ∀ c ∈ body, beginsOffset c = false) (hzone : ∀ c ∈ zone.head?, beginsOffset c = true) :
    readTime date (body ++ zone) = (readClock (zone ≠ []) body).bind fun c =>
      (if zone = [] then if c.leftover then none else some none
        else (readOffset zone).map some).bind fun offset =>
      ofNumbers? date c.hour c.minute c.second c.microsecond offset := by
  have htake : (body ++ zone).takeWhile (!beginsOffset ·) = body ∧
      (body ++ zone).dropWhile (!beginsOffset ·) = zone := by
    have hall : ∀ c ∈ body, (!beginsOffset c) = true := fun c hc => by rw [hbody c hc]; rfl
    rw [List.takeWhile_append_of_pos hall, List.dropWhile_append_of_pos hall]
    cases zone with
    | nil => exact ⟨List.append_nil body, rfl⟩
    | cons z zone =>
      have hz : (!beginsOffset z) = false := by rw [hzone z rfl]; rfl
      rw [List.takeWhile_cons_of_neg (by rw [hz]; decide),
        List.dropWhile_cons_of_neg (by rw [hz]; decide)]
      exact ⟨List.append_nil body, rfl⟩
  rw [readTime, htake.1, htake.2]
  refine congrArg (Option.bind _) (funext fun c => ?_)
  dsimp only
  split <;> rfl

theorem regular_of_readTime {date : Date} {cs : List Char} {m : Moment}
    (h : readTime date cs = some m) : m.Regular := by
  have hsplit := List.takeWhile_append_dropWhile (p := (!beginsOffset ·)) (l := cs)
  rw [← hsplit, readTime_append] at h
  · obtain ⟨c, -, h⟩ := Option.bind_eq_some_iff.mp h
    obtain ⟨offset, hoffset, h⟩ := Option.bind_eq_some_iff.mp h
    rw [Regular, offset_of_ofNumbers? h]
    split_ifs at hoffset
    · rw [← Option.some.inj hoffset]
      exact fun o ho => absurd ho (Option.not_mem_none o)
    · obtain ⟨o, ho, rfl⟩ := Option.map_eq_some_iff.mp hoffset
      intro o' ho'
      rw [← Option.mem_some.mp ho']
      exact Offset.regular_of_readOffset ho
  · intro c hc
    simpa using List.all_eq_true.mp List.all_takeWhile c hc
  · intro c hc
    have hhead := List.head?_dropWhile_not (!beginsOffset ·) cs
    rw [Option.mem_def.mp hc] at hhead
    simpa using hhead

/-- **A moment that is read is regular.** -/
theorem regular_of_ofText? {s : String} {m : Moment} (h : ofText? s = some m) : m.Regular := by
  obtain ⟨date, -, h⟩ := Option.bind_eq_some_iff.mp h
  split_ifs at h
  · exact regular_of_readTime h
  · rw [Regular, offset_of_ofNumbers? h]
    exact fun _ ho => absurd ho (Option.not_mem_none _)

variable (m : Moment)

/-- The text of the time of day, without the offset. -/
def dayText : List Char :=
  (padded 2 m.hour).toList ++ ':' :: ((padded 2 m.minute).toList ++
    ':' :: ((padded 2 m.second).toList ++ (fractionText m.microsecond).toList))

theorem toList_timeText :
    m.timeText.toList = m.dayText ++ ((m.offset.map offsetText).getD "").toList := by
  have hcolon : ":".toList = [':'] := rfl
  rw [timeText, dayText, fractionText]
  simp only [String.toList_append, hcolon, List.append_assoc, List.cons_append, List.nil_append]

theorem not_beginsOffset_of_isDigit {c : Char} (h : c.isDigit = true) : beginsOffset c = false := by
  by_contra hb
  simp only [beginsOffset, Bool.not_eq_false, Bool.or_eq_true, beq_iff_eq] at hb
  rcases hb with (rfl | rfl) | rfl <;> exact absurd h (by decide)

theorem not_beginsOffset {c : Char} (h : c ∈ m.dayText) : beginsOffset c = false := by
  have hfraction : c ∈ (fractionText m.microsecond).toList → beginsOffset c = false := by
    intro hc
    rw [fractionText] at hc
    split_ifs at hc
    · cases hc
    · rw [String.toList_append, List.mem_append] at hc
      rcases hc with hc | hc
      · rw [List.mem_singleton.mp hc]
        rfl
      · exact not_beginsOffset_of_isDigit (Date.isDigit_of_mem_padded hc)
  rw [dayText] at h
  simp only [List.mem_append, List.mem_cons] at h
  rcases h with h | rfl | h | rfl | h | h
  · exact not_beginsOffset_of_isDigit (Date.isDigit_of_mem_padded h)
  · rfl
  · exact not_beginsOffset_of_isDigit (Date.isDigit_of_mem_padded h)
  · rfl
  · exact not_beginsOffset_of_isDigit (Date.isDigit_of_mem_padded h)
  · exact hfraction h

theorem readClock_dayText (followed : Bool) : readClock followed m.dayText =
    some ⟨m.hour, m.minute, m.second, m.microsecond, followed⟩ := by
  have h := m.exists_time
  simp only [isTimeOfDay, Bool.and_eq_true, decide_eq_true_eq] at h
  rw [dayText, readClock_seconds (by omega) (by omega) (by omega) (by omega)]

/-- **A time of day is read back.** -/
theorem readTime_timeText (h : m.Regular) : readTime m.date m.timeText.toList = some m := by
  have hself : ofNumbers? m.date m.hour m.minute m.second m.microsecond m.offset = some m :=
    dif_pos m.exists_time
  have hbody : ∀ c ∈ m.dayText, beginsOffset c = false := fun _ => m.not_beginsOffset
  rw [toList_timeText]
  cases hoffset : m.offset with
  | none =>
    rw [hoffset] at hself
    rw [readTime_append hbody (fun c hc => by cases hc), readClock_dayText]
    exact hself
  | some o =>
    rw [hoffset] at hself
    have hzone : ∀ c ∈ (offsetText o).toList.head?, beginsOffset c = true := by
      intro c hc
      rw [Offset.toList_offsetText, List.head?_cons, Option.mem_some] at hc
      rw [← hc]
      split <;> rfl
    have hne : (offsetText o).toList ≠ [] := by
      rw [Offset.toList_offsetText]
      exact List.cons_ne_nil _ _
    rw [Option.map_some, Option.getD_some, readTime_append hbody hzone, readClock_dayText,
      Option.bind_some, if_neg hne, readOffset_offsetText (h o hoffset)]
    exact hself

theorem toList_isoText : m.isoText.toList = m.date.isoText.toList ++ 'T' :: m.timeText.toList := by
  have hseparator : "T".toList = ['T'] := rfl
  rw [isoText, joined]
  simp only [String.toList_append, hseparator, List.append_assoc, List.cons_append,
    List.nil_append]

/-- **The text of a moment is read as that moment.** -/
theorem ofText?_isoText (h : m.Regular) : ofText? m.isoText = some m := by
  have hsize : 10 < m.isoText.utf8ByteSize := by
    have hseparator : "T".utf8ByteSize = 1 := rfl
    simp only [isoText, joined, String.utf8ByteSize_append, hseparator,
      m.date.utf8ByteSize_isoText]
    omega
  have hdrop : m.isoText.toList.drop 11 = m.timeText.toList := by
    have hlength : (m.date.isoText.toList ++ ['T']).length = 11 := by
      rw [List.length_append, m.date.length_toList_isoText, List.length_singleton]
    rw [toList_isoText, ← List.singleton_append, ← List.append_assoc, List.drop_left' hlength]
  rw [ofText?, toList_isoText, Date.separatorIndex_isoText _ _ (by omega), Date.readDate_isoText,
    ← toList_isoText, hdrop]
  simp only [Option.bind_eq_bind, Option.bind_some, if_pos hsize]
  exact m.readTime_timeText h

end Moment

end LiveForm
