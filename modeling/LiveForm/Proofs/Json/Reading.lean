import LiveForm.Proofs.Json.Number
import LiveForm.Proofs.Json.Text

/-!
# Reading back trees

Reading a written tree gives the tree, in the compact layout and in the indented one. Two things do
not come back: an integer with more digits than are converted is refused, and the NaNs that are read
share a label.

* `Json.reread`: what comes back of a tree;
* `Json.Reads`: some characters are read as a value, whatever stands behind them;
* `Json.reads_array`, `Json.reads_object`: members between brackets, with white space or without;
* **`Json.reads_compactChars`, `Json.reads_indentedChars`**: both layouts are read back, so
  `Json.parse_compact` and `Json.parse_indented`.
-/

namespace LiveForm

namespace Json

/-! ## What comes back -/

mutual

/-- **A tree as it is read back**, with a limit for the digits of integers. -/
def reread (limit : ℕ) : Json → Except Unreadable Json
  | null => .ok null
  | bool b => .ok (bool b)
  | int n => if limit < digitCount n then .error .hugeInteger else .ok (int n)
  | float x => .ok (float (rereadFloat x))
  | text s => .ok (text s)
  | array items => (rereadItems limit items).map array
  | object members => (rereadMembers limit members).map object

/-- The members of an array as they are read back. -/
def rereadItems (limit : ℕ) : List Json → Except Unreadable (List Json)
  | [] => .ok []
  | j :: js => do .ok ((← reread limit j) :: (← rereadItems limit js))

/-- The members of an object as they are read back. -/
def rereadMembers (limit : ℕ) : List (String × Json) → Except Unreadable (List (String × Json))
  | [] => .ok []
  | (k, j) :: ms => do .ok ((k, ← reread limit j) :: (← rereadMembers limit ms))

end

/-! ## Layouts -/

variable {limit : ℕ} {x w w' rest : List Char} {r : Except Unreadable Json}

/-- White space. -/
def White (w : List Char) : Prop := ∀ c ∈ w, isWhite c = true

theorem white_nil : White [] := nofun

theorem skipWhite_append (hw : White w) (rest : List Char) :
    skipWhite (w ++ rest) = skipWhite rest := List.dropWhile_append_of_pos hw

theorem skipWhite_cons {c : Char} (hc : isWhite c = false) (cs : List Char) :
    skipWhite (c :: cs) = c :: cs := List.dropWhile_cons_of_neg (by simp [hc])

theorem ends_cons {c : Char} (hc : c = ',' ∨ c = ']' ∨ c = '\x7d') (cs : List Char) :
    Ends (c :: cs) := by
  rintro d hd
  obtain rfl : c = d := by simpa using hd
  exact hc.imp_right fun h => h.imp_right Or.inl

theorem ends_append (hw : White w) (hrest : Ends rest) : Ends (w ++ rest) := by
  cases w with
  | nil => exact hrest
  | cons c w =>
    rintro d hd
    obtain rfl : c = d := by simpa using hd
    exact Or.inr (Or.inr (Or.inr (hw c List.mem_cons_self)))

/-- **Some characters are read as a value**, or refused, whatever stands behind them. They begin
neither with white space nor with a closing bracket or brace. -/
structure Reads (limit : ℕ) (x : List Char) (r : Except Unreadable Json) : Prop where
  begins : ∃ c cs, x = c :: cs ∧ isWhite c = false ∧ c ≠ ']' ∧ c ≠ '\x7d'
  reads : ∀ rest fuel, Ends rest → 2 * x.length ≤ fuel →
    readValue limit fuel (x ++ rest) = r.map (·, rest)

theorem Reads.unique {r' : Except Unreadable Json} (h : Reads limit x r) (h' : Reads limit x r') :
    r = r' := by
  have hread := (h.reads [] _ nofun (le_refl _)).symm.trans (h'.reads [] _ nofun (le_refl _))
  cases r <;> cases r' <;> simp_all [Except.map]

theorem readScalar_malformed {c : Char} (cs : List Char)
    (hc : isWhite c = true ∨ c ∈ ['[', ']', '\x7b', '\x7d']) :
    readScalar limit (c :: cs) = .error .malformed := by
  have hcases : c = ' ' ∨ c = '\t' ∨ c = '\n' ∨ c = '\r' ∨ c = '[' ∨ c = ']' ∨ c = '\x7b' ∨
      c = '\x7d' := by simpa [isWhite, or_assoc] using hc
  rcases hcases with rfl | rfl | rfl | rfl | rfl | rfl | rfl | rfl <;> rfl

theorem reads_scalar (hr : r ≠ .error .malformed)
    (hread : ∀ rest, Ends rest → readScalar limit (x ++ rest) = r.map (·, rest)) :
    Reads limit x r := by
  have hnil := hread [] fun _ h => nomatch h
  rw [List.append_nil] at hnil
  have hne : readScalar limit x ≠ .error .malformed := by
    rw [hnil]
    cases r with
    | error e => exact fun h => hr (congrArg _ (Except.error.inj h))
    | ok j => exact nofun
  cases x with
  | nil => exact absurd rfl hne
  | cons c cs =>
    have hc : ¬ (isWhite c = true ∨ c ∈ ['[', ']', '\x7b', '\x7d']) :=
      fun h => hne (readScalar_malformed cs h)
    simp only [List.mem_cons, List.not_mem_nil, or_false, not_or, Bool.not_eq_true] at hc
    obtain ⟨hwhite, hopen, hclose, hbrace, hbrace'⟩ := hc
    refine ⟨⟨c, cs, rfl, hwhite, hclose, hbrace'⟩, fun rest fuel hrest hfuel => ?_⟩
    obtain ⟨fuel, rfl⟩ : ∃ n, fuel = n + 1 :=
      Nat.exists_eq_succ_of_ne_zero (by rw [List.length_cons] at hfuel; omega)
    rw [← hread rest hrest, List.cons_append, readValue]
    · exact fun r heq => hopen (List.cons.inj heq).1
    · exact fun r heq => hbrace (List.cons.inj heq).1

/-! ## Members -/

section Run

variable {α β : Type} {run : ℕ → List Char → Except Unreadable (List β × List Char)} {close : Char}
  {write : α → List Char} {read : α → Except Unreadable β}

/-- **Some characters are read as a member** of a run of members up to a closing character: as the
last one before that character, or as one before a comma and further members. -/
structure ReadsMember (run : ℕ → List Char → Except Unreadable (List β × List Char)) (close : Char)
    (x : List Char) (r : Except Unreadable β) : Prop where
  begins : ∃ c cs, x = c :: cs ∧ isWhite c = false ∧ c ≠ close
  last : ∀ w rest fuel, White w → 2 * x.length ≤ fuel →
    run (fuel + 1) (x ++ (w ++ close :: rest)) = r.map fun b => ([b], rest)
  next : ∀ w rest fuel, White w → skipWhite rest = rest → 2 * x.length ≤ fuel →
    run (fuel + 1) (x ++ (',' :: (w ++ rest))) = r.bind fun b =>
      (run fuel rest).map fun p => (b :: p.1, p.2)

theorem exists_cons_joinChars {a : α} {c : Char} {cs : List Char} (h : write a = c :: cs)
    (separator : List Char) (as : List α) (rest : List Char) :
    ∃ tail, joinChars separator ((a :: as).map write) ++ rest = c :: tail := by
  cases as with
  | nil => exact ⟨cs ++ rest, by rw [List.map_singleton, joinChars, h]; rfl⟩
  | cons b as =>
    exact ⟨cs ++ separator ++ joinChars separator ((b :: as).map write) ++ rest, by
      rw [List.map_cons, h]; rfl⟩

theorem mapM_cons_except {ε : Type} (f : α → Except ε β) (a : α) (as : List α) :
    (a :: as).mapM f = (f a).bind fun b => (as.mapM f).map (b :: ·) := by
  rw [List.mapM_cons]
  cases f a with
  | error e => rfl
  | ok b => cases as.mapM f <;> rfl

/-- **Joined members are read up to the closing character.** -/
theorem run_joinChars (hw : White w) (hw' : White w') (rest : List Char) :
    ∀ (as : List α) (fuel : ℕ), as ≠ [] →
    (∀ a ∈ as, ReadsMember run close (write a) (read a)) →
    2 * (joinChars (',' :: w) (as.map write)).length + 1 ≤ fuel →
    run fuel (joinChars (',' :: w) (as.map write) ++ (w' ++ close :: rest)) =
      (as.mapM read).map (·, rest)
  | [], _, hne, _, _ => absurd rfl hne
  | [a], fuel + 1, _, hreads, hfuel => by
    have ha := hreads a List.mem_cons_self
    rw [List.map_singleton, joinChars] at hfuel ⊢
    rw [ha.last w' rest fuel hw' (by omega), mapM_cons_except]
    cases read a <;> rfl
  | a :: b :: as, fuel + 1, _, hreads, hfuel => by
    have ha := hreads a List.mem_cons_self
    have hreads' : ∀ b' ∈ b :: as, ReadsMember run close (write b') (read b') :=
      fun b' hb => hreads b' (List.mem_cons_of_mem a hb)
    have htext : joinChars (',' :: w) ((a :: b :: as).map write) =
        write a ++ (',' :: (w ++ joinChars (',' :: w) ((b :: as).map write))) := by
      simp [joinChars]
    have hlength := congrArg List.length htext
    simp only [List.length_append, List.length_cons] at hlength
    have ih := run_joinChars hw hw' rest (b :: as) fuel (List.cons_ne_nil b as) hreads' (by omega)
    have hskip : skipWhite (joinChars (',' :: w) ((b :: as).map write) ++ (w' ++ close :: rest)) =
        joinChars (',' :: w) ((b :: as).map write) ++ (w' ++ close :: rest) := by
      obtain ⟨c, cs, hcs, hc, -⟩ := (hreads' b List.mem_cons_self).begins
      obtain ⟨tail, htail⟩ := exists_cons_joinChars hcs (',' :: w) as (w' ++ close :: rest)
      rw [htail, skipWhite_cons hc]
    rw [htext, List.append_assoc, List.cons_append, List.append_assoc,
      ha.next w _ fuel hw hskip (by omega), ih, mapM_cons_except read a (b :: as)]
    cases read a with
    | error e => rfl
    | ok j => cases (b :: as).mapM read <;> rfl

theorem exists_cons_skipWhite {w₀ : List Char} {as : List α} (hw₀ : White w₀) (hne : as ≠ [])
    (hreads : ∀ a ∈ as, ReadsMember run close (write a) (read a)) (separator rest : List Char) :
    ∃ c tail, joinChars separator (as.map write) ++ rest = c :: tail ∧ c ≠ close ∧
      skipWhite (w₀ ++ (joinChars separator (as.map write) ++ rest)) = c :: tail := by
  obtain ⟨a, as, rfl⟩ := List.exists_cons_of_ne_nil hne
  obtain ⟨c, cs, hcs, hwhite, hc⟩ := (hreads a List.mem_cons_self).begins
  obtain ⟨tail, htail⟩ := exists_cons_joinChars hcs separator as rest
  exact ⟨c, tail, htail, hc, by rw [skipWhite_append hw₀, htail, skipWhite_cons hwhite]⟩

end Run

/-! ### Arrays -/

theorem Reads.item (hx : Reads limit x r) : ReadsMember (readItems limit) ']' x r := by
  refine ⟨hx.begins.imp fun c h => h.imp fun cs h => ⟨h.1, h.2.1, h.2.2.1⟩,
    fun w rest fuel hw hfuel => ?_, fun w rest fuel hw hrest hfuel => ?_⟩
  · have hclose : skipWhite (w ++ ']' :: rest) = ']' :: rest :=
      (skipWhite_append hw _).trans (skipWhite_cons rfl rest)
    rw [readItems, hx.reads _ fuel (ends_append hw (ends_cons (by simp) rest)) hfuel]
    cases r with
    | error e => rfl
    | ok j => simp only [Except.map, bind, Except.bind, hclose]
  · have hcomma : skipWhite (',' :: (w ++ rest)) = ',' :: (w ++ rest) := skipWhite_cons rfl _
    have hnext : skipWhite (w ++ rest) = rest := (skipWhite_append hw _).trans hrest
    rw [readItems, hx.reads _ fuel (ends_cons (by simp) _) hfuel]
    cases r with
    | error e => rfl
    | ok j => simp only [Except.map, bind, Except.bind, hcomma, hnext]

variable {α : Type} {w₀ w₁ : List Char} {as : List α} {write : α → List Char}
  {read : α → Except Unreadable Json}

/-- **An array is read back** by its members, with white space between them or without. -/
theorem reads_array (hw₀ : White w₀) (hw : White w) (hw' : White w') (hne : as ≠ [])
    (hreads : ∀ a ∈ as, Reads limit (write a) (read a)) :
    Reads limit ('[' :: (w₀ ++ (joinChars (',' :: w) (as.map write) ++ (w' ++ [']']))))
      ((as.mapM read).map array) := by
  refine ⟨⟨'[', _, rfl, rfl, by decide, by decide⟩, fun rest fuel _ hfuel => ?_⟩
  simp only [List.length_cons, List.length_append, List.length_nil] at hfuel
  obtain ⟨fuel, rfl⟩ : ∃ n, fuel = n + 1 := Nat.exists_eq_succ_of_ne_zero (by omega)
  have hitems := fun a ha => (hreads a ha).item
  have hrun := run_joinChars hw hw' rest as fuel hne hitems (by omega)
  obtain ⟨c, tail, htail, hc, hskip⟩ :=
    exists_cons_skipWhite hw₀ hne hitems (',' :: w) (w' ++ ']' :: rest)
  have htext : '[' :: (w₀ ++ (joinChars (',' :: w) (as.map write) ++ (w' ++ [']']))) ++ rest =
      '[' :: (w₀ ++ (joinChars (',' :: w) (as.map write) ++ (w' ++ ']' :: rest))) := by simp
  rw [htext, readValue, hskip]
  split
  · next heq => exact absurd (List.cons.inj heq).1 hc
  · rw [← htail, hrun]
    cases as.mapM read <;> rfl

theorem reads_emptyArray : Reads limit ['[', ']'] (.ok (array [])) := by
  refine ⟨⟨'[', _, rfl, rfl, by decide, by decide⟩, fun rest fuel _ hfuel => ?_⟩
  obtain ⟨fuel, rfl⟩ : ∃ n, fuel = n + 1 :=
    Nat.exists_eq_succ_of_ne_zero (by simp only [List.length_cons] at hfuel; omega)
  rfl

/-! ### Objects -/

/-- The characters of a member of an object. -/
def memberChars (w : List Char) (name : String) (x : List Char) : List Char :=
  quoteChars name ++ ':' :: (w ++ x)

theorem length_le_memberChars (w : List Char) (name : String) (x : List Char) :
    x.length ≤ (memberChars w name x).length := by
  simp only [memberChars, List.length_append, List.length_cons]
  omega

theorem Reads.readMembers_value (hx : Reads limit x r) (name : String) (hw₁ : White w₁)
    (hrest : Ends rest) {fuel : ℕ} (hfuel : 2 * x.length ≤ fuel) :
    readMembers limit (fuel + 1) (memberChars w₁ name x ++ rest) =
      r.bind fun j => match skipWhite rest with
        | '\x7d' :: rest => .ok ([(name, j)], rest)
        | ',' :: rest => (readMembers limit fuel (skipWhite rest)).map fun p =>
          ((name, j) :: p.1, p.2)
        | _ => .error .malformed := by
  have htext : memberChars w₁ name x ++ rest =
      '"' :: (name.toList.flatMap escape ++ '"' :: (':' :: (w₁ ++ (x ++ rest)))) := by
    simp [memberChars, quoteChars]
  have hvalue : skipWhite (w₁ ++ (x ++ rest)) = x ++ rest := by
    obtain ⟨c, cs, rfl, hc, -⟩ := hx.begins
    rw [skipWhite_append hw₁, List.cons_append, skipWhite_cons hc]
  rw [htext, readMembers, readText_quoteChars]
  change (readValue limit fuel (skipWhite (w₁ ++ (x ++ rest)))).bind _ = _
  rw [hvalue, hx.reads _ fuel hrest hfuel]
  cases r <;> rfl

theorem Reads.member (hx : Reads limit x r) (name : String) (hw₁ : White w₁) :
    ReadsMember (readMembers limit) '\x7d' (memberChars w₁ name x) (r.map (name, ·)) := by
  have hlength := length_le_memberChars w₁ name x
  refine ⟨⟨'"', _, rfl, rfl, by decide⟩,
    fun w rest fuel hw hfuel => ?_, fun w rest fuel hw hrest hfuel => ?_⟩
  · have hclose : skipWhite (w ++ '\x7d' :: rest) = '\x7d' :: rest :=
      (skipWhite_append hw _).trans (skipWhite_cons rfl rest)
    rw [hx.readMembers_value name hw₁ (ends_append hw (ends_cons (by simp) rest)) (by omega),
      hclose]
    cases r <;> rfl
  · have hcomma : skipWhite (',' :: (w ++ rest)) = ',' :: (w ++ rest) := skipWhite_cons rfl _
    have hnext : skipWhite (w ++ rest) = rest := (skipWhite_append hw _).trans hrest
    rw [hx.readMembers_value name hw₁ (ends_cons (by simp) _) (by omega), hcomma]
    simp only [hnext]
    cases r <;> rfl

/-- **An object is read back** by its members, with white space between them or without. -/
theorem reads_object (name : α → String) (hw₀ : White w₀) (hw₁ : White w₁) (hw : White w)
    (hw' : White w') (hne : as ≠ []) (hreads : ∀ a ∈ as, Reads limit (write a) (read a)) :
    Reads limit ('\x7b' :: (w₀ ++ (joinChars (',' :: w)
        (as.map fun a => memberChars w₁ (name a) (write a)) ++ (w' ++ ['\x7d']))))
      ((as.mapM fun a => (read a).map (name a, ·)).map object) := by
  refine ⟨⟨'\x7b', _, rfl, rfl, by decide, by decide⟩, fun rest fuel _ hfuel => ?_⟩
  simp only [List.length_cons, List.length_append, List.length_nil] at hfuel
  obtain ⟨fuel, rfl⟩ : ∃ n, fuel = n + 1 := Nat.exists_eq_succ_of_ne_zero (by omega)
  have hmembers := fun a ha => (hreads a ha).member (name a) hw₁
  have hrun := run_joinChars hw hw' rest as fuel hne hmembers (by omega)
  obtain ⟨c, tail, htail, hc, hskip⟩ :=
    exists_cons_skipWhite hw₀ hne hmembers (',' :: w) (w' ++ '\x7d' :: rest)
  have htext : '\x7b' :: (w₀ ++ (joinChars (',' :: w)
      (as.map fun a => memberChars w₁ (name a) (write a)) ++ (w' ++ ['\x7d']))) ++ rest =
      '\x7b' :: (w₀ ++ (joinChars (',' :: w)
        (as.map fun a => memberChars w₁ (name a) (write a)) ++ (w' ++ '\x7d' :: rest))) := by simp
  rw [htext, readValue, hskip]
  split
  · next heq => exact absurd (List.cons.inj heq).1 hc
  · rw [← htail, hrun]
    cases as.mapM fun a => (read a).map (name a, ·) <;> rfl

theorem reads_emptyObject : Reads limit ['\x7b', '\x7d'] (.ok (object [])) := by
  refine ⟨⟨'\x7b', _, rfl, rfl, by decide, by decide⟩, fun rest fuel _ hfuel => ?_⟩
  obtain ⟨fuel, rfl⟩ : ∃ n, fuel = n + 1 :=
    Nat.exists_eq_succ_of_ne_zero (by simp only [List.length_cons] at hfuel; omega)
  rfl

/-! ## Trees -/

theorem rereadItems_eq (limit : ℕ) (items : List Json) :
    rereadItems limit items = items.mapM (reread limit) := by
  induction items with
  | nil => rw [rereadItems]; rfl
  | cons j js ih =>
    rw [rereadItems, mapM_cons_except, ih]
    cases reread limit j with
    | error e => rfl
    | ok j => cases js.mapM (reread limit) <;> rfl

theorem rereadMembers_eq (limit : ℕ) (members : List (String × Json)) :
    rereadMembers limit members = members.mapM fun m => (reread limit m.2).map (m.1, ·) := by
  induction members with
  | nil => rw [rereadMembers]; rfl
  | cons m ms ih =>
    rw [rereadMembers, mapM_cons_except, ih]
    cases reread limit m.2 with
    | error e => rfl
    | ok j => cases ms.mapM fun m => (reread limit m.2).map (m.1, ·) <;> rfl

theorem reads_int (n : ℤ) : Reads limit (toString n).toList (reread limit (int n)) := by
  rw [reread]
  refine reads_scalar (by split_ifs <;> simp) fun rest hrest => ?_
  rw [readScalar_int n hrest]
  split_ifs <;> rfl

theorem reads_float (x : Binary64) :
    Reads limit (x.write numberLayout).toList (reread limit (float x)) := by
  rw [reread]
  exact reads_scalar (by simp) fun rest hrest => readScalar_float x hrest

theorem reads_text (s : String) : Reads limit (quoteChars s) (reread limit (text s)) := by
  rw [reread]
  refine reads_scalar (by simp) fun rest _ => ?_
  have htext : quoteChars s ++ rest = '"' :: (s.toList.flatMap escape ++ '"' :: rest) := by
    simp [quoteChars]
  rw [htext, readScalar, readText_quoteChars]
  rfl

theorem reads_name {w : List Char} {j : Json} (hj : reread limit j = .ok j)
    (hread : ∀ rest, readScalar limit (w ++ rest) = .ok (j, rest)) :
    Reads limit w (reread limit j) := by
  rw [hj]
  exact reads_scalar (by simp) fun rest _ => hread rest

theorem compactItems_eq (items : List Json) : compactItems items = items.map compactChars := by
  induction items with
  | nil => rfl
  | cons j js ih => rw [compactItems, ih]; rfl

theorem compactMembers_eq (members : List (String × Json)) : compactMembers members =
    members.map fun m => memberChars [] m.1 (compactChars m.2) := by
  induction members with
  | nil => rfl
  | cons m ms ih => rw [compactMembers, ih]; rfl

mutual

/-- **A compact text is read back.** -/
theorem reads_compactChars : (j : Json) → Reads limit (compactChars j) (reread limit j)
  | null => reads_name (by rw [reread]) fun _ => rfl
  | bool true => reads_name (by rw [reread]) fun _ => rfl
  | bool false => reads_name (by rw [reread]) fun _ => rfl
  | int n => by rw [compactChars]; exact reads_int n
  | float x => by rw [compactChars]; exact reads_float x
  | text s => by rw [compactChars]; exact reads_text s
  | array items => by
    have hitems := reads_compactItems items
    rw [compactChars, compactItems_eq, reread, rereadItems_eq]
    by_cases hne : items = []
    · subst hne
      exact reads_emptyArray
    · exact reads_array white_nil white_nil white_nil hne hitems
  | object members => by
    have hmembers := reads_compactMembers members
    rw [compactChars, compactMembers_eq, reread, rereadMembers_eq]
    by_cases hne : members = []
    · subst hne
      exact reads_emptyObject
    · exact reads_object Prod.fst white_nil white_nil white_nil white_nil hne hmembers

theorem reads_compactItems : (items : List Json) →
    ∀ j ∈ items, Reads limit (compactChars j) (reread limit j)
  | [] => fun _ h => absurd h List.not_mem_nil
  | j :: js => List.forall_mem_cons.mpr ⟨reads_compactChars j, reads_compactItems js⟩

theorem reads_compactMembers : (members : List (String × Json)) →
    ∀ m ∈ members, Reads limit (compactChars m.2) (reread limit m.2)
  | [] => fun _ h => absurd h List.not_mem_nil
  | (_, j) :: ms => List.forall_mem_cons.mpr ⟨reads_compactChars j, reads_compactMembers ms⟩

end

theorem parse_of_reads (h : Reads digitLimit x r) : parse (String.ofList x) = r := by
  obtain ⟨c, cs, rfl, hc, -⟩ := h.begins
  have hread := h.reads [] (2 * (c :: cs).length + 2) nofun (by omega)
  rw [List.append_nil] at hread
  rw [parse, String.toList_ofList]
  change (readValue digitLimit (2 * (c :: cs).length + 2) (skipWhite (c :: cs))).bind _ = _
  rw [skipWhite_cons hc, hread]
  cases r <;> rfl

/-- **Reading a compact text.** -/
theorem parse_compact (j : Json) : parse j.compact = reread digitLimit j :=
  parse_of_reads (reads_compactChars j)

/-! ## The indented layout -/

theorem indentedItems_eq (depth : ℕ) (items : List Json) :
    indentedItems depth items = items.map (indentedChars depth) := by
  induction items with
  | nil => rfl
  | cons j js ih => rw [indentedItems, ih]; rfl

theorem indentedMembers_eq (depth : ℕ) (members : List (String × Json)) :
    indentedMembers depth members =
      members.map fun m => memberChars [' '] m.1 (indentedChars depth m.2) := by
  induction members with
  | nil => rfl
  | cons m ms ih => rw [indentedMembers, ih]; rfl

theorem white_space : White [' '] := fun _ hc => List.mem_singleton.mp hc ▸ rfl

theorem white_newLine (depth : ℕ) : White (newLine depth) := by
  intro c hc
  rcases List.mem_cons.mp hc with rfl | hc
  · rfl
  · rw [List.eq_of_mem_replicate hc]
    rfl

mutual

/-- **An indented text is read back.** -/
theorem reads_indentedChars : (depth : ℕ) → (j : Json) →
    Reads limit (indentedChars depth j) (reread limit j)
  | _, null => by rw [indentedChars]; exact reads_compactChars null
  | _, bool b => by rw [indentedChars]; exact reads_compactChars (bool b)
  | _, int n => by rw [indentedChars]; exact reads_compactChars (int n)
  | _, float x => by rw [indentedChars]; exact reads_compactChars (float x)
  | _, text s => by rw [indentedChars]; exact reads_compactChars (text s)
  | depth, array items => by
    have hitems := reads_indentedItems (depth + 1) items
    rw [indentedChars, indentedItems_eq, reread, rereadItems_eq]
    by_cases hne : items = []
    · subst hne
      exact reads_emptyArray
    · have harray := reads_array (white_newLine (depth + 1)) (white_newLine (depth + 1))
        (white_newLine depth) hne hitems
      rw [block, if_neg (by simp [hne])]
      simpa using harray
  | depth, object members => by
    have hmembers := reads_indentedMembers (depth + 1) members
    rw [indentedChars, indentedMembers_eq, reread, rereadMembers_eq]
    by_cases hne : members = []
    · subst hne
      exact reads_emptyObject
    · have hobject := reads_object Prod.fst (white_newLine (depth + 1)) white_space
        (white_newLine (depth + 1)) (white_newLine depth) hne hmembers
      rw [block, if_neg (by simp [hne])]
      simpa using hobject

theorem reads_indentedItems : (depth : ℕ) → (items : List Json) →
    ∀ j ∈ items, Reads limit (indentedChars depth j) (reread limit j)
  | _, [] => fun _ h => absurd h List.not_mem_nil
  | depth, j :: js =>
    List.forall_mem_cons.mpr ⟨reads_indentedChars depth j, reads_indentedItems depth js⟩

theorem reads_indentedMembers : (depth : ℕ) → (members : List (String × Json)) →
    ∀ m ∈ members, Reads limit (indentedChars depth m.2) (reread limit m.2)
  | _, [] => fun _ h => absurd h List.not_mem_nil
  | depth, (_, j) :: ms =>
    List.forall_mem_cons.mpr ⟨reads_indentedChars depth j, reads_indentedMembers depth ms⟩

end

/-- **Reading an indented text.** -/
theorem parse_indented (j : Json) : parse j.indented = reread digitLimit j :=
  parse_of_reads (reads_indentedChars 0 j)

end Json

end LiveForm
