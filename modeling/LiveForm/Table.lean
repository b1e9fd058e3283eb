/-!
# Tables

A table maps keys to values and lists its keys in the order in which they came.

* `Table.get?`, `Table.set`, `Table.erase`: reading, writing and removing.
* `Table.get?_set`, `Table.get?_erase`, `Table.get?_ofKeys`: what reading gives after the others.
* `Table.mem_keys`: the keys are those that have a value.
* `Table.set_of_get?`, `Table.erase_of_get?`: writing what is there, and erasing what is not.
-/

namespace LiveForm

/-- A list of entries that is read as a mapping: the first entry of a key counts. -/
structure Table (κ α : Type) where
  entries : List (κ × α) := []

namespace Table

variable {κ α : Type} [DecidableEq κ]

instance : Inhabited (Table κ α) := ⟨⟨[]⟩⟩

/-- The table without entries. -/
def empty : Table κ α := ⟨[]⟩

/-- The value of a key in a list of entries. -/
def find (key : κ) : List (κ × α) → Option α
  | [] => none
  | (k, v) :: es => if k = key then some v else find key es

/-- The entries with the value of a key replaced where it stands, or added at the end. -/
def put (key : κ) (value : α) : List (κ × α) → List (κ × α)
  | [] => [(key, value)]
  | (k, v) :: es => if k = key then (k, value) :: es else (k, v) :: put key value es

/-- The value of a key. -/
def get? (t : Table κ α) (key : κ) : Option α := find key t.entries

/-- The table with a value at a key. A new key comes last. -/
def set (t : Table κ α) (key : κ) (value : α) : Table κ α := ⟨put key value t.entries⟩

/-- The table without a key. -/
def erase (t : Table κ α) (key : κ) : Table κ α := ⟨t.entries.filter (·.1 ≠ key)⟩

/-- The keys in order. -/
def keys (t : Table κ α) : List κ := t.entries.map Prod.fst

def isEmpty (t : Table κ α) : Bool := t.entries.isEmpty

/-- The table that gives each listed key its value. -/
def ofKeys (keys : List κ) (value : κ → α) : Table κ α :=
  keys.foldl (fun t k => t.set k (value k)) empty

/-! ## Reading after writing -/

theorem find_put (key other : κ) (value : α) (es : List (κ × α)) :
    find other (put key value es) = if key = other then some value else find other es := by
  induction es with
  | nil => simp [put, find]
  | cons e es ih =>
    obtain ⟨k, v⟩ := e
    by_cases h : k = key
    · subst h
      by_cases ho : k = other <;> simp [put, find, ho]
    · by_cases ho : k = other
      · subst ho
        simp [put, find, h, Ne.symm h]
      · simp [put, find, h, ho, ih]

theorem get?_set (t : Table κ α) (key other : κ) (value : α) :
    (t.set key value).get? other = if key = other then some value else t.get? other :=
  find_put key other value t.entries

theorem find_filter (key other : κ) (es : List (κ × α)) :
    find other (es.filter (·.1 ≠ key)) = if key = other then none else find other es := by
  induction es with
  | nil => simp [find]
  | cons e es ih =>
    obtain ⟨k, v⟩ := e
    by_cases h : k = key
    · subst h
      simp only [ne_eq, not_true_eq_false, decide_false, Bool.false_eq_true, not_false_eq_true,
        List.filter_cons_of_neg, find]
      rw [ih]
      by_cases ho : k = other <;> simp [ho]
    · rw [List.filter_cons_of_pos (by simpa using h)]
      by_cases ho : k = other
      · subst ho
        simp [find, Ne.symm h]
      · simp only [find, ho, if_false, ih]

theorem get?_erase (t : Table κ α) (key other : κ) :
    (t.erase key).get? other = if key = other then none else t.get? other :=
  find_filter key other t.entries

@[simp] theorem get?_empty (key : κ) : (empty : Table κ α).get? key = none := rfl

theorem get?_foldl_set (value : κ → α) (keys : List κ) (t : Table κ α) (key : κ) :
    (keys.foldl (fun t k => t.set k (value k)) t).get? key =
      if key ∈ keys then some (value key) else t.get? key := by
  induction keys generalizing t with
  | nil => simp
  | cons k ks ih =>
    rw [List.foldl_cons, ih, get?_set]
    by_cases hk : k = key
    · subst hk; simp
    · simp [hk, Ne.symm hk]

theorem get?_ofKeys (keys : List κ) (value : κ → α) (key : κ) :
    (ofKeys keys value).get? key = if key ∈ keys then some (value key) else none := by
  rw [ofKeys, get?_foldl_set, get?_empty]

theorem exists_mem_of_find {key : κ} {value : α} (es : List (κ × α))
    (h : find key es = some value) : ∃ k, (k, value) ∈ es := by
  induction es with
  | nil => simp [find] at h
  | cons e es ih =>
    obtain ⟨k, v⟩ := e
    by_cases hk : k = key
    · have hv : v = value := by simpa [find, hk] using h
      exact ⟨k, by simp [hv]⟩
    · obtain ⟨k', hk'⟩ := ih (by simpa [find, hk] using h)
      exact ⟨k', List.mem_cons_of_mem _ hk'⟩

theorem exists_mem_of_get? (t : Table κ α) {key : κ} {value : α} (h : t.get? key = some value) :
    ∃ k, (k, value) ∈ t.entries :=
  exists_mem_of_find t.entries h

theorem find_isSome_iff {key : κ} (es : List (κ × α)) :
    (find key es).isSome = true ↔ key ∈ es.map Prod.fst := by
  induction es with
  | nil => simp [find]
  | cons e es ih =>
    obtain ⟨k, v⟩ := e
    by_cases hk : k = key
    · simp [find, hk]
    · simp [find, hk, Ne.symm hk, ih]

theorem mem_keys (t : Table κ α) {key : κ} : key ∈ t.keys ↔ (t.get? key).isSome = true :=
  (find_isSome_iff t.entries).symm

/-! ## Writing what is there -/

theorem put_of_find {key : κ} {value : α} (es : List (κ × α)) (h : find key es = some value) :
    put key value es = es := by
  induction es with
  | nil => simp [find] at h
  | cons e es ih =>
    obtain ⟨k, v⟩ := e
    by_cases hk : k = key
    · subst hk
      have hv : v = value := by simpa [find] using h
      simp [put, hv]
    · simp only [find, hk, if_false] at h
      simp [put, hk, ih h]

theorem set_of_get? {t : Table κ α} {key : κ} {value : α} (h : t.get? key = some value) :
    t.set key value = t := by
  rw [set, put_of_find t.entries h]

theorem find_eq_none {key : κ} (es : List (κ × α)) (h : find key es = none) :
    ∀ e ∈ es, e.1 ≠ key := by
  induction es with
  | nil => simp
  | cons e es ih =>
    obtain ⟨k, v⟩ := e
    by_cases hk : k = key
    · simp [find, hk] at h
    · simp only [find, hk, if_false] at h
      simp only [List.mem_cons, forall_eq_or_imp]
      exact ⟨hk, ih h⟩

theorem erase_of_get? {t : Table κ α} {key : κ} (h : t.get? key = none) : t.erase key = t := by
  rw [erase, List.filter_eq_self.mpr fun e he => by simpa using find_eq_none t.entries h e he]

end Table

end LiveForm
