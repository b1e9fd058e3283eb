import LiveForm.Proofs.Json.Canonical

/-!
# Values that come back from their text

A value is legible when its text gives it back: it is storable, and none of its integers has more
digits than are read. Then both texts give it back, the canonical one and the indented one, up to
the order of entries.

* `Value.Legible`: the value comes back from its text;
* **`Value.Legible.canonical`, `Value.Legible.indented`**: so it does;
* `Value.Legible.rearranged`, `Value.Legible.lookup`: legible values rearranged, and their parts;
* `Value.legible_record`, `Value.legible_list`: documents and lists.
-/

namespace LiveForm

namespace Value

open Json

variable {a b v : Value}

/-- **The value comes back from its text**: it is storable, and no integer in it is too long. -/
structure Legible (v : Value) : Prop where
  storable : Storable v
  digits : v.longest ≤ digitLimit

/-! ## Texts -/

theorem Legible.canonicalJson_eq (h : Legible v) :
    canonicalJson v = .ok (tree true v).compact :=
  (LiveForm.canonicalJson_eq h.storable.isNative).trans (if_pos h.digits)

/-- **The canonical text of a legible value gives it back.** -/
theorem Legible.canonical (h : Legible v) :
    ∃ s w, canonicalJson v = .ok s ∧ ofJsonText s = .ok w ∧ Rearranged v w := by
  have hread := ofJsonText_compact h.storable
  rw [if_pos h.digits] at hread
  exact ⟨_, _, h.canonicalJson_eq, hread, (rearranged_toValue h.storable).symm⟩

/-- **So does the indented one.** -/
theorem Legible.indented (h : Legible v) :
    ∃ w, ofValue true v = .ok (tree true v) ∧ ofJsonText (tree true v).indented = .ok w ∧
      Rearranged v w := by
  refine ⟨_, (ofValue_eq true v h.storable.isNative).trans (if_pos h.digits), ?_,
    (rearranged_toValue h.storable).symm⟩
  rw [ofJsonText, parse_indented, reread_tree h.storable, if_pos h.digits]
  rfl

/-- **A storable value that has a text is legible.** -/
theorem legible_of_canonicalJson {s : String} (h : Storable v) (hs : canonicalJson v = .ok s) :
    Legible v := by
  refine ⟨h, ?_⟩
  rw [LiveForm.canonicalJson_eq h.isNative] at hs
  by_contra hlong
  rw [if_neg hlong] at hs
  cases hs

/-! ## Parts -/

theorem longest_le_of_rearranged (h : Rearranged a b) (ha : Storable a) {limit : ℕ}
    (hle : a.longest ≤ limit) : b.longest ≤ limit := by
  have hread := @reread_tree a limit ha
  rw [tree_eq_of_rearranged h ha, reread_tree (ha.rearranged h), if_pos hle] at hread
  by_contra hlong
  rw [if_neg hlong] at hread
  cases hread

theorem Legible.rearranged (ha : Legible a) (h : Rearranged a b) : Legible b :=
  ⟨ha.storable.rearranged h, longest_le_of_rearranged h ha.storable ha.digits⟩

theorem longest_lookup_le (v : Value) (key : String) : (v.lookup key).longest ≤ v.longest := by
  rw [Value.lookup]
  cases hfind : v.lookup? key with
  | none => exact Nat.zero_le _
  | some w =>
    cases v with
    | map es =>
      obtain ⟨k, hmem, -⟩ := exists_mem_of_find? hfind
      rw [longest]
      exact longestEntry_le.mp le_rfl _ hmem
    | _ => cases hfind

theorem canonicalJson_eq_of_rearranged (h : Rearranged a b) (ha : Legible a) :
    canonicalJson b = canonicalJson a := by
  rw [ha.canonicalJson_eq, (ha.rearranged h).canonicalJson_eq, tree_eq_of_rearranged h ha.storable]

theorem Legible.lookup (h : Legible v) (key : String) : Legible (v.lookup key) :=
  ⟨h.storable.lookup key, (longest_lookup_le v key).trans h.digits⟩

theorem legible_null : Legible null := ⟨.null, Nat.zero_le _⟩

theorem legible_text (s : String) : Legible (text s) := ⟨.text s, Nat.zero_le _⟩

theorem legible_list {items : List Value} : Legible (list items) ↔ ∀ v ∈ items, Legible v := by
  constructor
  · rintro ⟨hstorable, hlongest⟩ v hv
    rw [longest, longestItem_le] at hlongest
    exact ⟨storable_list.mp hstorable v hv, hlongest v hv⟩
  · intro h
    refine ⟨.list fun v hv => (h v hv).storable, ?_⟩
    rw [longest, longestItem_le]
    exact fun v hv => (h v hv).digits

theorem legible_texts (items : List String) : Legible (texts items) := by
  rw [texts, legible_list, List.forall_mem_map]
  exact fun s _ => legible_text s

theorem legible_record {members : List (String × Value)} (hkeys : (members.map Prod.fst).Nodup)
    (h : ∀ m ∈ members, Legible m.2) : Legible (record members) := by
  refine ⟨storable_record hkeys fun m hm => (h m hm).storable, ?_⟩
  rw [record, longest, longestEntry_le, fields, List.forall_mem_map]
  exact fun m hm => (h m hm).digits

end Value

end LiveForm
