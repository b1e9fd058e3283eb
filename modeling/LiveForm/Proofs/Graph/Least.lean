import Mathlib.Data.List.Lex
import Mathlib.Data.List.Nodup
import LiveForm.Proofs.Graph.Acyclic

/-!
# The least order

At each place of the order of evaluation stands the first node, by declaration, of those that could
stand there. So no topological order comes before it when their places of declaration are compared
from the left.

* `Graph.IsTopological`: every key once, each before those that its edges lead to;
* `Graph.Follows`: nodes each of which is ready after those before it;
* `Graph.advance_atMost`: what is taken is at most any nodes that follow;
* **`Graph.exists_least_order`**: a graph without a cycle has an order of evaluation, which is the
  least of its topological orders.
-/

namespace LiveForm

namespace Graph

/-- The graph is built of a schema, be its references declared or not. -/
def Built (g : Graph) : Prop := ∃ s, g = ofSchema s ∨ strict s = .ok g

theorem Built.exists_eq {g : Graph} (hg : g.Built) : ∃ s, g = ofSchema s := by
  obtain ⟨s, rfl | hstrict⟩ := hg
  · exact ⟨s, rfl⟩
  · exact ⟨s, (strict_eq_ok hstrict).2⟩

/-- **A topological order**: every key once, each before the keys that its edges lead to. -/
structure IsTopological (g : Graph) (order : List String) : Prop where
  nodup : order.Nodup
  mem_iff : ∀ key, key ∈ order ↔ key ∈ g.keys
  before : ∀ i j, g.Edge i j → order.idxOf (g.key i) < order.idxOf (g.key j)

/-- Where keys stand in the order of declaration. -/
def places (g : Graph) (order : List String) : List ℕ := order.map g.keys.idxOf

/-- **Nodes that follow**: each is new and depends only on those before it. -/
def Follows (g : Graph) (done : List ℕ) : List ℕ → Prop
  | [] => True
  | i :: rest => g.Ready done i ∧ Follows g (done ++ [i]) rest

variable {g : Graph} {done rest : List ℕ}

/-! ## The nodes that are taken -/

theorem prefix_advance : ∀ (n : ℕ) (done : List ℕ), done <+: g.advance n done
  | 0, done => List.prefix_rfl
  | n + 1, done => by
    rw [advance]
    split
    · exact (List.prefix_append done _).trans (prefix_advance n _)
    · exact List.prefix_rfl

/-- One list of places comes first, or they are the same. -/
def AtMost (ms ns : List ℕ) : Prop := ms = ns ∨ List.Lex (· < ·) ms ns

/-- **What is taken is at most any nodes that follow**: where they first differ, the taken node is
the first of those that were ready. -/
theorem advance_atMost : ∀ (done rest : List ℕ), g.Follows done rest →
    AtMost (g.advance rest.length done) (done ++ rest)
  | done, [], _ => Or.inl (List.append_nil done).symm
  | done, j :: rest, h => by
    obtain ⟨i, hle, hi⟩ := exists_ready? h.1
    rw [List.length_cons, advance, hi]
    dsimp only
    rcases Nat.eq_or_lt_of_le hle with rfl | hlt
    · have hstep := advance_atMost (done ++ [i]) rest h.2
      rwa [List.append_assoc] at hstep
    · obtain ⟨more, hmore⟩ := prefix_advance (g := g) rest.length (done ++ [i])
      rw [← hmore, List.append_assoc]
      exact Or.inr (List.Lex.append_left _ (.rel hlt) done)

/-! ## Topological orders -/

section Places

variable {key : String} {i : ℕ}

theorem idxOf_lt_size (h : key ∈ g.keys) : g.keys.idxOf key < g.size :=
  List.idxOf_lt_length_iff.mpr h

theorem key_idxOf (h : key ∈ g.keys) : g.key (g.keys.idxOf key) = key := by
  rw [Graph.key, List.getD_eq_getElem?_getD, List.getElem?_eq_getElem (idxOf_lt_size h),
    Option.getD_some]
  exact List.getElem_idxOf (idxOf_lt_size h)

theorem idxOf_key (hg : g.keys.Nodup) (h : i < g.size) : g.keys.idxOf (g.key i) = i := by
  rw [Graph.key, List.getD_eq_getElem?_getD, List.getElem?_eq_getElem h, Option.getD_some]
  exact hg.idxOf_getElem i h

end Places

variable {s : Schema} {order : List String}

theorem lt_size_of_edge {i j : ℕ} (h : (ofSchema s).Edge i j) :
    i < (ofSchema s).size ∧ j < (ofSchema s).size := by
  obtain ⟨r, -, hi, hj⟩ := mem_next_ofSchema.mp h
  exact ⟨lt_size_of_node? hi, lt_size_of_node? hj⟩

theorem IsTopological.follows : ∀ pre post : List String,
    (ofSchema s).IsTopological (pre ++ post) →
      (ofSchema s).Follows ((ofSchema s).places pre) ((ofSchema s).places post)
  | _, [], _ => trivial
  | pre, key :: post, h => by
    have hkeys : ∀ k ∈ pre ++ key :: post, k ∈ (ofSchema s).keys :=
      fun k hk => (h.mem_iff k).mp hk
    have hkey := hkeys key (List.mem_append_right pre List.mem_cons_self)
    have hnew : key ∉ pre := fun hmem =>
      (List.nodup_append.mp h.nodup).2.2 key hmem key List.mem_cons_self rfl
    refine ⟨⟨idxOf_lt_size hkey, fun hmem => hnew ?_, fun j hj => ?_⟩, ?_⟩
    · obtain ⟨k, hk, heq⟩ := List.mem_map.mp hmem
      have hplace : (ofSchema s).keys.idxOf k = (ofSchema s).keys.idxOf key := heq
      rw [← key_idxOf hkey, ← hplace, key_idxOf (hkeys k (List.mem_append_left _ hk))]
      exact hk
    · -- What the key depends on stands before it, so it is among the keys so far.
      have hedge := (mem_previous_ofSchema (idxOf_lt_size hkey)).mp hj
      have hlt := (lt_size_of_edge hedge).1
      have hbefore := h.before j _ hedge
      rw [key_idxOf hkey, List.idxOf_append_of_notMem hnew, List.idxOf_cons_self,
        Nat.add_zero] at hbefore
      have hmem : (ofSchema s).key j ∈ pre := by
        by_contra hnot
        rw [List.idxOf_append_of_notMem hnot] at hbefore
        omega
      exact List.mem_map.mpr ⟨_, hmem, idxOf_key nodup_keys_ofSchema hlt⟩
    · have hrest := IsTopological.follows (pre ++ [key]) post (by rwa [List.append_assoc])
      rwa [places, List.map_append] at hrest

theorem isTopological_order (h : (ofSchema s).order = .ok order) :
    (ofSchema s).IsTopological order where
  nodup := (pairwise_order h).imp fun hab => hab.1
  mem_iff _ := (mem_order h).trans mem_keys_ofSchema.symm
  before i j hedge := by
    have hmem : ∀ k < (ofSchema s).size, (ofSchema s).key k ∈ order := fun k hk =>
      (mem_order h).mpr (mem_keys_ofSchema.mp (key_mem hk))
    have hfeeds := feeds_of_mem_next hedge
    have hi := List.idxOf_lt_length_iff.mpr (hmem i (lt_size_of_edge hedge).1)
    have hj := List.idxOf_lt_length_iff.mpr (hmem j (lt_size_of_edge hedge).2)
    by_contra hnot
    rcases Nat.lt_or_eq_of_le (Nat.le_of_not_lt hnot) with hlt | heq
    · have hback := (List.pairwise_iff_getElem.mp (pairwise_order h) _ _ hj hi hlt).2
      rw [List.getElem_idxOf, List.getElem_idxOf] at hback
      exact hback hfeeds
    · have hkey : (ofSchema s).key j = (ofSchema s).key i := by
        rw [← List.getElem_idxOf hj, ← List.getElem_idxOf hi]
        simp only [heq]
      rw [hkey] at hfeeds
      exact not_feeds_self h (hmem i (lt_size_of_edge hedge).1) hfeeds

/-- **Without a cycle there is an order of evaluation, and it is the least topological order** by
the places of declaration. -/
theorem exists_least_order (hg : g.Built) (hacyclic : ¬ g.HasCycle) :
    ∃ order, g.order = .ok order ∧ g.IsTopological order ∧
      ∀ other, g.IsTopological other → AtMost (g.places order) (g.places other) := by
  obtain ⟨s, rfl⟩ := hg.exists_eq
  obtain ⟨order, horder⟩ := exists_order_of_acyclic hacyclic
  refine ⟨order, horder, isTopological_order horder, fun other hother => ?_⟩
  obtain ⟨hlen, rfl⟩ := order_eq_ok_iff.mp horder
  have hplaces : (ofSchema s).places ((ofSchema s).sequence.map (ofSchema s).key) =
      (ofSchema s).sequence := by
    rw [places, List.map_map]
    exact (List.map_congr_left fun i hi =>
      idxOf_key nodup_keys_ofSchema (sorted_sequence.lt_size i hi)).trans (List.map_id _)
  have hperm : other.Perm (ofSchema s).keys :=
    (List.perm_ext_iff_of_nodup hother.nodup nodup_keys_ofSchema).mpr hother.mem_iff
  have hfollows : (ofSchema s).Follows [] ((ofSchema s).places other) :=
    IsTopological.follows [] other hother
  have hleast := advance_atMost [] _ hfollows
  rw [places, List.length_map, hperm.length_eq, ← places] at hleast
  rw [hplaces, sequence_ofSchema]
  exact hleast

/-- A form with a total, which is declared before the numbers that it adds up. -/
def billForm : Schema where
  id := "bill"
  version := 1
  title := "Bill"
  description := ""
  fields := [
    { key := "total", type := .number, label := "", default := .null, constraints := {},
      choices := [], visible := true, formula := some ⟨.sum, ["tip", "price"], none, none⟩ },
    { key := "price", type := .number, label := "", default := .null, constraints := {},
      choices := [], visible := true, formula := none },
    { key := "tip", type := .number, label := "", default := .null, constraints := {},
      choices := [], visible := true, formula := none }]
  rules := []
  layout := []

theorem not_hasCycle_billForm : ¬ (ofSchema billForm).HasCycle :=
  have hfinished : (ofSchema billForm).Finished [1, 2, 0] :=
    ⟨by decide, by decide, by decide, by decide, by decide, by decide, by decide, by decide,
      by decide, trivial⟩
  not_hasCycle_of_finished (bounded_ofSchema _) hfinished (by decide)

theorem bill_least_order : (ofSchema billForm).Built ∧ ¬ (ofSchema billForm).HasCycle ∧
    ∃ order, (ofSchema billForm).order = .ok order ∧ (ofSchema billForm).IsTopological order ∧
      ∀ other, (ofSchema billForm).IsTopological other →
        AtMost ((ofSchema billForm).places order) ((ofSchema billForm).places other) :=
  have hbuilt : (ofSchema billForm).Built := ⟨billForm, Or.inl rfl⟩
  ⟨hbuilt, not_hasCycle_billForm, exists_least_order hbuilt not_hasCycle_billForm⟩

end Graph

end LiveForm
