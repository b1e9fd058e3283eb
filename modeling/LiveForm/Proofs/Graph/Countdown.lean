import Mathlib.Data.List.Nodup
import LiveForm.Graph.Order
import LiveForm.Proofs.Graph.Reach

/-!
# Counting down

A node is ready when all that it depends on has been taken. Counters say so without looking back:
each holds how many nodes are left that its node waits for, and when a node is taken, those that
depend on it count one down.

* `Graph.ready?`, `Graph.advance`: the first node that is ready, and nodes taken by looking back;
* `Graph.Countdown.Counts`: the counters and the queue fit the nodes that were taken;
* `Graph.Countdown.Counts.take`: they still do after the next node;
* **`Graph.sequence_ofSchema`**: counting down takes the same nodes as looking back.
-/

namespace LiveForm

namespace Graph

/-- The first node that is not done and depends only on nodes that are. -/
def ready? (g : Graph) (done : List ℕ) : Option ℕ :=
  (List.range g.size).find? fun i => !done.contains i && (g.previous i).all done.contains

/-- Takes up to `n` more nodes, each the first that is ready. -/
def advance (g : Graph) : (n : ℕ) → (done : List ℕ) → List ℕ
  | 0, done => done
  | n + 1, done =>
    match g.ready? done with
    | some i => advance g n (done ++ [i])
    | none => done

/-- The node may come after those that are done. -/
def Ready (g : Graph) (done : List ℕ) (i : ℕ) : Prop :=
  i < g.size ∧ i ∉ done ∧ ∀ j ∈ g.previous i, j ∈ done

variable {g : Graph} {done taken : List ℕ} {i k : ℕ}

theorem ready_iff : g.Ready done i ↔ i < g.size ∧
    (!done.contains i && (g.previous i).all done.contains) = true := by
  rw [Ready, Bool.and_eq_true, Bool.not_eq_true', Bool.eq_false_iff, ne_eq, List.contains_iff_mem,
    List.all_eq_true]
  simp only [List.contains_iff_mem]

theorem ready?_eq_some (h : g.ready? done = some i) : g.Ready done i := by
  have hready := List.find?_some h
  exact ready_iff.mpr ⟨List.mem_range.mp (List.mem_of_find?_eq_some h), hready⟩

theorem not_ready_of_ready? (h : g.ready? done = none) : ¬ g.Ready done i := fun hi =>
  List.find?_eq_none.mp h i (List.mem_range.mpr hi.1) (ready_iff.mp hi).2

theorem le_of_ready? (h : g.ready? done = some i) (hk : g.Ready done k) : i ≤ k := by
  obtain ⟨-, -, hfirst⟩ := List.find?_range_eq_some.mp h
  by_contra hlt
  have hunready := hfirst k (Nat.lt_of_not_le hlt)
  rw [(ready_iff.mp hk).2] at hunready
  cases hunready

theorem exists_ready? (h : g.Ready done k) : ∃ i ≤ k, g.ready? done = some i := by
  cases hi : g.ready? done with
  | none => exact absurd h (not_ready_of_ready? hi)
  | some i => exact ⟨i, le_of_ready? hi h, rfl⟩

namespace Countdown

/-! ## The queue -/

theorem mem_push {js : List ℕ} : k ∈ push i js ↔ k = i ∨ k ∈ js := by
  induction js with
  | nil => rw [push, List.mem_singleton, or_iff_left List.not_mem_nil]
  | cons j js ih =>
    rw [push]
    split
    · exact List.mem_cons
    · rw [List.mem_cons, ih, List.mem_cons, or_left_comm]

theorem pairwise_push {js : List ℕ} (h : js.Pairwise (· < ·)) (hi : i ∉ js) :
    (push i js).Pairwise (· < ·) := by
  induction js with
  | nil => exact List.pairwise_singleton _ i
  | cons j js ih =>
    obtain ⟨hj, hjs⟩ := List.pairwise_cons.mp h
    obtain ⟨hne, hi⟩ := List.ne_and_not_mem_of_not_mem_cons hi
    rw [push]
    split
    · next hle =>
      have hlt := Nat.lt_of_le_of_ne hle hne
      exact List.pairwise_cons.mpr
        ⟨List.forall_mem_cons.mpr ⟨hlt, fun k hk => Nat.lt_trans hlt (hj k hk)⟩, h⟩
    · next hle =>
      refine List.pairwise_cons.mpr ⟨fun k hk => ?_, ih hjs hi⟩
      rcases mem_push.mp hk with rfl | hk
      · exact Nat.lt_of_not_le hle
      · exact hj k hk

/-! ## Nodes that count down -/

variable {c : Countdown} {is : List ℕ}

theorem waiting_release_ne (hne : i ≠ k) :
    (c.release i).waiting.getD k 0 = c.waiting.getD k 0 := by
  rw [release, List.getD_eq_getElem?_getD, List.getElem?_set_ne hne, ← List.getD_eq_getElem?_getD]

theorem mem_ready_release :
    k ∈ (c.release i).ready ↔ k ∈ c.ready ∨ k = i ∧ c.waiting.getD k 0 = 1 := by
  rw [release]
  dsimp only
  split
  · next hleft =>
    rw [mem_push, or_comm]
    refine or_congr_right ⟨?_, And.left⟩
    rintro rfl
    exact ⟨rfl, by omega⟩
  · next hleft =>
    refine (or_iff_left ?_).symm
    rintro ⟨rfl, hone⟩
    omega

theorem length_waiting_foldl : (is.foldl release c).waiting.length = c.waiting.length := by
  induction is generalizing c with
  | nil => rfl
  | cons i is ih => rw [List.foldl_cons, ih, release, List.length_set]

theorem waiting_foldl (his : is.Nodup) (hk : k < c.waiting.length) :
    (is.foldl release c).waiting.getD k 0 =
      c.waiting.getD k 0 - if k ∈ is then 1 else 0 := by
  induction is generalizing c with
  | nil => rw [if_neg List.not_mem_nil, Int.sub_zero, List.foldl_nil]
  | cons i is ih =>
    obtain ⟨hi, his⟩ := List.nodup_cons.mp his
    rw [List.foldl_cons, ih his (by rwa [release, List.length_set])]
    by_cases hik : i = k
    · subst hik
      rw [if_neg hi, if_pos List.mem_cons_self, Int.sub_zero, release,
        List.getD_eq_getElem?_getD, List.getElem?_set_self hk, Option.getD_some]
    · rw [waiting_release_ne hik]
      simp only [List.mem_cons, Ne.symm hik, false_or]

/-- Those that waited for one node only get ready. -/
theorem mem_ready_foldl (his : is.Nodup) : k ∈ (is.foldl release c).ready ↔
    k ∈ c.ready ∨ k ∈ is ∧ c.waiting.getD k 0 = 1 := by
  induction is generalizing c with
  | nil => exact (or_iff_left fun h => absurd h.1 List.not_mem_nil).symm
  | cons i is ih =>
    obtain ⟨hi, his⟩ := List.nodup_cons.mp his
    rw [List.foldl_cons, ih his, mem_ready_release, List.mem_cons, or_assoc]
    by_cases hik : i = k
    · subst hik
      simp only [hi, false_and, or_false, true_and]
    · rw [waiting_release_ne hik]
      simp only [Ne.symm hik, false_and, false_or]

theorem pairwise_ready_foldl (his : is.Nodup) (h : c.ready.Pairwise (· < ·))
    (hnew : ∀ k ∈ is, k ∉ c.ready) : (is.foldl release c).ready.Pairwise (· < ·) := by
  induction is generalizing c with
  | nil => exact h
  | cons i is ih =>
    obtain ⟨hi, his⟩ := List.nodup_cons.mp his
    obtain ⟨hinew, hnew⟩ := List.forall_mem_cons.mp hnew
    refine ih his ?_ fun k hk hmem => ?_
    · rw [release]
      dsimp only
      split
      · exact pairwise_push h hinew
      · exact h
    · rcases mem_ready_release.mp hmem with hmem | ⟨rfl, -⟩
      · exact hnew k hk hmem
      · exact hi hk

/-! ## What is counted -/

/-- The nodes that a node still waits for. -/
def left (g : Graph) (taken : List ℕ) (i : ℕ) : List ℕ := (g.previous i).filter (· ∉ taken)

/-- **The counters fit the nodes that were taken**: each holds how many nodes are left that its
node waits for, and the queue holds those that are ready. -/
structure Counts (g : Graph) (c : Countdown) (taken : List ℕ) : Prop where
  waiting_length : c.waiting.length = g.size
  waiting_eq : ∀ i < g.size, c.waiting.getD i 0 = (left g taken i).length
  queue_pairwise : c.ready.Pairwise (· < ·)
  mem_queue : ∀ i, i ∈ c.ready ↔ g.Ready taken i
  taken_ready : ∀ i ∈ taken, ∀ j ∈ g.previous i, j ∈ taken

theorem Counts.head?_ready (h : Counts g c taken) : c.ready.head? = g.ready? taken := by
  cases hqueue : c.ready with
  | nil =>
    cases hready : g.ready? taken with
    | none => rfl
    | some i =>
      have hmem := (h.mem_queue i).mpr (ready?_eq_some hready)
      rw [hqueue] at hmem
      exact absurd hmem List.not_mem_nil
  | cons i rest =>
    have hi : g.Ready taken i := (h.mem_queue i).mp (hqueue ▸ List.mem_cons_self)
    obtain ⟨j, hle, hj⟩ := exists_ready? hi
    have hmem := (h.mem_queue j).mpr (ready?_eq_some hj)
    have hsorted := h.queue_pairwise
    rw [hqueue] at hmem hsorted
    rcases List.mem_cons.mp hmem with rfl | hmem
    · exact hj.symm
    · exact absurd ((List.pairwise_cons.mp hsorted).1 j hmem) (Nat.not_lt.mpr hle)

variable {s : Schema}

theorem nodup_left (hk : k < (ofSchema s).size) : (left (ofSchema s) taken k).Nodup := by
  rw [left, previous_ofSchema hk]
  exact (List.nodup_range.filter _).filter _

theorem left_append (hk : k < (ofSchema s).size) :
    left (ofSchema s) (taken ++ [i]) k = (left (ofSchema s) taken k).erase i := by
  rw [(nodup_left hk).erase_eq_filter, left, left, List.filter_filter]
  refine List.filter_congr fun j _ => ?_
  simp [Bool.and_comm, bne, Bool.beq_eq_decide_eq]

/-- A node that waits for one node only gets ready with it. -/
theorem ready_append_iff (hi : (ofSchema s).Ready taken i)
    (htaken : ∀ k ∈ taken, ∀ j ∈ (ofSchema s).previous k, j ∈ taken) :
    (ofSchema s).Ready (taken ++ [i]) k ↔ (k ≠ i ∧ (ofSchema s).Ready taken k) ∨
      k ∈ (ofSchema s).next i ∧ (left (ofSchema s) taken k).length = 1 := by
  by_cases hedge : k ∈ (ofSchema s).next i
  · have hk := lt_size_of_mem_next hedge
    have hprevious := (mem_previous_ofSchema hk).mpr hedge
    have hleft : i ∈ left (ofSchema s) taken k :=
      List.mem_filter.mpr ⟨hprevious, decide_eq_true hi.2.1⟩
    have hnew : k ∉ taken ++ [i] := by
      rw [List.mem_append, List.mem_singleton]
      rintro (hmem | rfl)
      · exact hi.2.1 (htaken k hmem i hprevious)
      · exact hi.2.1 (hi.2.2 k hprevious)
    have hall : (∀ j ∈ (ofSchema s).previous k, j ∈ taken ++ [i]) ↔
        left (ofSchema s) (taken ++ [i]) k = [] := by
      rw [left, List.filter_eq_nil_iff]
      simp only [decide_eq_true_eq, not_not]
    rw [Ready, hall, left_append hk, ← List.length_eq_zero_iff, List.length_erase_of_mem hleft]
    have hpos := List.length_pos_of_mem hleft
    have hunready : ¬ (ofSchema s).Ready taken k := fun h => hi.2.1 (h.2.2 i hprevious)
    simp only [hk, hnew, hedge, hunready, not_false_eq_true, true_and, and_false, false_or]
    omega
  · have hprevious : k < (ofSchema s).size → i ∉ (ofSchema s).previous k := fun hk hmem =>
      hedge ((mem_previous_ofSchema hk).mp hmem)
    rw [or_iff_left fun h => hedge h.1]
    constructor
    · rintro ⟨hk, hnew, hall⟩
      refine ⟨fun he => hnew (List.mem_append_right _ (List.mem_singleton.mpr he)), hk,
        fun hmem => hnew (List.mem_append_left _ hmem), fun j hj => ?_⟩
      refine (List.mem_append.mp (hall j hj)).resolve_right fun hji => hprevious hk ?_
      exact List.mem_singleton.mp hji ▸ hj
    · rintro ⟨hne, hk, hnew, hall⟩
      refine ⟨hk, fun hmem => ?_, fun j hj => List.mem_append_left _ (hall j hj)⟩
      rcases List.mem_append.mp hmem with hmem | hmem
      · exact hnew hmem
      · exact hne (List.mem_singleton.mp hmem)

/-- **The counters still fit when the next node is taken** and those that depend on it count one
down. -/
theorem Counts.take {rest : List ℕ} (h : Counts (ofSchema s) c taken) (hc : c.ready = i :: rest) :
    Counts (ofSchema s) (((ofSchema s).next i).foldl release { c with ready := rest })
      (taken ++ [i]) := by
  have hi : (ofSchema s).Ready taken i := (h.mem_queue i).mp (hc ▸ List.mem_cons_self)
  have hnodup := nodup_next_ofSchema (s := s) i
  obtain ⟨hfirst, hrest⟩ := List.pairwise_cons.mp (hc ▸ h.queue_pairwise)
  have hmem : ∀ k, k ∈ rest ↔ k ≠ i ∧ (ofSchema s).Ready taken k := by
    intro k
    rw [← h.mem_queue, hc, List.mem_cons]
    constructor
    · exact fun hk => ⟨Nat.ne_of_gt (hfirst k hk), Or.inr hk⟩
    · rintro ⟨hne, hk⟩
      exact hk.resolve_left hne
  have hunready : ∀ k ∈ (ofSchema s).next i, ¬ (ofSchema s).Ready taken k := fun k hk hready =>
    hi.2.1 (hready.2.2 i ((mem_previous_ofSchema hready.1).mpr hk))
  refine ⟨length_waiting_foldl.trans h.waiting_length, fun k hk => ?_,
    pairwise_ready_foldl hnodup hrest fun k hk hkrest => hunready k hk ((hmem k).mp hkrest).2,
    fun k => ?_, fun k hk j hj => ?_⟩
  · rw [waiting_foldl hnodup (by rwa [h.waiting_length]), left_append hk, h.waiting_eq k hk]
    split_ifs with hedge
    · have hleft : i ∈ left (ofSchema s) taken k :=
        List.mem_filter.mpr ⟨(mem_previous_ofSchema hk).mpr hedge, decide_eq_true hi.2.1⟩
      rw [List.length_erase_of_mem hleft]
      have := List.length_pos_of_mem hleft
      omega
    · rw [Int.sub_zero, List.erase_of_not_mem]
      exact fun hleft =>
        hedge ((mem_previous_ofSchema hk).mp (List.mem_filter.mp hleft).1)
  · rw [mem_ready_foldl hnodup, ready_append_iff hi h.taken_ready]
    refine or_congr (hmem k) (and_congr_right fun hedge => ?_)
    rw [h.waiting_eq k (lt_size_of_mem_next hedge)]
    omega
  · rcases List.mem_append.mp hk with hk | hk
    · exact List.mem_append_left _ (h.taken_ready k hk j hj)
    · exact List.mem_append_left _ (hi.2.2 j (List.mem_singleton.mp hk ▸ hj))

theorem counts_start (s : Schema) : Counts (ofSchema s) (start (ofSchema s)) [] := by
  have hwaiting : ∀ i, (start (ofSchema s)).waiting.getD i 0 =
      (left (ofSchema s) [] i).length := by
    intro i
    have hall : left (ofSchema s) [] i = (ofSchema s).previous i :=
      List.filter_eq_self.mpr fun _ _ => rfl
    rw [hall, start, previous, List.getD_eq_getElem?_getD, List.getD_eq_getElem?_getD,
      List.getElem?_map]
    cases (ofSchema s).predecessors[i]? <;> rfl
  have hlength : (start (ofSchema s)).waiting.length = (ofSchema s).size := by
    rw [start, List.length_map, length_predecessors_ofSchema]
  refine ⟨hlength, fun i _ => hwaiting i, List.pairwise_lt_range.filter _, fun i => ?_,
    fun i hi => absurd hi List.not_mem_nil⟩
  have hqueue : i ∈ (start (ofSchema s)).ready ↔
      i < (start (ofSchema s)).waiting.length ∧ (start (ofSchema s)).waiting.getD i 0 = 0 := by
    rw [start, List.mem_filter, List.mem_range, decide_eq_true_eq]
  rw [hqueue, hlength, hwaiting, Int.natCast_eq_zero, List.length_eq_zero_iff, left,
    List.filter_eq_nil_iff, Ready]
  simp

/-- **Counting down takes the nodes that looking back takes**, from wherever the counters fit. -/
theorem run_eq_advance (n : ℕ) (h : Counts (ofSchema s) c taken)
    (hn : (ofSchema s).size ≤ taken.length + n) (hnodup : taken.Nodup)
    (hlt : ∀ i ∈ taken, i < (ofSchema s).size) :
    c.run (ofSchema s) taken = (ofSchema s).advance n taken := by
  induction n generalizing c taken with
  | zero =>
    rw [run, advance]
    split
    · rfl
    · next i rest hqueue =>
      have hi : (ofSchema s).Ready taken i := (h.mem_queue i).mp (hqueue ▸ List.mem_cons_self)
      exact absurd (mem_of_length_eq_size hnodup hlt hn hi.1) hi.2.1
  | succ n ih =>
    rw [run, advance, ← h.head?_ready]
    split
    · next hqueue => rw [hqueue]; rfl
    · next i rest hqueue =>
      have hi : (ofSchema s).Ready taken i := (h.mem_queue i).mp (hqueue ▸ List.mem_cons_self)
      rw [hqueue]
      refine ih (h.take hqueue) ?_ ?_ ?_
      · rw [List.length_append, List.length_singleton]
        omega
      · rw [List.nodup_append]
        exact ⟨hnodup, List.nodup_singleton i, fun a ha b hb hab =>
          hi.2.1 (List.mem_singleton.mp hb ▸ hab ▸ ha)⟩
      · rw [List.forall_mem_append]
        exact ⟨hlt, fun j hj => List.mem_singleton.mp hj ▸ hi.1⟩

end Countdown

/-- **Counting down takes the same nodes as looking back.** -/
theorem sequence_ofSchema (s : Schema) :
    (ofSchema s).sequence = (ofSchema s).advance (ofSchema s).size [] :=
  Countdown.run_eq_advance _ (Countdown.counts_start s) (Nat.le_add_left _ _) List.nodup_nil
    fun _ h => absurd h List.not_mem_nil

end Graph

end LiveForm
