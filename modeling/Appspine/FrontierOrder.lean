import Appspine.StableSort

/-!
# Layered topological ordering

Kahn's algorithm that emits, round by round, the sorted frontier of the nodes
whose predecessors have all been emitted. The rounds stop when nothing is left
or when the frontier is empty, and then what is left holds a cycle.
-/
namespace Appspine.FrontierOrder
open StableSort

variable {κ : Type*} [LinearOrder κ]

/-- Nodes with the predecessors each of them still waits for. -/
abbrev Waiting (κ : Type*) := List (κ × List κ)

def nodes (w : Waiting κ) : List κ := w.map Prod.fst

/-- The frontier, in order. -/
def ready (w : Waiting κ) : List κ := sorted (nodes (w.filter (fun e => e.2 = [])))

/-- Drop the emitted nodes, and stop waiting for them. -/
def release (emitted : List κ) (w : Waiting κ) : Waiting κ :=
  (w.filter (fun e => e.1 ∉ emitted)).map (fun e => (e.1, e.2.filter (· ∉ emitted)))

/-- The emitted order, and the sorted nodes left when the frontier is empty. -/
def drain : ℕ → Waiting κ → List κ → List κ × List κ
  | 0, w, order => (order, sorted (nodes w))
  | fuel + 1, w, order =>
    if w = [] then (order, [])
    else if ready w = [] then (order, sorted (nodes w))
    else drain fuel (release (ready w) w) (order ++ ready w)

/-- The order of a whole graph: one round for each node is enough. -/
def layered (g : Waiting κ) : List κ × List κ := drain (g.length + 1) g []

/-- `a` waits for `b`. -/
def Waits (g : Waiting κ) (a b : κ) : Prop := ∃ ds, (a, ds) ∈ g ∧ b ∈ ds

/-- Distinct nodes that wait for nodes of the graph only. -/
structure WellFormed (g : Waiting κ) : Prop where
  nodup : (nodes g).Nodup
  closed : ∀ a b, Waits g a b → b ∈ nodes g

theorem mem_ready {w : Waiting κ} {k : κ} : k ∈ ready w ↔ (k, []) ∈ w := by
  simp [ready, nodes]

theorem nodes_release (emitted : List κ) (w : Waiting κ) :
    nodes (release emitted w) = (nodes w).filter (· ∉ emitted) := by
  simp [nodes, release, List.filter_map, Function.comp_def]

theorem length_release_lt {w : Waiting κ} (h : ready w ≠ []) :
    (release (ready w) w).length < w.length := by
  obtain ⟨k, hk⟩ := List.exists_mem_of_ne_nil _ h
  have hlt : (w.filter (fun e => e.1 ∉ ready w)).length < w.length := by
    apply List.length_filter_lt_length_iff_exists.mpr
    exact ⟨(k, []), mem_ready.mp hk, by simpa using hk⟩
  simpa [release] using hlt

/-- What the rounds keep true of the emitted order and the nodes still waiting. -/
structure Progress (g w : Waiting κ) (order : List κ) : Prop where
  split : (order ++ nodes w).Perm (nodes g)
  pending : ∀ e ∈ w, ∃ ds, (e.1, ds) ∈ g ∧ e.2 = ds.filter (· ∉ order)
  ordered : ∀ k ds, (k, ds) ∈ g → k ∈ order → ∀ d ∈ ds, [d, k].Sublist order

theorem progress_start (g : Waiting κ) : Progress g g [] where
  split := by simp
  pending := by
    rintro ⟨k, ds⟩ he
    exact ⟨ds, he, by simp⟩
  ordered := by simp

theorem Progress.nodup {g w : Waiting κ} {order : List κ} (hp : Progress g w order)
    (hg : (nodes g).Nodup) : (order ++ nodes w).Nodup := hp.split.nodup_iff.mpr hg

omit [LinearOrder κ] in
/-- With distinct nodes, a node has one list of predecessors. -/
theorem waits_unique {g : Waiting κ} (hg : (nodes g).Nodup) {k : κ} {ds ds' : List κ}
    (h : (k, ds) ∈ g) (h' : (k, ds') ∈ g) : ds = ds' := by
  have := List.inj_on_of_nodup_map hg h h' rfl
  simpa using this

/-- The frontier and the nodes that are not on it are together all nodes. -/
theorem ready_append_release {w : Waiting κ} (hw : (nodes w).Nodup) :
    (ready w ++ nodes (release (ready w) w)).Perm (nodes w) := by
  have hsplit : nodes (release (ready w) w) = nodes (w.filter (fun e => ¬ e.2 = [])) := by
    rw [nodes_release]
    simp only [nodes, List.filter_map]
    congr 1
    apply List.filter_congr
    rintro ⟨k, ds⟩ he
    simp only [Function.comp_apply, mem_ready, decide_eq_decide]
    constructor
    · rintro hk rfl
      exact hk he
    · intro hds hk
      exact hds (waits_unique hw he hk)
  rw [hsplit]
  have hready : (ready w).Perm (nodes (w.filter (fun e => e.2 = []))) := sorted_perm _
  refine (hready.append_right _).trans ?_
  simp only [nodes, ← List.map_append]
  apply List.Perm.map
  simpa using List.filter_append_perm (fun e : κ × List κ => decide (e.2 = [])) w

/-- One round keeps the invariant. -/
theorem progress_round {g w : Waiting κ} {order : List κ} (hg : (nodes g).Nodup)
    (hp : Progress g w order) : Progress g (release (ready w) w) (order ++ ready w) where
  split := by
    have hw : (nodes w).Nodup := (List.nodup_append.mp (hp.nodup hg)).2.1
    rw [List.append_assoc]
    exact ((ready_append_release hw).append_left order).trans hp.split
  pending := by
    intro e he
    simp only [release, List.mem_map, List.mem_filter] at he
    obtain ⟨e', ⟨he', _⟩, rfl⟩ := he
    obtain ⟨ds, hds, heq⟩ := hp.pending e' he'
    refine ⟨ds, hds, ?_⟩
    rw [heq, List.filter_filter]
    apply List.filter_congr
    intro d _
    simp [Bool.and_comm]
  ordered := by
    intro k ds hk hmem d hd
    rcases List.mem_append.mp hmem with hold | hnew
    · exact (hp.ordered k ds hk hold d hd).trans (List.sublist_append_left _ _)
    · obtain ⟨ds', hds', hempty⟩ := hp.pending (k, []) (mem_ready.mp hnew)
      have hsame : ds' = ds := waits_unique hg hds' hk
      subst hsame
      have hdone : d ∈ order := by
        by_contra hnot
        have : d ∈ ds'.filter (· ∉ order) := by simp [hd, hnot]
        rw [← hempty] at this
        simp at this
      exact (List.singleton_sublist.mpr hdone).append (List.singleton_sublist.mpr hnew)

omit [LinearOrder κ] in
/-- A nonempty finite set in which every node waits for a node of the set has a cycle. -/
theorem exists_cycle {r : κ → κ → Prop} {s : List κ} (hs : s ≠ [])
    (h : ∀ a ∈ s, ∃ b ∈ s, r a b) : ∃ k, Relation.TransGen r k k := by
  by_contra hacyclic
  push Not at hacyclic
  have : Finite {a // a ∈ s} := s.finite_toSet
  let below : {a // a ∈ s} → {a // a ∈ s} → Prop := fun a b => Relation.TransGen r b.1 a.1
  have : IsTrans {a // a ∈ s} below := ⟨fun _ _ _ hab hbc => hbc.trans hab⟩
  have : Std.Irrefl below := ⟨fun a => hacyclic a.1⟩
  obtain ⟨a, ha⟩ := List.exists_mem_of_ne_nil s hs
  have hwf : WellFounded below := Finite.wellFounded_of_trans_of_irrefl below
  obtain ⟨m, _, hmin⟩ := hwf.has_min Set.univ ⟨⟨a, ha⟩, trivial⟩
  obtain ⟨b, hb, hr⟩ := h m.1 m.2
  exact hmin ⟨b, hb⟩ trivial (Relation.TransGen.single hr)

/-- The rounds end with a complete order, or with a cycle among what is left. -/
theorem drain_spec {g w : Waiting κ} {order : List κ} (hg : WellFormed g)
    (hp : Progress g w order) (fuel : ℕ) (hfuel : w.length < fuel) :
    ∃ w', Progress g w' (drain fuel w order).1 ∧
      (drain fuel w order).2 = sorted (nodes w') ∧
      (w' ≠ [] → ∃ k, Relation.TransGen (Waits g) k k) := by
  induction fuel generalizing w order with
  | zero => omega
  | succ fuel ih =>
    simp only [drain]
    split_ifs with hw hr
    · exact ⟨[], hw ▸ hp, rfl, fun h => absurd rfl h⟩
    · refine ⟨w, hp, rfl, fun _ => ?_⟩
      -- every waiting node still waits for a waiting node
      have hne : nodes w ≠ [] := by simpa [nodes] using hw
      refine exists_cycle hne fun a ha => ?_
      obtain ⟨e, he, rfl⟩ := List.mem_map.mp ha
      obtain ⟨ds, hds, heq⟩ := hp.pending e he
      have hwaits : e.2 ≠ [] := by
        intro hnil
        have : e.1 ∈ ready w := mem_ready.mpr (by rw [← hnil]; exact he)
        rw [hr] at this
        simp at this
      obtain ⟨d, hd⟩ := List.exists_mem_of_ne_nil _ hwaits
      rw [heq, List.mem_filter, decide_eq_true_eq] at hd
      have hmem : d ∈ order ++ nodes w := hp.split.mem_iff.mpr (hg.closed e.1 d ⟨ds, hds, hd.1⟩)
      exact ⟨d, (List.mem_append.mp hmem).resolve_left hd.2, ds, hds, hd.1⟩
    · have hlt := length_release_lt hr
      exact ih (progress_round hg.nodup hp) (by omega)

/-- A node emitted before another one occurs at a smaller index. -/
theorem idxOf_lt_of_sublist {κ : Type*} [BEq κ] [LawfulBEq κ] {order : List κ}
    (hn : order.Nodup) {a b : κ} (h : [a, b].Sublist order) : order.idxOf a < order.idxOf b := by
  induction order with
  | nil => simp at h
  | cons c order ih =>
    rw [List.nodup_cons] at hn
    cases h with
    | cons _ h =>
      have ha : a ∈ order := h.subset (by simp)
      have hb : b ∈ order := h.subset (by simp)
      have hca : c ≠ a := fun he => hn.1 (he ▸ ha)
      have hcb : c ≠ b := fun he => hn.1 (he ▸ hb)
      rw [List.idxOf_cons_ne _ hca, List.idxOf_cons_ne _ hcb]
      exact Nat.succ_lt_succ (ih hn.2 h)
    | cons_cons _ h =>
      have hb : b ∈ order := List.singleton_sublist.mp h
      have hab : a ≠ b := fun he => hn.1 (he ▸ hb)
      rw [List.idxOf_cons_self, List.idxOf_cons_ne _ hab]
      omega

section Layered

variable {g : Waiting κ} (hg : WellFormed g)
include hg

theorem layered_progress : ∃ w, Progress g w (layered g).1 ∧
    (layered g).2 = sorted (nodes w) ∧
    (w ≠ [] → ∃ k, Relation.TransGen (Waits g) k k) :=
  drain_spec hg (progress_start g) _ (Nat.lt_succ_self _)

theorem layered_nodup : (layered g).1.Nodup := by
  obtain ⟨w, hp, _, _⟩ := layered_progress hg
  exact (List.nodup_append.mp (hp.nodup hg.nodup)).1

/-- Every node is emitted or left over. -/
theorem layered_split : ((layered g).1 ++ (layered g).2).Perm (nodes g) := by
  obtain ⟨w, hp, hstuck, _⟩ := layered_progress hg
  rw [hstuck]
  exact ((sorted_perm _).append_left _).trans hp.split

/-- A node is emitted strictly after everything it waits for. -/
theorem layered_ordered {a b : κ} (h : Waits g a b) (ha : a ∈ (layered g).1) :
    [b, a].Sublist (layered g).1 := by
  obtain ⟨w, hp, _, _⟩ := layered_progress hg
  obtain ⟨ds, hds, hb⟩ := h
  exact hp.ordered a ds hds ha b hb

/-- When nothing is left over, the order is a permutation of the nodes. -/
theorem layered_complete (h : (layered g).2 = []) : (layered g).1.Perm (nodes g) := by
  have := layered_split hg
  rwa [h, List.append_nil] at this

/-- Nodes are left over exactly when the graph has a cycle. -/
theorem layered_stuck_iff :
    (layered g).2 ≠ [] ↔ ∃ k, Relation.TransGen (Waits g) k k := by
  constructor
  · obtain ⟨w, _, hstuck, hcycle⟩ := layered_progress hg
    intro hne
    apply hcycle
    rintro rfl
    exact hne (by rw [hstuck]; rfl)
  · rintro ⟨k, hk⟩ hnil
    have hall : ∀ a, a ∈ nodes g → a ∈ (layered g).1 := fun a ha =>
      (layered_complete hg hnil).mem_iff.mpr ha
    have hlt : ∀ a b, Relation.TransGen (Waits g) a b →
        (layered g).1.idxOf b < (layered g).1.idxOf a := by
      have hone : ∀ a b, Waits g a b → (layered g).1.idxOf b < (layered g).1.idxOf a := by
        intro a b hab
        have ha : a ∈ nodes g := by
          obtain ⟨ds, hds, _⟩ := hab
          exact List.mem_map.mpr ⟨(a, ds), hds, rfl⟩
        exact idxOf_lt_of_sublist (layered_nodup hg) (layered_ordered hg hab (hall a ha))
      intro a b hab
      induction hab with
      | single h => exact hone _ _ h
      | tail _ h ih => exact (hone _ _ h).trans ih
    exact lt_irrefl _ (hlt k k hk)

end Layered

theorem ready_perm {w w' : Waiting κ} (h : w.Perm w') : ready w = ready w' :=
  sorted_eq_of_perm ((h.filter _).map _)

theorem sorted_nodes_perm {w w' : Waiting κ} (h : w.Perm w') :
    sorted (nodes w) = sorted (nodes w') := sorted_eq_of_perm (h.map _)

theorem drain_perm {w w' : Waiting κ} (h : w.Perm w') (fuel : ℕ) (order : List κ) :
    drain fuel w order = drain fuel w' order := by
  induction fuel generalizing w w' order with
  | zero => simp only [drain, sorted_nodes_perm h]
  | succ fuel ih =>
    have hnil : w = [] ↔ w' = [] := by
      constructor <;> rintro rfl
      · exact h.symm.eq_nil
      · exact h.eq_nil
    have hrest : (release (ready w) w).Perm (release (ready w) w') := (h.filter _).map _
    simp only [drain, hnil, ← ready_perm h, sorted_nodes_perm h]
    rw [ih hrest]

/-- The order does not depend on the order in which the nodes are listed. -/
theorem layered_perm {g g' : Waiting κ} (h : g.Perm g') : layered g = layered g' := by
  unfold layered
  rw [h.length_eq, drain_perm h]

end Appspine.FrontierOrder
