import Mathlib.Data.Finset.Basic
import Mathlib.Data.Fintype.Card
import Mathlib.Data.List.Perm.Subperm
import Mathlib.Data.List.Nodup

/-!
# Depth-first walks with a set of seen nodes

A walk over the nodes of a graph, each edge with a label. Where the walk comes to a node it has not
seen, it emits, goes through the children in order, and emits again; a node it has seen it leaves
at once. What is emitted depends on the node and on a place, which the labels move.
-/
namespace Appspine.SeenWalk

variable {κ ι α β : Type*}

section Paths

variable (children : κ → List (ι × κ))

/-- The labels of a way through the graph. -/
inductive Path (k : κ) : List ι → κ → Prop
  | nil : Path k [] k
  | snoc {u t : κ} {labels : List ι} {label : ι} (h : Path k labels u)
      (he : (label, t) ∈ children u) : Path k (labels ++ [label]) t

/-- There is a way from `k` to `t`. -/
def Reaches (k t : κ) : Prop := ∃ labels, Path children k labels t

variable {children}

lemma Reaches.refl (k : κ) : Reaches children k k := ⟨[], .nil⟩

lemma Reaches.step {k u t : κ} {label : ι} (h : Reaches children k u)
    (he : (label, t) ∈ children u) : Reaches children k t := by
  obtain ⟨labels, hpath⟩ := h
  exact ⟨_, hpath.snoc he⟩

lemma Reaches.head {k u t : κ} {label : ι} (he : (label, u) ∈ children k)
    (h : Reaches children u t) : Reaches children k t := by
  obtain ⟨labels, hpath⟩ := h
  induction hpath with
  | nil => exact (Reaches.refl k).step he
  | snoc _ hlast ih => exact ih.step hlast

/-- A set that has the start and every child of what it has is all that is within reach. -/
lemma Reaches.mem_of_closed {k t : κ} {s : Finset κ} (h : Reaches children k t) (hk : k ∈ s)
    (hclosed : ∀ u ∈ s, ∀ e ∈ children u, e.2 ∈ s) : t ∈ s := by
  obtain ⟨labels, hpath⟩ := h
  induction hpath with
  | nil => exact hk
  | snoc _ he ih => exact hclosed _ ih _ he

end Paths

section Walk

variable [DecidableEq κ]

structure State (κ β : Type*) where
  seen : Finset κ
  out : List β

/-- One call after another. -/
def walkAll (call : κ → α → State κ β → Option (State κ β)) (move : α → ι → α) (place : α) :
    List (ι × κ) → State κ β → Option (State κ β)
  | [], w => some w
  | e :: es, w => (call e.2 (move place e.1) w).bind (walkAll call move place es)

variable (children : κ → List (ι × κ)) (move : α → ι → α) (before after : κ → α → List β)

/-- The walk with at most `n` calls inside one another. -/
def walk : ℕ → κ → α → State κ β → Option (State κ β)
  | 0, _, _, _ => none
  | n + 1, k, place, w =>
    if k ∈ w.seen then some w
    else (walkAll (walk n) move place (children k) ⟨insert k w.seen, w.out ++ before k place⟩).map
      (fun w => ⟨w.seen, w.out ++ after k place⟩)

section Depth

variable {children move before after}

omit [DecidableEq κ] in
lemma walkAll_mono {call call' : κ → α → State κ β → Option (State κ β)}
    (h : ∀ k place w w', call k place w = some w' → call' k place w = some w') {place : α}
    {es : List (ι × κ)} {w w' : State κ β} (hw : walkAll call move place es w = some w') :
    walkAll call' move place es w = some w' := by
  induction es generalizing w with
  | nil => exact hw
  | cons e es ih =>
    obtain ⟨w₁, h₁, h₂⟩ := Option.bind_eq_some_iff.mp hw
    exact Option.bind_eq_some_iff.mpr ⟨w₁, h _ _ _ _ h₁, ih h₂⟩

lemma walk_mono {n m : ℕ} (hnm : n ≤ m) {k : κ} {place : α} {w w' : State κ β}
    (h : walk children move before after n k place w = some w') :
    walk children move before after m k place w = some w' := by
  induction n generalizing m k place w w' with
  | zero => cases h
  | succ n ih =>
    obtain ⟨m, rfl⟩ := Nat.exists_eq_add_of_le' hnm
    rw [← Nat.add_assoc, walk] at *
    split_ifs at h ⊢ with hseen
    · exact h
    · obtain ⟨w₁, h₁, h₂⟩ := Option.map_eq_some_iff.mp h
      refine Option.map_eq_some_iff.mpr ⟨w₁, walkAll_mono (fun k place w w' hw => ?_) h₁, h₂⟩
      exact ih (by omega) hw

omit [DecidableEq κ] in
lemma walkAll_returns {call : κ → α → State κ β → Option (State κ β)} {place : α}
    {s : Finset κ} (h : ∀ k place w, s ⊆ w.seen →
      ∃ w', call k place w = some w' ∧ w.seen ⊆ w'.seen) (es : List (ι × κ)) {w : State κ β}
    (hw : s ⊆ w.seen) :
    ∃ w', walkAll call move place es w = some w' ∧ w.seen ⊆ w'.seen := by
  induction es generalizing w with
  | nil => exact ⟨w, rfl, subset_rfl⟩
  | cons e es ih =>
    obtain ⟨w₁, h₁, hsub₁⟩ := h e.2 (move place e.1) w hw
    obtain ⟨w₂, h₂, hsub₂⟩ := ih (hw.trans hsub₁)
    exact ⟨w₂, Option.bind_eq_some_iff.mpr ⟨w₁, h₁, h₂⟩, hsub₁.trans hsub₂⟩

/-- More calls inside one another than there are nodes left are never needed. -/
lemma walk_returns [Fintype κ] {n : ℕ} {k : κ} {place : α} {w : State κ β}
    (hn : w.seenᶜ.card < n) :
    ∃ w', walk children move before after n k place w = some w' ∧ w.seen ⊆ w'.seen := by
  induction n generalizing k place w with
  | zero => omega
  | succ n ih =>
    rw [walk]
    split_ifs with hseen
    · exact ⟨w, rfl, subset_rfl⟩
    · have hfewer : (insert k w.seen)ᶜ.card < n := by
        have hlt : (insert k w.seen)ᶜ.card < w.seenᶜ.card := by
          refine Finset.card_lt_card ?_
          refine Finset.compl_ssubset_compl.mpr (Finset.ssubset_insert hseen)
        omega
      have hcall : ∀ k' place' w', insert k w.seen ⊆ w'.seen →
          ∃ w'', walk children move before after n k' place' w' = some w'' ∧ w'.seen ⊆ w''.seen := by
        intro k' place' w' hsub
        have hle := Finset.card_le_card (Finset.compl_subset_compl.mpr hsub)
        exact ih (by omega)
      obtain ⟨w', hw', hsub⟩ := walkAll_returns (w := ⟨insert k w.seen, w.out ++ before k place⟩)
        hcall (children k) subset_rfl
      exact ⟨_, Option.map_eq_some_iff.mpr ⟨w', hw', rfl⟩, (Finset.subset_insert k _).trans hsub⟩

end Depth

section Visits

variable (root : κ) (start : α)

/-- What the walk emits at a node it came to this way. -/
def emitted (visit : κ × List ι) : List β :=
  before visit.1 (visit.2.foldl move start) ++ after visit.1 (visit.2.foldl move start)

/-- Between the two states the walk made these visits, each to a new node. -/
structure Made (w w' : State κ β) (visits : List (κ × List ι)) : Prop where
  seen : ∀ t, t ∈ w'.seen ↔ t ∈ w.seen ∨ t ∈ visits.map Prod.fst
  fresh : ∀ t ∈ visits.map Prod.fst, t ∉ w.seen
  nodup : (visits.map Prod.fst).Nodup
  paths : ∀ v ∈ visits, Path children root v.2 v.1
  closed : ∀ v ∈ visits, ∀ e ∈ children v.1, e.2 ∈ w'.seen
  out : w'.out.Perm (w.out ++ visits.flatMap (emitted move before after start))

variable {children move before after root start} {w w' w'' : State κ β}
  {visits visits' : List (κ × List ι)}

omit [DecidableEq κ] in
lemma Made.refl (w : State κ β) : Made children move before after root start w w [] where
  seen := by simp
  fresh := by simp
  nodup := by simp
  paths := by simp
  closed := by simp
  out := by simp

omit [DecidableEq κ] in
lemma Made.trans (h : Made children move before after root start w w' visits)
    (h' : Made children move before after root start w' w'' visits') :
    Made children move before after root start w w'' (visits ++ visits') where
  seen := by
    intro t
    rw [h'.seen, h.seen, List.map_append, List.mem_append, or_assoc]
  fresh := by
    intro t ht hseen
    rw [List.map_append, List.mem_append] at ht
    rcases ht with ht | ht
    · exact h.fresh t ht hseen
    · exact h'.fresh t ht ((h.seen t).mpr (Or.inl hseen))
  nodup := by
    rw [List.map_append]
    refine List.nodup_append'.mpr ⟨h.nodup, h'.nodup, ?_⟩
    intro t ht ht'
    exact h'.fresh t ht' ((h.seen t).mpr (Or.inr ht))
  paths := by
    intro v hv
    rcases List.mem_append.mp hv with hv | hv
    · exact h.paths v hv
    · exact h'.paths v hv
  closed := by
    intro v hv e he
    rcases List.mem_append.mp hv with hv | hv
    · exact (h'.seen _).mpr (Or.inl (h.closed v hv e he))
    · exact h'.closed v hv e he
  out := by
    rw [List.flatMap_append, ← List.append_assoc]
    exact h'.out.trans (h.out.append_right _)

lemma made_walkAll {n : ℕ} {labels : List ι}
    (ih : ∀ {k : κ} {labels : List ι} {w w' : State κ β}, Path children root labels k →
      walk children move before after n k (labels.foldl move start) w = some w' →
      ∃ visits, Made children move before after root start w w' visits ∧ k ∈ w'.seen)
    {es : List (ι × κ)} (hes : ∀ e ∈ es, Path children root (labels ++ [e.1]) e.2)
    (h : walkAll (walk children move before after n) move (labels.foldl move start) es w = some w') :
    ∃ visits, Made children move before after root start w w' visits ∧
      ∀ e ∈ es, e.2 ∈ w'.seen := by
  induction es generalizing w with
  | nil =>
    obtain rfl := Option.some.inj h
    exact ⟨[], .refl w, by simp⟩
  | cons e es ihes =>
    obtain ⟨w₁, h₁, h₂⟩ := Option.bind_eq_some_iff.mp h
    have hplace : move (labels.foldl move start) e.1 = (labels ++ [e.1]).foldl move start := by
      simp
    rw [hplace] at h₁
    obtain ⟨visits, hmade, hmem⟩ := ih (hes e (by simp)) h₁
    obtain ⟨visits', hmade', hmem'⟩ := ihes (fun e' he' => hes e' (by simp [he'])) h₂
    refine ⟨visits ++ visits', hmade.trans hmade', ?_⟩
    exact List.forall_mem_cons.mpr ⟨(hmade'.seen _).mpr (Or.inl hmem), hmem'⟩

/-- A walk from a node makes a visit to each node that it adds to the seen ones. -/
lemma made_walk {n : ℕ} {k : κ} {labels : List ι} (hpath : Path children root labels k)
    (h : walk children move before after n k (labels.foldl move start) w = some w') :
    ∃ visits, Made children move before after root start w w' visits ∧ k ∈ w'.seen := by
  induction n generalizing k labels w w' with
  | zero => cases h
  | succ n ih =>
    rw [walk] at h
    split_ifs at h with hseen
    · obtain rfl := Option.some.inj h
      exact ⟨[], .refl w, hseen⟩
    · obtain ⟨w₁, h₁, rfl⟩ := Option.map_eq_some_iff.mp h
      obtain ⟨visits, hmade, hchildren⟩ :=
        made_walkAll ih (fun e he => hpath.snoc he) h₁
      have hk : k ∈ w₁.seen := (hmade.seen k).mpr (Or.inl (Finset.mem_insert_self _ _))
      refine ⟨(k, labels) :: visits, ?_, hk⟩
      constructor
      · intro t
        rw [hmade.seen]
        simp only [Finset.mem_insert, List.map_cons, List.mem_cons]
        tauto
      · intro t ht
        rcases List.mem_cons.mp ht with rfl | ht
        · exact hseen
        · exact fun hmem => hmade.fresh t ht (Finset.mem_insert_of_mem hmem)
      · refine List.nodup_cons.mpr ⟨fun hmem => ?_, hmade.nodup⟩
        exact hmade.fresh k hmem (Finset.mem_insert_self _ _)
      · exact List.forall_mem_cons.mpr ⟨hpath, hmade.paths⟩
      · exact List.forall_mem_cons.mpr ⟨hchildren, hmade.closed⟩
      · have hout := hmade.out
        simp only [List.append_assoc] at hout
        simp only [List.flatMap_cons, emitted, List.append_assoc]
        refine (hout.append_right (after k (labels.foldl move start))).trans ?_
        simp only [List.append_assoc]
        exact ((List.perm_append_comm).append_left _).append_left _

/-- A walk from the start comes to every node within reach, once, and emits there. -/
theorem walk_visits {n : ℕ} (h : walk children move before after n root start ⟨∅, []⟩ = some w) :
    (∀ t, t ∈ w.seen ↔ Reaches children root t) ∧
    ∃ visits : List (κ × List ι), (visits.map Prod.fst).Nodup ∧
      (∀ t, t ∈ visits.map Prod.fst ↔ Reaches children root t) ∧
      (∀ v ∈ visits, Path children root v.2 v.1) ∧
      w.out.Perm (visits.flatMap (emitted move before after start)) := by
  obtain ⟨visits, hmade, hroot⟩ := @made_walk _ _ _ _ _ _ _ _ _ _ start ⟨∅, []⟩ w n root [] .nil h
  have hseen : ∀ t, t ∈ w.seen ↔ t ∈ visits.map Prod.fst := by
    intro t
    rw [hmade.seen]
    simp
  have hreach : ∀ t, t ∈ w.seen ↔ Reaches children root t := by
    intro t
    constructor
    · intro ht
      obtain ⟨v, hv, rfl⟩ := List.mem_map.mp ((hseen t).mp ht)
      exact ⟨v.2, hmade.paths v hv⟩
    · intro ht
      refine ht.mem_of_closed hroot (fun u hu e he => ?_)
      obtain ⟨v, hv, rfl⟩ := List.mem_map.mp ((hseen u).mp hu)
      exact hmade.closed v hv e he
  refine ⟨hreach, visits, hmade.nodup, fun t => ?_, hmade.paths, ?_⟩
  · rw [← hseen, hreach]
  · simpa using hmade.out

/-- The walk emits nothing when it has nothing to emit at the nodes within reach. -/
theorem walk_out_eq_nil {n : ℕ}
    (h : walk children move before after n root start ⟨∅, []⟩ = some w) {p : κ → Prop}
    (hp : ∀ k place, before k place = [] ∧ after k place = [] ↔ p k) :
    w.out = [] ↔ ∀ t, Reaches children root t → p t := by
  obtain ⟨-, visits, -, hvisits, -, hout⟩ := walk_visits h
  rw [← List.length_eq_zero_iff, hout.length_eq, List.length_eq_zero_iff, List.flatMap_eq_nil_iff]
  constructor
  · intro hnil t ht
    obtain ⟨v, hv, rfl⟩ := List.mem_map.mp ((hvisits t).mpr ht)
    exact (hp v.1 _).mp (List.append_eq_nil_iff.mp (hnil v hv))
  · intro hall v hv
    refine List.append_eq_nil_iff.mpr ((hp v.1 _).mpr (hall v.1 ?_))
    exact (hvisits v.1).mp (List.mem_map_of_mem hv)

end Visits

end Walk

end Appspine.SeenWalk
