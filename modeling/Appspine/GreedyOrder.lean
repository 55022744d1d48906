import Appspine.QueueOrder
import Appspine.FrontierOrder

/-!
# Greedy topological orders

An order that takes, at each place, the least of the items that are ready there. There is at most
one such order, and on items of distinct ids the queue gives it.
-/
namespace Appspine.QueueOrder
open InsertionMap

section Greedy

variable {α : Type*} (items : List α) (precedes le : α → α → Prop)

/-- Everything that has to come first is done. -/
def Ready (done : List α) (x : α) : Prop := ∀ y ∈ items, precedes y x → y ∈ done

/-- Each item is ready where it stands, and the least of those that are. -/
def Greedy (order : List α) : Prop :=
  ∀ done x rest, order = done ++ x :: rest →
    Ready items precedes done x ∧
      ∀ y ∈ items, y ∉ done → Ready items precedes done y → le x y

variable {items precedes le}

lemma greedy_nil : Greedy items precedes le [] := by
  intro done x rest h
  cases done <;> cases h

lemma Greedy.snoc {order : List α} {x : α} (h : Greedy items precedes le order)
    (hready : Ready items precedes order x)
    (hleast : ∀ y ∈ items, y ∉ order → Ready items precedes order y → le x y) :
    Greedy items precedes le (order ++ [x]) := by
  intro done y rest heq
  rcases List.eq_nil_or_concat rest with rfl | ⟨rest, z, rfl⟩
  · obtain ⟨rfl, hsame⟩ := List.append_inj' heq rfl
    obtain rfl : x = y := by simpa using hsame
    exact ⟨hready, hleast⟩
  · have hcons : done ++ y :: (rest.concat z) = (done ++ y :: rest) ++ [z] := by simp
    rw [hcons] at heq
    exact h done y rest (List.append_inj' heq rfl).1

lemma greedy_tail_unique (hanti : ∀ x ∈ items, ∀ y ∈ items, le x y → le y x → x = y)
    {order order' : List α} (h : Greedy items precedes le order)
    (h' : Greedy items precedes le order') (done rest rest' : List α)
    (hrest : order = done ++ rest) (hrest' : order' = done ++ rest') (hperm : rest.Perm rest')
    (hsub : rest ⊆ items) (hdone : ∀ x ∈ rest, x ∉ done) (hnodup : rest.Nodup) : rest = rest' := by
  induction rest generalizing done rest' with
  | nil => exact hperm.symm.eq_nil.symm
  | cons x rest ih =>
    cases rest' with
    | nil => exact absurd hperm.eq_nil (List.cons_ne_nil _ _)
    | cons y rest' =>
      have hx := h done x rest hrest
      have hy := h' done y rest' hrest'
      have hymem : y ∈ x :: rest := hperm.mem_iff.mpr (by simp)
      have hxy := hx.2 y (hsub hymem) (hdone y hymem) hy.1
      have hyx := hy.2 x (hsub (by simp)) (hdone x (by simp)) hx.1
      obtain rfl := hanti x (hsub (by simp)) y (hsub hymem) hxy hyx
      obtain ⟨hnot, hnodup⟩ := List.nodup_cons.mp hnodup
      refine congrArg (x :: ·) (ih (done ++ [x]) rest' (by simp [hrest]) (by simp [hrest'])
        hperm.cons_inv (fun z hz => hsub (by simp [hz])) (fun z hz hzdone => ?_) hnodup)
      rcases List.mem_append.mp hzdone with hzdone | hzdone
      · exact hdone z (by simp [hz]) hzdone
      · exact hnot (List.mem_singleton.mp hzdone ▸ hz)

/-- Two greedy orders of the same items are the same. -/
theorem Greedy.unique (hanti : ∀ x ∈ items, ∀ y ∈ items, le x y → le y x → x = y)
    (hnodup : items.Nodup) {order order' : List α} (h : Greedy items precedes le order)
    (h' : Greedy items precedes le order') (hperm : order.Perm items) (hperm' : order'.Perm items) :
    order = order' :=
  greedy_tail_unique hanti h h' [] order order' rfl rfl (hperm.trans hperm'.symm) hperm.subset
    (by simp) (hperm.nodup_iff.mpr hnodup)

end Greedy

section Queue

variable {κ α : Type*} [DecidableEq κ] {g : Graph κ α} {q : Queue κ α}

/-- One item comes before another that follows its id. -/
def Graph.Precedes (g : Graph κ α) (x y : α) : Prop := g.id y ∈ g.next (g.id x)

lemma get_itemOf_id (hnodup : (g.items.map g.id).Nodup) {x : α} (hx : x ∈ g.items) :
    get g.itemOf (g.id x) = some x := by
  obtain ⟨y, hy, hget, hid⟩ := g.itemOf_id x hx
  rw [hget, List.inj_on_of_nodup_map hnodup hy hx hid]

/-- What waits for no more than has been followed has left the queue or is in it. -/
lemma Progress.mem_iff (h : Progress g q (g.following q.done)) (hnodup : (g.items.map g.id).Nodup)
    {x : α} (hx : x ∈ g.items) :
    x ∈ q.done ++ q.ready ↔ g.incoming (g.id x) ≤ (g.following q.done).count (g.id x) := by
  rw [h.split.mem_iff, List.mem_append, List.mem_filterMap]
  constructor
  · rintro (hsource | ⟨v, hv, hget⟩)
    · have hzero : g.incoming (g.id x) = 0 := of_decide_eq_true (List.mem_filter.mp hsource).2
      omega
    · obtain ⟨hmem, _, hle⟩ := mem_released.mp hv
      obtain ⟨y, _, hget', rfl⟩ := exists_itemOf hmem
      obtain rfl := Option.some.inj (hget'.symm.trans hget)
      exact hle
  · intro hle
    by_cases hzero : g.incoming (g.id x) = 0
    · exact .inl (List.mem_filter.mpr ⟨hx, decide_eq_true hzero⟩)
    · exact .inr ⟨g.id x, mem_released.mpr ⟨id_mem_ids hx, by omega, hle⟩, get_itemOf_id hnodup hx⟩

/-- All that an id waits for has been followed when all items before it are done. -/
lemma incoming_le_iff (hnodup : (g.items.map g.id).Nodup) {done rest : List α}
    (hsplit : (done ++ rest).Perm g.items) {x : α} :
    g.incoming (g.id x) ≤ (g.following done).count (g.id x) ↔
      Ready g.items g.Precedes done x := by
  have hids : (g.ids.flatMap g.next).Perm (g.following g.items) := by
    have hperm : g.ids.Perm (g.items.map g.id) :=
      (List.perm_ext_iff_of_nodup nodup_ids hnodup).mpr fun u => by simp [Graph.ids]
    have hflat := hperm.flatMap_right g.next
    rwa [List.flatMap_map] at hflat
  have hcount : g.incoming (g.id x) =
      (g.following done).count (g.id x) + (g.following rest).count (g.id x) := by
    rw [Graph.incoming, hids.count_eq, Graph.following, ← (hsplit.flatMap_right _).count_eq,
      List.flatMap_append, List.count_append]
    rfl
  have hzero : (g.following rest).count (g.id x) = 0 ↔ ∀ y ∈ rest, ¬ g.Precedes y x := by
    rw [List.count_eq_zero, Graph.following, List.mem_flatMap]
    push Not
    rfl
  have hle : g.incoming (g.id x) ≤ (g.following done).count (g.id x) ↔
      (g.following rest).count (g.id x) = 0 := by omega
  have hdisjoint := (List.nodup_append'.mp
    (hsplit.nodup_iff.mpr (List.Nodup.of_map _ hnodup))).2.2
  rw [hle, hzero]
  constructor
  · intro h y hy hyx
    refine (List.mem_append.mp (hsplit.mem_iff.mpr hy)).resolve_right fun hrest => ?_
    exact h y hrest hyx
  · intro h y hrest hyx
    exact hdisjoint (h y (hsplit.mem_iff.mp (List.mem_append_right _ hrest)) hyx) hrest

variable {sort : List α → List α} {le : α → α → Prop}

lemma Progress.nodup (h : Progress g q (g.following q.done)) (hnodup : (g.items.map g.id).Nodup) :
    (q.done ++ q.ready).Nodup := by
  obtain ⟨xs, hperm, hxs⟩ := h.subperm
  exact hperm.nodup_iff.mp ((List.Nodup.of_map _ hnodup).sublist hxs)

/-- The queue holds the items that are ready and not done. -/
lemma Progress.mem_ready_iff (h : Progress g q (g.following q.done))
    (hnodup : (g.items.map g.id).Nodup) {x : α} (hx : x ∈ g.items) (hdone : x ∉ q.done) :
    x ∈ q.ready ↔ Ready g.items g.Precedes q.done x := by
  have hsub : q.done.Subperm g.items :=
    (List.sublist_append_left q.done q.ready).subperm.trans h.subperm
  obtain ⟨xs, hperm, hxs⟩ := hsub
  obtain ⟨rest, hrest⟩ := hxs.exists_perm_append
  have hsplit : (q.done ++ rest).Perm g.items := (hperm.symm.append_right rest).trans hrest.symm
  rw [← incoming_le_iff hnodup hsplit, ← h.mem_iff hnodup hx, List.mem_append]
  tauto

/-- A queue kept sorted gives its items greedily. -/
lemma greedy_drain (hnodup : (g.items.map g.id).Nodup) (hsort : ∀ xs, (sort xs).Perm xs)
    (hsorted : ∀ xs, (sort xs).Pairwise le) (hrefl : ∀ x, le x x) (fuel : ℕ)
    (h : Progress g q (g.following q.done)) (hready : q.ready.Pairwise le)
    (hgreedy : Greedy g.items g.Precedes le q.done) :
    Greedy g.items g.Precedes le (g.drain sort fuel q).done := by
  induction fuel generalizing q with
  | zero => exact hgreedy
  | succ fuel ih =>
    simp only [Graph.drain]
    split
    · exact hgreedy
    · rename_i current ready hqueue
      obtain ⟨hround, _, _⟩ := progress_round h hsort hqueue
      refine ih hround (hsorted _) ?_
      have hcurrent : current ∈ g.items :=
        h.subperm.subset (List.mem_append_right _ (by rw [hqueue]; simp))
      have hwaits : current ∉ q.done := fun hmem =>
        (List.nodup_append'.mp (h.nodup hnodup)).2.2 hmem (by rw [hqueue]; simp)
      rw [done_foldl_visit]
      refine hgreedy.snoc ((h.mem_ready_iff hnodup hcurrent hwaits).mp (by rw [hqueue]; simp)) ?_
      intro y hy hydone hyready
      have hmem := (h.mem_ready_iff hnodup hy hydone).mpr hyready
      rw [hqueue] at hmem hready
      rcases List.mem_cons.mp hmem with rfl | hmem
      · exact hrefl _
      · exact (List.pairwise_cons.mp hready).1 y hmem

/-- The order of a graph of distinct ids is greedy. -/
theorem greedy_order (hnodup : (g.items.map g.id).Nodup) (hsort : ∀ xs, (sort xs).Perm xs)
    (hsorted : ∀ xs, (sort xs).Pairwise le) (hrefl : ∀ x, le x x) :
    Greedy g.items g.Precedes le (g.order sort) :=
  greedy_drain hnodup hsort hsorted hrefl _ (progress_start hsort) (hsorted _) greedy_nil

end Queue

section Cycles

variable {κ α : Type*} [DecidableEq κ] {g : Graph κ α} {sort : List α → List α}

/-- Ids that each follow one of them are stuck. -/
lemma stuck_of_closed (hnodup : (g.items.map g.id).Nodup) {s : List κ} (hs : s ≠ [])
    (hclosed : ∀ v ∈ s, ∃ u ∈ s, v ∈ g.next u) (hids : ∀ v ∈ s, v ∈ g.ids) : g.Stuck s where
  nonempty := hs
  ids := hids
  starved v hv := by
    obtain ⟨u, hu, hnext⟩ := hclosed v hv
    obtain ⟨x, hx, rfl⟩ := mem_ids.mp (hids u hu)
    have hpos : 0 < (g.following (g.items.filter (fun x => g.id x ∈ s))).count v := by
      refine List.count_pos_iff.mpr (List.mem_flatMap.mpr ⟨x, ?_, hnext⟩)
      exact List.mem_filter.mpr ⟨hx, decide_eq_true hu⟩
    rw [incoming_eq hnodup s v]
    omega

/-- On distinct ids the order is complete exactly when no id waits for itself. -/
theorem length_order_iff_acyclic (hnodup : (g.items.map g.id).Nodup)
    (hsort : ∀ xs, (sort xs).Perm xs) :
    (g.order sort).length = g.items.length ↔
      ∀ v, ¬ Relation.TransGen (fun u w => w ∈ g.next u ∧ u ∈ g.ids) v v := by
  classical
  rw [length_order_iff hsort]
  constructor
  · rintro ⟨_, hstuck⟩ v hcycle
    -- the ids on cycles
    refine hstuck (g.ids.filter (fun u =>
      Relation.TransGen (fun u w => w ∈ g.next u ∧ u ∈ g.ids) u u)) (stuck_of_closed hnodup ?_ ?_
        fun u hu => (List.mem_filter.mp hu).1)
    · obtain ⟨w, hstep, _⟩ := Relation.TransGen.head'_iff.mp hcycle
      exact List.ne_nil_of_mem (List.mem_filter.mpr ⟨hstep.2, decide_eq_true hcycle⟩)
    · intro u hu
      have hloop := of_decide_eq_true (List.mem_filter.mp hu).2
      obtain ⟨w, hto, hstep⟩ := Relation.TransGen.tail'_iff.mp hloop
      refine ⟨w, List.mem_filter.mpr ⟨hstep.2, decide_eq_true ?_⟩, hstep.1⟩
      exact Relation.TransGen.head' hstep hto
  · intro hacyclic
    refine ⟨hnodup.sublist (List.filter_sublist.map _), fun s hs => ?_⟩
    obtain ⟨v, hcycle⟩ := FrontierOrder.exists_cycle hs.nonempty
      (r := fun w u => w ∈ g.next u ∧ u ∈ g.ids) fun w hw => by
        obtain ⟨u, hu, hnext⟩ := hs.exists_before hnodup w hw
        exact ⟨u, hu, hnext, hs.ids u hu⟩
    exact hacyclic v (Relation.transGen_swap.mp hcycle)

end Cycles

end Appspine.QueueOrder
