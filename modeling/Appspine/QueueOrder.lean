import Appspine.InsertionMap

/-!
# Topological ordering from a queue

Kahn's algorithm that takes one item at a time from a sorted queue and counts down the degrees of
what follows it. Items are followed by id, and several items may have one id: the items come out
complete exactly when no two that wait have one id and no ids wait for each other.
-/
namespace Appspine.QueueOrder
open InsertionMap

variable {κ α : Type*} [DecidableEq κ]

/-- Items with ids, what follows an id, and an item for each id. -/
structure Graph (κ α : Type*) [DecidableEq κ] where
  items : List α
  id : α → κ
  next : κ → List κ
  itemOf : Entries κ α
  closed : ∀ u, ∀ v ∈ next u, v ∈ items.map id
  itemOf_id : ∀ x ∈ items, ∃ y ∈ items, get itemOf (id x) = some y ∧ id y = id x

structure Queue (κ α : Type*) where
  ready : List α
  degree : Entries κ ℤ
  done : List α

namespace Graph

variable (g : Graph κ α)

def ids : List κ := distinct (g.items.map g.id)

/-- How often an id is followed. -/
def incoming (v : κ) : ℕ := (g.ids.flatMap g.next).count v

def degrees : Entries κ ℤ :=
  (g.ids.flatMap g.next).foldl (fun m v => set m v ((get m v).getD 0 + 1))
    (g.ids.map (fun v => (v, 0)))

/-- One less to wait for; an id that waits for nothing more gets its item into the queue. -/
def visit (q : Queue κ α) (v : κ) : Queue κ α :=
  let degree := (get q.degree v).getD 1 - 1
  { q with
    degree := set q.degree v degree
    ready := if degree = 0 then q.ready ++ (get g.itemOf v).toList else q.ready }

def drain (sort : List α → List α) : ℕ → Queue κ α → Queue κ α
  | 0, q => q
  | fuel + 1, q =>
    match q.ready with
    | [] => q
    | current :: ready =>
      let q' := (g.next (g.id current)).foldl g.visit
        { q with ready := ready, done := q.done ++ [current] }
      drain sort fuel { q' with ready := sort q'.ready }

def start (sort : List α → List α) : Queue κ α :=
  { ready := sort (g.items.filter (fun x => get g.degrees (g.id x) = some 0))
    degree := g.degrees
    done := [] }

/-- The items in the order in which they leave the queue; each leaves it once. -/
def order (sort : List α → List α) : List α := (g.drain sort g.items.length (g.start sort)).done

/-- The ids that items are followed by. -/
def following (xs : List α) : List κ := xs.flatMap (fun x => g.next (g.id x))

/-- The items that wait for nothing. -/
def sources : List α := g.items.filter (fun x => g.incoming (g.id x) = 0)

def waiting : List α := g.items.filter (fun x => g.incoming (g.id x) ≠ 0)

/-- The ids that have been followed as often as they wait for. -/
def released (visited : List κ) : List κ :=
  g.ids.filter (fun v => 0 < g.incoming v ∧ g.incoming v ≤ visited.count v)

/-- Ids that wait for more than the items of other ids can give. -/
structure Stuck (s : List κ) : Prop where
  nonempty : s ≠ []
  ids : ∀ v ∈ s, v ∈ g.ids
  starved : ∀ v ∈ s, (g.following (g.items.filter (fun x => g.id x ∉ s))).count v < g.incoming v

end Graph

section Start

variable {g : Graph κ α}

lemma mem_ids {v : κ} : v ∈ g.ids ↔ ∃ x ∈ g.items, g.id x = v := by simp [Graph.ids]

lemma nodup_ids : g.ids.Nodup := nodup_distinct _

lemma id_mem_ids {x : α} (hx : x ∈ g.items) : g.id x ∈ g.ids := mem_ids.mpr ⟨x, hx, rfl⟩

lemma next_subset {u v : κ} (h : v ∈ g.next u) : v ∈ g.ids :=
  mem_ids.mpr (List.mem_map.mp (g.closed u v h))

lemma incoming_pos {u v : κ} (hu : u ∈ g.ids) (h : v ∈ g.next u) : 0 < g.incoming v :=
  List.count_pos_iff.mpr (List.mem_flatMap.mpr ⟨u, hu, h⟩)

lemma get_count (vs : List κ) {m : Entries κ ℤ} {v : κ} {n : ℤ} (h : get m v = some n) :
    get (vs.foldl (fun m v => set m v ((get m v).getD 0 + 1)) m) v = some (n + vs.count v) := by
  induction vs generalizing m n with
  | nil => simpa using h
  | cons u vs ih =>
    rw [List.foldl_cons]
    by_cases huv : u = v
    · subst huv
      have hset : get (set m u ((get m u).getD 0 + 1)) u = some (n + 1) := by
        rw [get_set, if_pos rfl, h, Option.getD_some]
      rw [ih hset, List.count_cons_self]
      push_cast
      ring_nf
    · have hset : get (set m u ((get m u).getD 0 + 1)) v = some n := by
        rw [get_set, if_neg (Ne.symm huv), h]
      rw [ih hset, List.count_cons_of_ne (by simpa using huv)]

lemma get_degrees {v : κ} (h : v ∈ g.ids) : get g.degrees v = some (g.incoming v : ℤ) := by
  have hzero : get (g.ids.map (fun v => (v, (0 : ℤ)))) v = some 0 := by
    refine get_of_mem ?_ (List.mem_map.mpr ⟨v, h, rfl⟩)
    simpa [keys, Function.comp_def] using nodup_ids
  rw [Graph.degrees, get_count _ hzero, zero_add]
  rfl

lemma sources_append_waiting : (g.sources ++ g.waiting).Perm g.items := by
  simpa [Graph.sources, Graph.waiting] using
    List.filter_append_perm (fun x => decide (g.incoming (g.id x) = 0)) g.items

end Start

section Progress

variable {g : Graph κ α} {q : Queue κ α} {visited : List κ}

/-- The degrees count down, and the items that have left or wait in the queue are those that wait
for nothing and those released. -/
structure Progress (g : Graph κ α) (q : Queue κ α) (visited : List κ) : Prop where
  degree : ∀ v ∈ g.ids, get q.degree v = some ((g.incoming v : ℤ) - visited.count v)
  split : (q.done ++ q.ready).Perm (g.sources ++ (g.released visited).filterMap (get g.itemOf))

lemma exists_itemOf {v : κ} (h : v ∈ g.ids) :
    ∃ y ∈ g.items, get g.itemOf v = some y ∧ g.id y = v := by
  obtain ⟨x, hx, rfl⟩ := mem_ids.mp h
  exact g.itemOf_id x hx

lemma nodup_released : (g.released visited).Nodup := nodup_ids.filter _

lemma mem_released {v : κ} : v ∈ g.released visited ↔
    v ∈ g.ids ∧ 0 < g.incoming v ∧ g.incoming v ≤ visited.count v := by
  simp [Graph.released]

lemma released_append {v : κ} (hv : v ∈ g.ids) (hpos : 0 < g.incoming v) :
    (g.released (visited ++ [v])).Perm
      (g.released visited ++ if g.incoming v = visited.count v + 1 then [v] else []) := by
  have hcount : ∀ u, (visited ++ [v]).count u = visited.count u + if u = v then 1 else 0 := by
    intro u
    rw [List.count_append, List.count_singleton]
    by_cases huv : u = v
    · simp [huv]
    · simp [huv, Ne.symm huv]
  split_ifs with hlast
  · refine (List.perm_ext_iff_of_nodup nodup_released ?_).mpr ?_
    · refine List.nodup_append'.mpr ⟨nodup_released, List.nodup_singleton _, ?_⟩
      rw [List.disjoint_singleton, mem_released]
      omega
    · intro u
      simp only [mem_released, List.mem_append, List.mem_singleton, hcount]
      by_cases huv : u = v
      · subst huv
        simp only [hv, hpos, true_and, if_true, or_true, iff_true]
        omega
      · simp [huv]
  · have hsame : g.released (visited ++ [v]) = g.released visited := by
      refine List.filter_congr fun u _ => ?_
      rw [hcount, decide_eq_decide]
      by_cases huv : u = v
      · subst huv
        simp only [if_true]
        omega
      · simp [huv]
    rw [hsame, List.append_nil]

lemma progress_visit (h : Progress g q visited) {v : κ} (hv : v ∈ g.ids)
    (hpos : 0 < g.incoming v) : Progress g (g.visit q v) (visited ++ [v]) := by
  have hdegree : (get q.degree v).getD 1 - 1 = (g.incoming v : ℤ) - visited.count v - 1 := by
    rw [h.degree v hv, Option.getD_some]
  refine ⟨?_, ?_⟩
  · intro u hu
    simp only [Graph.visit, get_set, hdegree, List.count_append, List.count_singleton]
    by_cases huv : u = v
    · subst huv
      simp only [if_true, beq_self_eq_true, Nat.cast_add, Nat.cast_one]
      ring_nf
    · rw [if_neg huv, h.degree u hu]
      simp [Ne.symm huv]
  · obtain ⟨y, _, hy, _⟩ := exists_itemOf hv
    refine List.Perm.trans ?_
      (((released_append hv hpos).filterMap (get g.itemOf)).append_left g.sources).symm
    rw [List.filterMap_append, ← List.append_assoc]
    simp only [Graph.visit, hdegree]
    by_cases hlast : g.incoming v = visited.count v + 1
    · rw [if_pos hlast, if_pos (by omega), ← List.append_assoc, hy]
      simpa [hy] using h.split.append_right [y]
    · rw [if_neg hlast, if_neg (by omega)]
      simpa using h.split

lemma done_visit (v : κ) : (g.visit q v).done = q.done := rfl

lemma done_foldl_visit (vs : List κ) : (vs.foldl g.visit q).done = q.done := by
  induction vs generalizing q with
  | nil => rfl
  | cons v vs ih => rw [List.foldl_cons, ih, done_visit]

lemma progress_foldl (h : Progress g q visited) {vs : List κ}
    (hvs : ∀ v ∈ vs, v ∈ g.ids ∧ 0 < g.incoming v) :
    Progress g (vs.foldl g.visit q) (visited ++ vs) := by
  induction vs generalizing q visited with
  | nil => simpa using h
  | cons v vs ih =>
    have hone := progress_visit h (hvs v (by simp)).1 (hvs v (by simp)).2
    have hrest := ih hone (fun u hu => hvs u (by simp [hu]))
    simpa using hrest

/-- What has left or waits in the queue are distinct items of the graph. -/
lemma Progress.subperm (h : Progress g q visited) : (q.done ++ q.ready).Subperm g.items := by
  have hreleased : ((g.released visited).filterMap (get g.itemOf)).Subperm g.waiting := by
    refine List.subperm_of_subset ?_ ?_
    · -- items of distinct ids are distinct
      refine List.Nodup.of_map g.id ?_
      have hids : ((g.released visited).filterMap (get g.itemOf)).map g.id = g.released visited := by
        rw [List.map_filterMap]
        refine (List.filterMap_congr fun v hv => ?_).trans List.filterMap_some
        obtain ⟨y, _, hy, hid⟩ := exists_itemOf (mem_released.mp hv).1
        rw [hy, Option.map_some, hid]
      rw [hids]
      exact nodup_released
    · intro y hy
      obtain ⟨v, hv, hget⟩ := List.mem_filterMap.mp hy
      obtain ⟨hmem, hcond⟩ := mem_released.mp hv
      obtain ⟨y', hy', hget', rfl⟩ := exists_itemOf hmem
      obtain rfl := Option.some.inj (hget'.symm.trans hget)
      refine List.mem_filter.mpr ⟨hy', ?_⟩
      rw [decide_eq_true_eq]
      omega
  have hboth := (List.subperm_append_left g.sources).mpr hreleased
  exact h.split.subperm.trans (hboth.trans sources_append_waiting.subperm)

end Progress

section Drain

variable {g : Graph κ α} {q : Queue κ α} {visited s : List κ} {sort : List α → List α}

/-- No item of these ids has left the queue or waits in it. -/
def Avoids (g : Graph κ α) (s : List κ) (q : Queue κ α) : Prop :=
  ∀ x ∈ q.done ++ q.ready, g.id x ∉ s

lemma avoids_visit (h : Progress g q visited) (hs : Avoids g s q) {v : κ} (hv : v ∈ g.ids)
    (hfew : ∀ u ∈ s, (visited ++ [v]).count u < g.incoming u) : Avoids g s (g.visit q v) := by
  obtain ⟨y, _, hy, hid⟩ := exists_itemOf hv
  intro x hx
  have hdegree : (get q.degree v).getD 1 - 1 = (g.incoming v : ℤ) - visited.count v - 1 := by
    rw [h.degree v hv, Option.getD_some]
  simp only [Graph.visit, hdegree, hy, Option.toList_some, List.mem_append] at hx
  split_ifs at hx with hzero
  · rcases hx with hx | hx
    · exact hs x (List.mem_append_left _ hx)
    · rcases List.mem_append.mp hx with hx | hx
      · exact hs x (List.mem_append_right _ hx)
      · rw [List.mem_singleton.mp hx, hid]
        intro hmem
        have hlt := hfew v hmem
        rw [List.count_append, List.count_singleton_self] at hlt
        omega
  · exact hs x (List.mem_append.mpr hx)

lemma avoids_foldl (h : Progress g q visited) (hs : Avoids g s q) {vs : List κ}
    (hvs : ∀ v ∈ vs, v ∈ g.ids ∧ 0 < g.incoming v)
    (hfew : ∀ u ∈ s, (visited ++ vs).count u < g.incoming u) :
    Avoids g s (vs.foldl g.visit q) := by
  induction vs generalizing q visited with
  | nil => exact hs
  | cons v vs ih =>
    have hone := progress_visit h (hvs v (by simp)).1 (hvs v (by simp)).2
    have hsplit : visited ++ v :: vs = visited ++ [v] ++ vs := by simp
    rw [hsplit] at hfew
    refine ih hone (avoids_visit h hs (hvs v (by simp)).1 fun u hu => ?_)
      (fun u hu => hvs u (by simp [hu])) hfew
    refine lt_of_le_of_lt ?_ (hfew u hu)
    rw [@List.count_append _ _ _ _ vs]
    omega

/-- Items outside of a stuck set cannot release it. -/
lemma Graph.Stuck.few (hs : g.Stuck s) {xs : List α} (hsub : xs.Subperm g.items)
    (havoid : ∀ x ∈ xs, g.id x ∉ s) : ∀ v ∈ s, (g.following xs).count v < g.incoming v := by
  intro v hv
  refine lt_of_le_of_lt ?_ (hs.starved v hv)
  obtain ⟨ys, hperm, hys⟩ := hsub
  have hfilter : ys.Sublist (g.items.filter (fun x => g.id x ∉ s)) := by
    have hall : ys.filter (fun x => g.id x ∉ s) = ys := by
      rw [List.filter_eq_self]
      intro y hy
      simpa using havoid y (hperm.mem_iff.mp hy)
    rw [← hall]
    exact hys.filter _
  have hcount : (g.following xs).count v = (g.following ys).count v :=
    ((hperm.flatMap_right _).count_eq v).symm
  rw [hcount]
  exact (hfilter.flatMap _).count_le v

/-- One round: the head of the queue leaves it, and what follows is counted down. -/
lemma progress_round (h : Progress g q (g.following q.done)) (hsort : ∀ xs, (sort xs).Perm xs)
    {current : α} {ready : List α} (hready : q.ready = current :: ready) :
    let q' := (g.next (g.id current)).foldl g.visit
      { q with ready := ready, done := q.done ++ [current] }
    Progress g { q' with ready := sort q'.ready } (g.following q'.done) ∧
      q'.done.length = q.done.length + 1 ∧
      ∀ s, g.Stuck s → Avoids g s q → Avoids g s { q' with ready := sort q'.ready } := by
  intro q'
  have hdone : q'.done = q.done ++ [current] := done_foldl_visit _
  have hsame : q.done ++ q.ready = q.done ++ [current] ++ ready := by rw [hready]; simp
  have hpop : Progress g { q with ready := ready, done := q.done ++ [current] }
      (g.following q.done) := ⟨h.degree, hsame ▸ h.split⟩
  have hcurrent : current ∈ g.items :=
    h.subperm.subset (List.mem_append_right _ (by rw [hready]; simp))
  have hnext : ∀ v ∈ g.next (g.id current), v ∈ g.ids ∧ 0 < g.incoming v :=
    fun v hv => ⟨next_subset hv, incoming_pos (id_mem_ids hcurrent) hv⟩
  have hfollowing : g.following (q.done ++ [current]) =
      g.following q.done ++ g.next (g.id current) := by simp [Graph.following]
  have hvisited := progress_foldl hpop hnext
  refine ⟨⟨?_, ?_⟩, by simp [hdone], ?_⟩
  · rw [hdone, hfollowing]
    exact hvisited.degree
  · rw [hdone, hfollowing]
    exact ((hsort _).append_left _).trans (hdone ▸ hvisited.split)
  · intro s hs havoid x hx
    have havoid' : Avoids g s { q with ready := ready, done := q.done ++ [current] } := by
      intro y hy
      exact havoid y (hsame ▸ hy)
    have hsub : (q.done ++ [current]).Subperm g.items :=
      (List.sublist_append_left _ ready).subperm.trans (hsame ▸ h.subperm)
    have hfew := hs.few hsub (fun y hy => havoid' y (List.mem_append_left _ hy))
    rw [hfollowing] at hfew
    refine avoids_foldl hpop havoid' hnext hfew x ?_
    rcases List.mem_append.mp hx with hx | hx
    · exact List.mem_append_left _ hx
    · exact List.mem_append_right _ ((hsort _).mem_iff.mp hx)

/-- The queue runs empty within as many rounds as there are items. -/
lemma drain_spec (hsort : ∀ xs, (sort xs).Perm xs) (fuel : ℕ)
    (h : Progress g q (g.following q.done)) (hfuel : g.items.length ≤ fuel + q.done.length) :
    let q' := g.drain sort fuel q
    Progress g q' (g.following q'.done) ∧ q'.ready = [] ∧
      ∀ s, g.Stuck s → Avoids g s q → Avoids g s q' := by
  induction fuel generalizing q with
  | zero =>
    have hlength := h.subperm.length_le
    rw [List.length_append] at hlength
    have hempty : q.ready.length = 0 := by omega
    exact ⟨h, List.length_eq_zero_iff.mp hempty, fun _ _ havoid => havoid⟩
  | succ fuel ih =>
    simp only [Graph.drain]
    split
    · rename_i hready
      exact ⟨h, hready, fun _ _ havoid => havoid⟩
    · rename_i current ready hready
      obtain ⟨hround, hlength, havoids⟩ := progress_round h hsort hready
      obtain ⟨hprogress, hempty, hrest⟩ := ih hround (by
        simp only [hlength]
        omega)
      exact ⟨hprogress, hempty, fun s hs havoid => hrest s hs (havoids s hs havoid)⟩

end Drain

section Order

variable {g : Graph κ α} {sort : List α → List α}

lemma ready_start (hsort : ∀ xs, (sort xs).Perm xs) : (g.start sort).ready.Perm g.sources := by
  have hfilter : g.items.filter (fun x => get g.degrees (g.id x) = some 0) = g.sources := by
    refine List.filter_congr fun x hx => ?_
    rw [get_degrees (id_mem_ids hx), decide_eq_decide, Option.some.injEq]
    omega
  rw [Graph.start, hfilter]
  exact hsort _

lemma progress_start (hsort : ∀ xs, (sort xs).Perm xs) : Progress g (g.start sort) [] := by
  refine ⟨?_, ?_⟩
  · intro v hv
    rw [Graph.start, get_degrees hv]
    simp
  · have hnone : g.released [] = [] := by
      rw [List.eq_nil_iff_forall_not_mem]
      intro v hv
      have hcond := (mem_released.mp hv).2
      rw [List.count_nil] at hcond
      omega
    rw [hnone, List.filterMap_nil, List.append_nil]
    exact ready_start hsort

lemma avoids_start (hsort : ∀ xs, (sort xs).Perm xs) {s : List κ} (hs : g.Stuck s) :
    Avoids g s (g.start sort) := by
  intro x hx hmem
  have hsource : x ∈ g.sources := (ready_start hsort).mem_iff.mp (by simpa [Graph.start] using hx)
  have hzero : g.incoming (g.id x) = 0 := by simpa using (List.mem_filter.mp hsource).2
  have hlt := hs.starved _ hmem
  omega

/-- What an order ends with. -/
lemma order_spec (hsort : ∀ xs, (sort xs).Perm xs) :
    (g.order sort).Perm (g.sources ++
      (g.released (g.following (g.order sort))).filterMap (get g.itemOf)) ∧
      ∀ s, g.Stuck s → ∀ x ∈ g.order sort, g.id x ∉ s := by
  have hstart : Progress g (g.start sort) (g.following (g.start sort).done) := progress_start hsort
  obtain ⟨hprogress, hempty, havoids⟩ := drain_spec hsort g.items.length hstart (by omega)
  have hsplit := hprogress.split
  rw [hempty, List.append_nil] at hsplit
  refine ⟨hsplit, fun s hs x hx => ?_⟩
  exact havoids s hs (avoids_start hsort hs) x (List.mem_append_left _ hx)

lemma mem_waiting_ids {v : κ} : v ∈ g.waiting.map g.id ↔ v ∈ g.ids ∧ 0 < g.incoming v := by
  simp only [Graph.waiting, List.mem_map, List.mem_filter, decide_eq_true_eq, mem_ids]
  constructor
  · rintro ⟨x, ⟨hx, hpos⟩, rfl⟩
    exact ⟨⟨x, hx, rfl⟩, by omega⟩
  · rintro ⟨⟨x, hx, rfl⟩, hpos⟩
    exact ⟨x, ⟨hx, by omega⟩, rfl⟩

lemma length_released (visited : List κ) :
    ((g.released visited).filterMap (get g.itemOf)).length = (g.released visited).length := by
  rw [List.length_filterMap_eq_countP, List.countP_eq_length]
  intro v hv
  obtain ⟨y, _, hy, _⟩ := exists_itemOf (mem_released.mp hv).1
  rw [hy, Option.isSome_some]

lemma length_items : g.items.length = g.sources.length + g.waiting.length := by
  rw [Graph.sources, Graph.waiting, ← List.countP_eq_length_filter, ← List.countP_eq_length_filter,
    List.length_eq_countP_add_countP (fun x => decide (g.incoming (g.id x) = 0))]
  simp

lemma released_subperm (visited : List κ) : (g.released visited).Subperm (g.waiting.map g.id) := by
  refine List.subperm_of_subset nodup_released ?_
  intro v hv
  obtain ⟨hmem, hpos, _⟩ := mem_released.mp hv
  exact mem_waiting_ids.mpr ⟨hmem, hpos⟩

/-- As many items come out as there are exactly when all that wait are released, one by one. -/
lemma length_order_iff_perm (hsort : ∀ xs, (sort xs).Perm xs) :
    (g.order sort).length = g.items.length ↔
      (g.released (g.following (g.order sort))).Perm (g.waiting.map g.id) := by
  have hlength := (order_spec (g := g) hsort).1.length_eq
  rw [List.length_append, length_released] at hlength
  rw [hlength, length_items, Nat.add_left_cancel_iff]
  constructor
  · intro heq
    exact (released_subperm _).perm_of_length_le (by simp [heq])
  · intro hperm
    simpa using hperm.length_eq

/-- The released items, when no two waiting items have one id. -/
lemma released_items (h : (g.waiting.map g.id).Nodup) (visited : List κ) :
    ((g.released visited).filterMap (get g.itemOf)).Perm
      (g.waiting.filter (fun x => g.id x ∈ g.released visited)) := by
  have hunique : ∀ x ∈ g.waiting, get g.itemOf (g.id x) = some x := by
    intro x hx
    obtain ⟨y, hy, hget, hid⟩ := g.itemOf_id x (List.mem_filter.mp hx).1
    have hwaits : y ∈ g.waiting := by
      refine List.mem_filter.mpr ⟨hy, ?_⟩
      rw [hid]
      exact (List.mem_filter.mp hx).2
    rwa [List.inj_on_of_nodup_map h hwaits hx hid] at hget
  have hreleased : (g.released visited).Perm
      ((g.waiting.filter (fun x => g.id x ∈ g.released visited)).map g.id) := by
    refine (List.perm_ext_iff_of_nodup nodup_released
      (h.sublist ((List.filter_sublist).map _))).mpr fun v => ?_
    simp only [List.mem_map, List.mem_filter, decide_eq_true_eq]
    constructor
    · intro hv
      obtain ⟨x, hx, rfl⟩ := List.mem_map.mp ((released_subperm visited).subset hv)
      exact ⟨x, ⟨hx, hv⟩, rfl⟩
    · rintro ⟨x, ⟨_, hv⟩, rfl⟩
      exact hv
  refine (hreleased.filterMap _).trans ?_
  rw [List.filterMap_map]
  have hsome : ∀ x ∈ g.waiting.filter (fun x => g.id x ∈ g.released visited),
      (get g.itemOf ∘ g.id) x = some x := fun x hx => hunique x (List.mem_filter.mp hx).1
  rw [List.filterMap_congr hsome, List.filterMap_some]

/-- The items that are not left waiting wait for nothing or are released. -/
lemma items_not_waiting (visited : List κ) :
    (g.items.filter (fun x => g.id x ∉ (g.waiting.map g.id).filter (· ∉ g.released visited))).Perm
      (g.sources ++ g.waiting.filter (fun x => g.id x ∈ g.released visited)) := by
  refine (sources_append_waiting.symm.filter _).trans ?_
  rw [List.filter_append]
  have hsources : g.sources.filter (fun x =>
      g.id x ∉ (g.waiting.map g.id).filter (· ∉ g.released visited)) = g.sources := by
    rw [List.filter_eq_self]
    intro x hx
    have hzero : g.incoming (g.id x) = 0 := of_decide_eq_true (List.mem_filter.mp hx).2
    rw [decide_eq_true_eq]
    intro hmem
    have hpos := (mem_waiting_ids.mp (List.mem_filter.mp hmem).1).2
    omega
  have hwaiting : g.waiting.filter (fun x =>
      g.id x ∉ (g.waiting.map g.id).filter (· ∉ g.released visited)) =
      g.waiting.filter (fun x => g.id x ∈ g.released visited) := by
    refine List.filter_congr fun x hx => ?_
    have hid : g.id x ∈ g.waiting.map g.id := List.mem_map_of_mem hx
    rw [decide_eq_decide, List.mem_filter, decide_eq_true_eq]
    tauto
  rw [hsources, hwaiting]

/-- The queue gives all items exactly when no two that wait have one id, and no ids wait for more
than the others can give. -/
theorem length_order_iff (hsort : ∀ xs, (sort xs).Perm xs) :
    (g.order sort).length = g.items.length ↔
      (g.waiting.map g.id).Nodup ∧ ∀ s, ¬ g.Stuck s := by
  obtain ⟨hsplit, havoids⟩ := order_spec (g := g) hsort
  set visited := g.following (g.order sort) with hvisited
  rw [length_order_iff_perm hsort, ← hvisited]
  constructor
  · intro hperm
    refine ⟨hperm.nodup_iff.mp nodup_released, fun s hs => ?_⟩
    obtain ⟨v, hv⟩ := List.exists_mem_of_ne_nil s hs.nonempty
    have hstarved := hs.starved v hv
    have hreleased : v ∈ g.released visited :=
      hperm.mem_iff.mpr (mem_waiting_ids.mpr ⟨hs.ids v hv, by omega⟩)
    obtain ⟨y, _, hy, hid⟩ := exists_itemOf (hs.ids v hv)
    have hout : y ∈ g.order sort := by
      refine hsplit.mem_iff.mpr (List.mem_append_right _ ?_)
      exact List.mem_filterMap.mpr ⟨v, hreleased, hy⟩
    exact havoids s hs y hout (hid ▸ hv)
  · rintro ⟨hnodup, hstuck⟩
    refine (List.perm_ext_iff_of_nodup nodup_released hnodup).mpr fun v => ?_
    refine ⟨fun hv => (released_subperm visited).subset hv, fun hv => ?_⟩
    by_contra hleft
    -- the ids that were not released are stuck
    refine hstuck ((g.waiting.map g.id).filter (· ∉ g.released visited)) ⟨?_, ?_, ?_⟩
    · exact List.ne_nil_of_mem (List.mem_filter.mpr ⟨hv, by simpa using hleft⟩)
    · intro u hu
      exact (mem_waiting_ids.mp (List.mem_filter.mp hu).1).1
    · intro u hu
      obtain ⟨hwaits, hnot⟩ := List.mem_filter.mp hu
      obtain ⟨hid, hpos⟩ := mem_waiting_ids.mp hwaits
      have hcount : visited.count u < g.incoming u := by
        by_contra hle
        exact of_decide_eq_true hnot (mem_released.mpr ⟨hid, hpos, by omega⟩)
      refine lt_of_le_of_lt (le_of_eq ?_) hcount
      exact ((items_not_waiting visited).trans (hsplit.trans
        ((released_items hnodup visited).append_left _)).symm |>.flatMap_right _).count_eq u

/-- When all items come out, they are the items. -/
theorem order_perm (hsort : ∀ xs, (sort xs).Perm xs)
    (h : (g.order sort).length = g.items.length) : (g.order sort).Perm g.items := by
  obtain ⟨hsplit, _⟩ := order_spec (g := g) hsort
  obtain ⟨hnodup, _⟩ := (length_order_iff hsort).mp h
  have hperm := (length_order_iff_perm hsort).mp h
  have hall : g.waiting.filter (fun x =>
      g.id x ∈ g.released (g.following (g.order sort))) = g.waiting := by
    rw [List.filter_eq_self]
    intro x hx
    exact decide_eq_true (hperm.mem_iff.mpr (List.mem_map_of_mem hx))
  have hreleased := released_items hnodup (g.following (g.order sort))
  rw [hall] at hreleased
  exact hsplit.trans ((hreleased.append_left _).trans sources_append_waiting)

end Order

section Distinct

variable {g : Graph κ α} {s : List κ}

/-- Where ids are distinct, an id is followed by the items of a set and by the others. -/
lemma incoming_eq (hnodup : (g.items.map g.id).Nodup) (s : List κ) (v : κ) :
    g.incoming v = (g.following (g.items.filter (fun x => g.id x ∈ s))).count v +
      (g.following (g.items.filter (fun x => g.id x ∉ s))).count v := by
  have hids : g.ids.Perm (g.items.map g.id) :=
    (List.perm_ext_iff_of_nodup nodup_ids hnodup).mpr fun u => by simp [Graph.ids]
  have hsplit : (g.items.filter (fun x => g.id x ∈ s) ++
      g.items.filter (fun x => g.id x ∉ s)).Perm g.items := by
    simpa using List.filter_append_perm (fun x => decide (g.id x ∈ s)) g.items
  have hfollowing : (g.items.map g.id).flatMap g.next = g.following g.items := by
    rw [List.flatMap_map, Graph.following]
  rw [Graph.incoming, (hids.flatMap_right _).count_eq, hfollowing, Graph.following,
    ← (hsplit.flatMap_right _).count_eq, List.flatMap_append, List.count_append]
  rfl

/-- Distinct ids that are stuck follow each other. -/
lemma Graph.Stuck.exists_before (hs : g.Stuck s) (hnodup : (g.items.map g.id).Nodup) :
    ∀ v ∈ s, ∃ u ∈ s, v ∈ g.next u := by
  intro v hv
  have hstarved := hs.starved v hv
  rw [incoming_eq hnodup s v] at hstarved
  have hpos : 0 < (g.following (g.items.filter (fun x => g.id x ∈ s))).count v := by omega
  obtain ⟨x, hx, hnext⟩ := List.mem_flatMap.mp (List.count_pos_iff.mp hpos)
  exact ⟨g.id x, of_decide_eq_true (List.mem_filter.mp hx).2, hnext⟩

/-- An id that follows itself is stuck. -/
lemma stuck_of_loop (hnodup : (g.items.map g.id).Nodup) {v : κ} (hv : v ∈ g.next v) :
    g.Stuck [v] where
  nonempty := List.cons_ne_nil _ _
  ids u hu := List.mem_singleton.mp hu ▸ next_subset hv
  starved u hu := by
    obtain rfl := List.mem_singleton.mp hu
    obtain ⟨x, hx, hid⟩ := mem_ids.mp (next_subset hv)
    have hpos : 0 < (g.following (g.items.filter (fun x => g.id x ∈ [u]))).count u := by
      refine List.count_pos_iff.mpr (List.mem_flatMap.mpr ⟨x, ?_, hid.symm ▸ hv⟩)
      exact List.mem_filter.mpr ⟨hx, by simp [hid]⟩
    rw [incoming_eq hnodup [u] u]
    omega

end Distinct

end Appspine.QueueOrder
