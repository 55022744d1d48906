import Appspine.FrontendEntries
import Appspine.GreedyOrder

/-!
# The order of navigation items

What `sortWithDependencies` gives for items of distinct ids: an error exactly for cyclic constraints,
and otherwise the one order that takes the least ready item at each place.
-/
namespace Appspine.Frontend
open JsText InsertionMap QueueOrder
open Prisma (sortWith)

variable {N α : Type} {localeCompare : JsString → JsString → Ordering} {key : α → SortableItem N}
  {items items' sorted : List α}

section Constraints

/-- The constraint that one item comes before another, by what either says. -/
def Precedes (key : α → SortableItem N) (items : List α) (x y : α) : Prop :=
  ((key x).id, (key y).id) ∈ allConstraints key items

lemma graph_precedes {x y : α} : (graph key items).Precedes x y ↔ Precedes key items x y :=
  mem_adjacency key

lemma mem_allConstraints {u v : JsString} : (u, v) ∈ allConstraints key items ↔
    ∃ x ∈ items, (u = (key x).id ∧ (key x).before = some v ∧ v ≠ [] ∧ v ∈ items.map (fun y => (key y).id)) ∨
      (v = (key x).id ∧ (key x).after = some u ∧ u ≠ [] ∧ u ∈ items.map (fun y => (key y).id)) := by
  rw [allConstraints, List.mem_flatMap]
  simp only [mem_constraints]

lemma allConstraints_perm (h : items.Perm items') {u v : JsString} :
    (u, v) ∈ allConstraints key items ↔ (u, v) ∈ allConstraints key items' := by
  simp only [mem_allConstraints, h.mem_iff, (h.map (fun y => (key y).id)).mem_iff]

end Constraints

section Comparison

variable [LinearOrder N] [Zero N] [Std.TransCmp localeCompare]

instance transCmp_compareReady : Std.TransCmp (compareReady localeCompare key) :=
  have : Std.TransCmp (fun x y : α => localeCompare (key x).id (key y).id) :=
    { eq_swap := Std.OrientedCmp.eq_swap
      isLE_trans := fun hxy hyz => Std.TransCmp.isLE_trans hxy hyz }
  inferInstanceAs (Std.TransCmp (compareLex (compareOn (fun x : α => (key x).order.getD 0))
    (fun x y => localeCompare (key x).id (key y).id)))

/-- No later than the other by `order`, then by id. -/
def NotAfter (localeCompare : JsString → JsString → Ordering) (key : α → SortableItem N)
    (x y : α) : Prop := compareReady localeCompare key x y ≠ .gt

omit [Std.TransCmp localeCompare] in
lemma notAfter_iff {x y : α} :
    NotAfter localeCompare key x y ↔ (compareReady localeCompare key x y).isLE = true :=
  Ordering.isLE_iff_ne_gt.symm

lemma notAfter_refl (x : α) : NotAfter localeCompare key x x :=
  notAfter_iff.mpr Std.ReflCmp.isLE_rfl

lemma sortWith_pairwise (xs : List α) :
    (sortWith (compareReady localeCompare key) xs).Pairwise (NotAfter localeCompare key) := by
  have htotal : Std.Total (fun x y => compareReady localeCompare key x y ≠ .gt) := ⟨fun x y => by
    by_contra hboth
    push Not at hboth
    exact Std.OrientedCmp.not_gt_of_gt hboth.1 hboth.2⟩
  have htrans : IsTrans α (fun x y => compareReady localeCompare key x y ≠ .gt) :=
    ⟨fun x y z hxy hyz => notAfter_iff.mpr
      (Std.TransCmp.isLE_trans (notAfter_iff.mp hxy) (notAfter_iff.mp hyz))⟩
  exact List.pairwise_insertionSort (fun x y => compareReady localeCompare key x y ≠ .gt) xs

lemma notAfter_antisymm [Std.LawfulEqCmp localeCompare]
    (hnodup : (items.map (fun x => (key x).id)).Nodup) :
    ∀ x ∈ items, ∀ y ∈ items, NotAfter localeCompare key x y → NotAfter localeCompare key y x →
      x = y := by
  intro x hx y hy hxy hyx
  have heq : compareReady localeCompare key x y = .eq :=
    Std.OrientedCmp.isLE_antisymm (notAfter_iff.mp hxy) (notAfter_iff.mp hyx)
  have hid : localeCompare (key x).id (key y).id = .eq := by
    rw [compareReady, Ordering.then_eq_eq] at heq
    exact heq.2
  exact List.inj_on_of_nodup_map hnodup hx hy (Std.LawfulEqCmp.eq_of_compare hid)

end Comparison

section Sorted

variable [LinearOrder N] [Zero N]

lemma sortWithDependencies_of_length (hlength : 2 ≤ items.length) :
    sortWithDependencies localeCompare key items =
      if ((graph key items).order (sortWith (compareReady localeCompare key))).length ≠ items.length
      then .error (js "Cyclic dependency detected in ordering items: " ++
        join (js ", ") (items.map (fun x => (key x).id)))
      else .ok ((graph key items).order (sortWith (compareReady localeCompare key))) := by
  rw [sortWithDependencies, if_neg (by omega)]

/-- An error is a cycle of constraints. -/
lemma sortWithDependencies_error_iff (hlength : 2 ≤ items.length)
    (hnodup : (items.map (fun x => (key x).id)).Nodup) :
    (∃ message, sortWithDependencies localeCompare key items = .error message) ↔
      ∃ id, Relation.TransGen (fun u v => (u, v) ∈ allConstraints key items) id id := by
  have horder := length_order_iff_acyclic (g := graph key items) hnodup
    (sortWith_perm (compareReady localeCompare key))
  have hstep : ∀ u v, (v ∈ (graph key items).next u ∧ u ∈ (graph key items).ids) ↔
      (u, v) ∈ allConstraints key items := by
    intro u v
    refine ⟨fun h => (mem_adjacency key).mp h.1, fun h => ⟨(mem_adjacency key).mpr h, ?_⟩⟩
    exact mem_ids.mpr (List.mem_map.mp (mem_ids_of_constraint key h).1)
  simp only [hstep] at horder
  rw [sortWithDependencies_of_length hlength]
  split_ifs with hcyclic
  · refine iff_of_true ⟨_, rfl⟩ ?_
    by_contra hnone
    exact hcyclic (horder.mpr (not_exists.mp hnone))
  · refine iff_of_false (by simp) ?_
    rintro ⟨id, hid⟩
    exact horder.mp (not_not.mp hcyclic) id hid

lemma sortWithDependencies_greedy [Std.TransCmp localeCompare] (hlength : 2 ≤ items.length)
    (hnodup : (items.map (fun x => (key x).id)).Nodup)
    (h : sortWithDependencies localeCompare key items = .ok sorted) :
    Greedy items (Precedes key items) (NotAfter localeCompare key) sorted := by
  have hgreedy := greedy_order (g := graph key items) hnodup
    (sortWith_perm (compareReady localeCompare key)) sortWith_pairwise notAfter_refl
  rw [sortWithDependencies_of_length hlength] at h
  split_ifs at h
  obtain rfl := Except.ok.inj h
  have hsame : (graph key items).Precedes = Precedes key items := by
    funext x y
    exact propext graph_precedes
  rwa [hsame] at hgreedy

/-- Greedy orders keep the constraints. -/
lemma idxOf_lt_of_greedy (hperm : sorted.Perm items)
    (hnodup : (items.map (fun x => (key x).id)).Nodup)
    (h : Greedy items (Precedes key items) (NotAfter localeCompare key) sorted) {u v : JsString}
    (huv : (u, v) ∈ allConstraints key items) :
    (sorted.map (fun x => (key x).id)).idxOf u < (sorted.map (fun x => (key x).id)).idxOf v := by
  obtain ⟨hu, hv⟩ := mem_ids_of_constraint key huv
  obtain ⟨x, hx, rfl⟩ := List.mem_map.mp hu
  obtain ⟨y, hy, rfl⟩ := List.mem_map.mp hv
  obtain ⟨done, rest, hsplit⟩ := List.append_of_mem (hperm.mem_iff.mpr hy)
  have hdone : x ∈ done := (h done y rest hsplit).1 x hx huv
  have hids := (hperm.map (fun x => (key x).id)).nodup_iff.mpr hnodup
  rw [hsplit, List.map_append, List.map_cons] at hids ⊢
  have hnot : (key y).id ∉ done.map (fun x => (key x).id) := fun hmem =>
    (List.nodup_append'.mp hids).2.2 hmem (by simp)
  have hmem : (key x).id ∈ done.map (fun x => (key x).id) :=
    List.mem_map_of_mem (f := fun x => (key x).id) hdone
  rw [List.idxOf_append_of_mem hmem, List.idxOf_append_of_notMem hnot]
  exact Nat.lt_add_right _ (List.idxOf_lt_length_of_mem hmem)

/-- The same items in another order are sorted the same. -/
lemma sortWithDependencies_input_perm [Std.TransCmp localeCompare]
    [Std.LawfulEqCmp localeCompare] (hlength : 2 ≤ items.length)
    (hnodup : (items.map (fun x => (key x).id)).Nodup)
    (h : sortWithDependencies localeCompare key items = .ok sorted) (hperm : items'.Perm items) :
    sortWithDependencies localeCompare key items' = .ok sorted := by
  have hlength' : 2 ≤ items'.length := hperm.length_eq ▸ hlength
  have hnodup' := (hperm.map (fun x => (key x).id)).nodup_iff.mpr hnodup
  cases hsort : sortWithDependencies localeCompare key items' with
  | error message =>
    obtain ⟨id, hid⟩ := (sortWithDependencies_error_iff hlength' hnodup').mp ⟨message, hsort⟩
    have hcycle : Relation.TransGen (fun u v => (u, v) ∈ allConstraints key items) id id :=
      Relation.TransGen.mono (fun u v huv => (allConstraints_perm hperm).mp huv) _ _ hid
    obtain ⟨message', herror⟩ : ∃ message', sortWithDependencies localeCompare key items =
        .error message' :=
      (sortWithDependencies_error_iff hlength hnodup).mpr ⟨id, hcycle⟩
    cases h.symm.trans herror
  | ok sorted' =>
    have hgreedy := sortWithDependencies_greedy hlength hnodup h
    have hgreedy' := sortWithDependencies_greedy hlength' hnodup' hsort
    have hsame : Greedy items (Precedes key items) (NotAfter localeCompare key) sorted' := by
      have hready : ∀ done x, Ready items (Precedes key items) done x ↔
          Ready items' (Precedes key items') done x := by
        intro done x
        simp only [Ready, Precedes, hperm.mem_iff, allConstraints_perm hperm]
      intro done x rest hsplit
      obtain ⟨hx, hleast⟩ := hgreedy' done x rest hsplit
      refine ⟨(hready done x).mpr hx, fun y hy hnot hyready => ?_⟩
      exact hleast y (hperm.mem_iff.mpr hy) hnot ((hready done y).mp hyready)
    refine congrArg Except.ok (hsame.unique (notAfter_antisymm hnodup) (List.Nodup.of_map _ hnodup)
      hgreedy ((sortWithDependencies_perm hsort).trans hperm) (sortWithDependencies_perm h))

/-- For items of distinct ids, the sort throws exactly when the constraints that name an item of the
list are cyclic, and otherwise gives the one order of the items that keeps every such constraint and
takes the least ready item at each place, whatever the order of the input. -/
theorem sortWithDependencies_spec [Std.TransCmp localeCompare] [Std.LawfulEqCmp localeCompare]
    (hlength : 2 ≤ items.length) (hnodup : (items.map (fun x => (key x).id)).Nodup) :
    ((∃ message, sortWithDependencies localeCompare key items = .error message) ↔
      ∃ id, Relation.TransGen (fun u v => (u, v) ∈ allConstraints key items) id id) ∧
    ∀ sorted, sortWithDependencies localeCompare key items = .ok sorted →
      sorted.Perm items ∧
      (∀ u v, (u, v) ∈ allConstraints key items →
        (sorted.map (fun x => (key x).id)).idxOf u < (sorted.map (fun x => (key x).id)).idxOf v) ∧
      (∀ done x rest, sorted = done ++ x :: rest → ∀ y ∈ rest,
        (∀ z ∈ items, Precedes key items z y → z ∈ done) →
        compareReady localeCompare key y x ≠ .lt) ∧
      ∀ items', items'.Perm items →
        sortWithDependencies localeCompare key items' = .ok sorted := by
  refine ⟨sortWithDependencies_error_iff hlength hnodup, fun sorted h => ?_⟩
  have hperm := sortWithDependencies_perm h
  have hgreedy := sortWithDependencies_greedy hlength hnodup h
  refine ⟨hperm, fun u v => idxOf_lt_of_greedy hperm hnodup hgreedy, ?_, fun items' hitems =>
    sortWithDependencies_input_perm hlength hnodup h hitems⟩
  intro done x rest hsplit y hy hready hlt
  have hdistinct := hperm.nodup_iff.mpr (List.Nodup.of_map _ hnodup)
  rw [hsplit] at hdistinct
  have hnot : y ∉ done := fun hmem =>
    (List.nodup_append'.mp hdistinct).2.2 hmem (List.mem_cons_of_mem _ hy)
  have hmem : y ∈ items := hperm.mem_iff.mp (hsplit ▸ by simp [hy])
  exact (hgreedy done x rest hsplit).2 y hmem hnot hready (Std.OrientedCmp.gt_of_lt hlt)

/-- `z` after `m`, which has the smaller order. -/
def twoItems : List (SortableItem ℤ) :=
  [⟨js "z", none, none, some (js "m")⟩, ⟨js "m", some 5, none, none⟩]

theorem sortWithDependencies_spec_two :
    ((∃ message, sortWithDependencies compare id twoItems = .error message) ↔
      ∃ i, Relation.TransGen (fun u v => (u, v) ∈ allConstraints id twoItems) i i) ∧
    ∀ sorted, sortWithDependencies compare id twoItems = .ok sorted →
      sorted.Perm twoItems ∧
      (∀ u v, (u, v) ∈ allConstraints id twoItems →
        (sorted.map (fun x => (id x).id)).idxOf u < (sorted.map (fun x => (id x).id)).idxOf v) ∧
      (∀ done x rest, sorted = done ++ x :: rest → ∀ y ∈ rest,
        (∀ z ∈ twoItems, Precedes id twoItems z y → z ∈ done) →
        compareReady compare id y x ≠ .lt) ∧
      ∀ items', items'.Perm twoItems → sortWithDependencies compare id items' = .ok sorted :=
  sortWithDependencies_spec (by decide) (by decide)

/-- An item with the empty id, and one that asks to come before it. -/
def emptyReferent : List (SortableItem ℤ) :=
  [⟨[], some 1, none, none⟩, ⟨js "a", some 2, some [], none⟩]

/-- A constraint by the empty text is no constraint, also where an item has that id. -/
theorem empty_referent_ignored : ¬ ∀ items sorted : List (SortableItem ℤ), 2 ≤ items.length →
    (items.map (fun x => x.id)).Nodup → sortWithDependencies compare id items = .ok sorted →
    ∀ x ∈ items, ∀ v ∈ items.map (fun x => x.id), x.before = some v →
      (sorted.map (fun x => x.id)).idxOf x.id < (sorted.map (fun x => x.id)).idxOf v := by
  intro h
  have hlt := h emptyReferent emptyReferent (by decide) (by decide) (by rfl)
    ⟨js "a", some 2, some [], none⟩ (by simp [emptyReferent]) [] (by simp [emptyReferent]) rfl
  exact absurd hlt (by decide)

end Sorted

end Appspine.Frontend
