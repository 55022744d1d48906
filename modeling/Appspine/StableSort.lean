import Mathlib

/-!
# Sorting by a key

Stable sorting of a list by a key in a linear order, and what does and does not
depend on the order in which the elements were handed in.
-/
namespace Appspine.StableSort

variable {α β κ : Type*} [LinearOrder κ]

/-- Stable sort by ascending key. -/
def sortBy (key : α → κ) (xs : List α) : List α :=
  xs.insertionSort (fun a b => key a ≤ key b)

/-- Sort of plain values. -/
def sorted (xs : List κ) : List κ := sortBy id xs

theorem sortBy_perm (key : α → κ) (xs : List α) : (sortBy key xs).Perm xs :=
  List.perm_insertionSort _ xs

theorem sorted_perm (xs : List κ) : (sorted xs).Perm xs := sortBy_perm id xs

@[simp] theorem mem_sortBy {key : α → κ} {xs : List α} {x : α} : x ∈ sortBy key xs ↔ x ∈ xs :=
  List.mem_insertionSort _

@[simp] theorem mem_sorted {xs : List κ} {x : κ} : x ∈ sorted xs ↔ x ∈ xs := mem_sortBy

@[simp] theorem sortBy_nil (key : α → κ) : sortBy key [] = [] := rfl

@[simp] theorem sorted_nil : sorted ([] : List κ) = [] := rfl

theorem sortBy_eq_nil {key : α → κ} {xs : List α} : sortBy key xs = [] ↔ xs = [] := by
  rw [← List.length_eq_zero_iff, ← List.length_eq_zero_iff, (sortBy_perm key xs).length_eq]

theorem sortBy_pairwise (key : α → κ) (xs : List α) :
    (sortBy key xs).Pairwise (fun a b => key a ≤ key b) := by
  have : Std.Total (fun a b : α => key a ≤ key b) := ⟨fun a b => le_total _ _⟩
  have : IsTrans α (fun a b : α => key a ≤ key b) := ⟨fun _ _ _ => le_trans⟩
  exact List.pairwise_insertionSort _ xs

theorem sorted_pairwise (xs : List κ) : (sorted xs).Pairwise (· ≤ ·) := sortBy_pairwise id xs

/-- The sorted sequence of keys depends only on the keys as a multiset. -/
theorem map_key_sortBy (key : α → κ) (xs : List α) :
    (sortBy key xs).map key = sorted (xs.map key) := by
  apply List.Perm.eq_of_pairwise' (r := (· ≤ ·))
  · exact List.pairwise_map.mpr (sortBy_pairwise key xs)
  · exact sorted_pairwise _
  · exact ((sortBy_perm key xs).map key).trans (sorted_perm _).symm

theorem sorted_eq_of_perm {xs ys : List κ} (h : xs.Perm ys) : sorted xs = sorted ys := by
  apply List.Perm.eq_of_pairwise' (r := (· ≤ ·)) (sorted_pairwise _) (sorted_pairwise _)
  exact (sorted_perm xs).trans (h.trans (sorted_perm ys).symm)

/-- Two sorted arrangements of the same elements coincide when equal keys force equal elements. -/
theorem eq_of_perm_of_key_inj {key : α → κ} {xs ys : List α} (h : xs.Perm ys)
    (hx : xs.Pairwise (fun a b => key a ≤ key b)) (hy : ys.Pairwise (fun a b => key a ≤ key b))
    (inj : ∀ a ∈ xs, ∀ b ∈ xs, key a = key b → a = b) : xs = ys := by
  induction xs generalizing ys with
  | nil => exact h.symm.eq_nil.symm
  | cons a xs ih =>
    cases ys with
    | nil => exact absurd h.eq_nil (by simp)
    | cons b ys =>
      have hb : b ∈ a :: xs := h.mem_iff.mpr (by simp)
      have ha : a ∈ b :: ys := h.mem_iff.mp (by simp)
      have hle : key a ≤ key b := by
        rcases List.mem_cons.mp hb with rfl | hb
        · exact le_rfl
        · exact List.rel_of_pairwise_cons hx hb
      have hge : key b ≤ key a := by
        rcases List.mem_cons.mp ha with rfl | ha
        · exact le_rfl
        · exact List.rel_of_pairwise_cons hy ha
      have hab : a = b := inj a (by simp) b hb (le_antisymm hle hge)
      subst hab
      have htail := ih (List.perm_cons a |>.mp h) hx.of_cons hy.of_cons
        (fun c hc d hd => inj c (List.mem_cons_of_mem a hc) d (List.mem_cons_of_mem a hd))
      rw [htail]

/-- Sorting forgets the order of arrival, provided equal keys force equal elements. -/
theorem sortBy_eq_of_perm {key : α → κ} {xs ys : List α} (h : xs.Perm ys)
    (inj : ∀ a ∈ xs, ∀ b ∈ xs, key a = key b → a = b) : sortBy key xs = sortBy key ys := by
  apply eq_of_perm_of_key_inj _ (sortBy_pairwise key xs) (sortBy_pairwise key ys)
  · intro a ha b hb
    exact inj a (mem_sortBy.mp ha) b (mem_sortBy.mp hb)
  · exact (sortBy_perm key xs).trans (h.trans (sortBy_perm key ys).symm)

theorem sortBy_map (key : β → κ) (f : α → β) (xs : List α) :
    sortBy key (xs.map f) = (sortBy (fun a => key (f a)) xs).map f :=
  (List.map_insertionSort _ _ f xs (fun _ _ _ _ => Iff.rfl)).symm

lemma filter_orderedInsert (key : α → κ) (p : α → Bool) (a : α) {l : List α}
    (hl : l.Pairwise (fun a b => key a ≤ key b)) :
    (l.orderedInsert (fun a b => key a ≤ key b) a).filter p =
      if p a then (l.filter p).orderedInsert (fun a b => key a ≤ key b) a else l.filter p := by
  induction l with
  | nil => by_cases ha : p a <;> simp [ha]
  | cons b l ih =>
    have ih := ih hl.of_cons
    by_cases hab : key a ≤ key b
    · rw [List.orderedInsert_cons_of_le (fun a b : α => key a ≤ key b) _ hab]
      by_cases ha : p a
      · -- everything that is left ranks at or above `a`, so it goes to the front
        rw [List.filter_cons_of_pos ha, if_pos ha]
        have hfront : ∀ c ∈ (b :: l).filter p, key a ≤ key c := by
          intro c hc
          rcases List.mem_cons.mp (List.mem_of_mem_filter hc) with rfl | hc
          · exact hab
          · exact hab.trans (List.rel_of_pairwise_cons hl hc)
        cases hf : (b :: l).filter p with
        | nil => rfl
        | cons c cs =>
          rw [hf] at hfront
          exact (List.orderedInsert_cons_of_le (fun a b : α => key a ≤ key b) _ (hfront c (by simp))).symm
      · rw [List.filter_cons_of_neg ha, if_neg ha]
    · rw [List.orderedInsert_of_not_le (fun a b : α => key a ≤ key b) _ hab]
      by_cases hb : p b
      · rw [List.filter_cons_of_pos hb, List.filter_cons_of_pos hb, ih]
        split_ifs
        · exact (List.orderedInsert_of_not_le (fun a b : α => key a ≤ key b) _ hab).symm
        · rfl
      · rw [List.filter_cons_of_neg hb, List.filter_cons_of_neg hb, ih]

/-- Sorting is stable, so it commutes with dropping elements. -/
theorem sortBy_filter (key : α → κ) (p : α → Bool) (xs : List α) :
    sortBy key (xs.filter p) = (sortBy key xs).filter p := by
  induction xs with
  | nil => rfl
  | cons a xs ih =>
    have hcons : sortBy key (a :: xs) =
        (sortBy key xs).orderedInsert (fun a b => key a ≤ key b) a := rfl
    rw [hcons, filter_orderedInsert key p a (sortBy_pairwise key xs), ← ih]
    by_cases ha : p a
    · rw [List.filter_cons_of_pos ha, if_pos ha]
      rfl
    · rw [List.filter_cons_of_neg ha, if_neg ha]

/-- Sorted lists that agree key by key are equal. -/
lemma eq_of_filter_eq {key : α → κ} {xs ys : List α}
    (hx : xs.Pairwise fun a b => key a ≤ key b) (hy : ys.Pairwise fun a b => key a ≤ key b)
    (h : ∀ k, xs.filter (fun a => key a = k) = ys.filter (fun a => key a = k)) : xs = ys := by
  have hmem : ∀ a, a ∈ xs ↔ a ∈ ys := by
    intro a
    have hfilter : a ∈ xs.filter (fun b => key b = key a) ↔ a ∈ ys.filter (fun b => key b = key a) := by
      rw [h]
    simpa using hfilter
  induction xs generalizing ys with
  | nil =>
    cases ys with
    | nil => rfl
    | cons y ys => simpa using hmem y
  | cons x xs ih =>
    cases ys with
    | nil => simpa using hmem x
    | cons y ys =>
      have hle : key x ≤ key y := by
        rcases List.mem_cons.mp ((hmem y).mpr List.mem_cons_self) with rfl | hin
        · exact le_rfl
        · exact List.rel_of_pairwise_cons hx hin
      have hge : key y ≤ key x := by
        rcases List.mem_cons.mp ((hmem x).mp List.mem_cons_self) with rfl | hin
        · exact le_rfl
        · exact List.rel_of_pairwise_cons hy hin
      have hkey : key x = key y := le_antisymm hle hge
      have hhead := h (key x)
      rw [List.filter_cons_of_pos (by simp), List.filter_cons_of_pos (by simp [hkey])] at hhead
      obtain ⟨rfl, _⟩ := List.cons.inj hhead
      have hrest : ∀ k, xs.filter (fun a => key a = k) = ys.filter (fun a => key a = k) := by
        intro k
        have hk := h k
        by_cases hx : key x = k
        · rw [List.filter_cons_of_pos (by simpa using hx), List.filter_cons_of_pos (by simpa using hx)]
            at hk
          exact (List.cons.inj hk).2
        · rwa [List.filter_cons_of_neg (by simpa using hx), List.filter_cons_of_neg (by simpa using hx)]
            at hk
      have hmem' : ∀ a, a ∈ xs ↔ a ∈ ys := by
        intro a
        have hfilter : a ∈ xs.filter (fun b => key b = key a) ↔
            a ∈ ys.filter (fun b => key b = key a) := by rw [hrest]
        simpa using hfilter
      rw [ih hx.of_cons hy.of_cons hrest hmem']

/-- Elements under one key keep their order, so only that order can show in the result. -/
lemma sortBy_congr {key : α → κ} {xs ys : List α}
    (h : ∀ k, xs.filter (fun a => key a = k) = ys.filter (fun a => key a = k)) :
    sortBy key xs = sortBy key ys := by
  refine eq_of_filter_eq (sortBy_pairwise key xs) (sortBy_pairwise key ys) fun k => ?_
  rw [← sortBy_filter, ← sortBy_filter, h]

/-- At most one element has a given key when the keys are distinct. -/
lemma filter_key_eq_of_perm {key : α → κ} {xs ys : List α} (h : xs.Perm ys)
    (hn : (xs.map key).Nodup) (k : κ) :
    xs.filter (fun a => key a = k) = ys.filter (fun a => key a = k) := by
  have hperm := h.filter fun a => decide (key a = k)
  have hle : (xs.filter fun a => key a = k).length ≤ 1 := by
    have hcount := List.nodup_iff_count_le_one.mp hn k
    rw [List.count, List.countP_map, List.countP_eq_length_filter] at hcount
    refine le_of_eq_of_le (congrArg List.length (List.filter_congr fun a _ => ?_)) hcount
    exact (beq_eq_decide (key a) k).symm
  cases hxs : xs.filter fun a => key a = k with
  | nil =>
    rw [hxs] at hperm
    exact hperm.nil_eq
  | cons a as =>
    rw [hxs] at hperm hle
    obtain rfl : as = [] := List.length_eq_zero_iff.mp (by simpa using hle)
    exact List.singleton_perm.mp hperm

theorem nodup_sorted {xs : List κ} : (sorted xs).Nodup ↔ xs.Nodup := (sorted_perm xs).nodup_iff

end Appspine.StableSort
