import Mathlib

/-!
# Sliding and fixed windows

A list of times keeps to a limit when no window of a given length, wherever it starts, holds more
than that many of them. Cutting the times into fixed windows, each from its first time on, and
taking the first few of each, keeps to the limit exactly when the taken times of any window are
far enough from those of the next one.
-/
namespace Appspine.SlidingWindow

variable {W limit : ℕ}

section Bound

/-- The times in the half-open window of length `W` from `x` on. -/
def inWindow (W x : ℕ) (times : List ℕ) : List ℕ :=
  times.filter fun t => decide (x ≤ t ∧ t < x + W)

/-- No window holds more times than the limit. -/
def KeepsTo (W limit : ℕ) (times : List ℕ) : Prop :=
  ∀ x, (inWindow W x times).length ≤ limit

/-- Times that are `limit` places apart are at least `W` apart. -/
def FarApart (W limit : ℕ) (times : List ℕ) : Prop :=
  ∀ i a b, times[i]? = some a → times[i + limit]? = some b → a + W ≤ b

lemma inWindow_cons (W x t : ℕ) (times : List ℕ) :
    inWindow W x (t :: times) =
      if x ≤ t ∧ t < x + W then t :: inWindow W x times else inWindow W x times := by
  simp [inWindow, List.filter_cons]

lemma FarApart.tail {t : ℕ} {times : List ℕ} (h : FarApart W limit (t :: times)) :
    FarApart W limit times := by
  intro i a b ha hb
  refine h (i + 1) a b (by simpa using ha) ?_
  rw [show i + 1 + limit = i + limit + 1 by omega]
  simpa using hb

lemma le_of_getElem? {times : List ℕ} (hsorted : times.Pairwise (· ≤ ·)) {i j a b : ℕ}
    (hij : i ≤ j) (ha : times[i]? = some a) (hb : times[j]? = some b) : a ≤ b := by
  obtain ⟨hi, rfl⟩ := List.getElem?_eq_some_iff.mp ha
  obtain ⟨hj, rfl⟩ := List.getElem?_eq_some_iff.mp hb
  rcases hij.eq_or_lt with rfl | hlt
  · exact le_rfl
  · exact List.pairwise_iff_getElem.mp hsorted i j hi hj hlt

/-- A window that starts at or before the first time holds at most `limit` of them. -/
lemma length_inWindow_le_of_head {t x : ℕ} {times : List ℕ}
    (hsorted : (t :: times).Pairwise (· ≤ ·)) (hfar : FarApart W limit (t :: times))
    (hx : x ≤ t) : (inWindow W x (t :: times)).length ≤ limit := by
  have hsplit := List.take_append_drop limit (t :: times)
  rw [← hsplit, inWindow, List.filter_append, List.length_append]
  have hfront : (((t :: times).take limit).filter fun t => decide (x ≤ t ∧ t < x + W)).length ≤
      limit := (List.length_filter_le _ _).trans (List.length_take_le _ _)
  have hback : ((t :: times).drop limit).filter (fun t => decide (x ≤ t ∧ t < x + W)) = [] := by
    rw [List.filter_eq_nil_iff]
    intro b hb hin
    obtain ⟨j, hj⟩ := List.getElem?_of_mem hb
    rw [List.getElem?_drop] at hj
    have hlen : limit < (t :: times).length := by
      have := (List.getElem?_eq_some_iff.mp hj).1
      omega
    have hat : (t :: times)[0 + limit]? = some ((t :: times)[limit]) := by
      rw [Nat.zero_add, List.getElem?_eq_getElem hlen]
    have hgap := hfar 0 t _ rfl hat
    rw [Nat.zero_add] at hat
    have hle := le_of_getElem? hsorted (by omega : limit ≤ limit + j) hat hj
    have hb' := of_decide_eq_true hin
    omega
  rw [hback]
  simpa using hfront

/-- Sorted times keep to a limit exactly when those `limit` places apart are far apart. -/
theorem keepsTo_iff_farApart {times : List ℕ} (hsorted : times.Pairwise (· ≤ ·)) :
    KeepsTo W limit times ↔ FarApart W limit times := by
  constructor
  · intro hkeeps i a b ha hb
    by_contra hlt
    -- the `limit + 1` times from the `i`-th on lie in the window from `a` on
    have hlen : i + limit < times.length := (List.getElem?_eq_some_iff.mp hb).1
    have hsub : ((times.drop i).take (limit + 1)).Sublist times :=
      (List.take_sublist _ _).trans (List.drop_sublist _ _)
    have hall : inWindow W a ((times.drop i).take (limit + 1)) =
        (times.drop i).take (limit + 1) := by
      rw [inWindow, List.filter_eq_self]
      intro c hc
      obtain ⟨j, hj⟩ := List.getElem?_of_mem hc
      obtain ⟨hjlen, -⟩ := List.getElem?_eq_some_iff.mp hj
      rw [List.length_take] at hjlen
      rw [List.getElem?_take_of_lt (by omega), List.getElem?_drop] at hj
      have hac := le_of_getElem? hsorted (by omega : i ≤ i + j) ha hj
      have hcb := le_of_getElem? hsorted (by omega : i + j ≤ i + limit) hj hb
      exact decide_eq_true (by omega)
    have hle := (hsub.filter fun t => decide (a ≤ t ∧ t < a + W)).length_le
    have hcount : ((times.drop i).take (limit + 1)).length = limit + 1 := by
      rw [List.length_take, List.length_drop]
      omega
    have hkeep := hkeeps a
    unfold inWindow at hall hkeep
    rw [hall, hcount] at hle
    omega
  · intro hfar x
    induction times with
    | nil => simp [inWindow]
    | cons t times ih =>
      by_cases hx : x ≤ t
      · exact length_inWindow_le_of_head hsorted hfar hx
      · rw [inWindow_cons, if_neg (fun h => hx h.1)]
        exact ih hsorted.of_cons hfar.tail

end Bound

section Fixed

/-- The times cut into windows, each from its first time on. -/
def fixedWindows (W : ℕ) : List ℕ → List (List ℕ)
  | [] => []
  | t :: times =>
    (t :: times.takeWhile (fun u => decide (u < t + W))) ::
      fixedWindows W (times.dropWhile fun u => decide (u < t + W))
termination_by times => times.length
decreasing_by
  have hsub : (times.dropWhile fun u => decide (u < t + W)).Sublist times :=
    List.dropWhile_sublist _
  have hle := hsub.length_le
  simp only [List.length_cons]
  omega

/-- Of two windows, the taken times of the first and those of the second that come `limit`
places after them. -/
def Apart (W limit : ℕ) (first second : List ℕ) : Prop :=
  ∀ i a b, (first.take limit)[i]? = some a →
    (second.take limit)[limit - (first.take limit).length + i]? = some b → a + W ≤ b

/-- Windows in order: each reaches less than `W` from a time of its own, and what follows comes
`W` after that time or later. -/
def Laid (W : ℕ) : List (List ℕ) → Prop
  | [] => True
  | first :: rest => (∃ s ∈ first, (∀ a ∈ first, a < s + W) ∧
      ∀ second ∈ rest, ∀ b ∈ second, s + W ≤ b) ∧ Laid W rest

lemma mem_fixedWindows {times : List ℕ} :
    ∀ window ∈ fixedWindows W times, ∀ t ∈ window, t ∈ times := by
  induction times using fixedWindows.induct W with
  | case1 => simp [fixedWindows]
  | case2 t times ih =>
    rw [fixedWindows]
    intro window hwindow u hu
    rcases List.mem_cons.mp hwindow with rfl | hrest
    · rcases List.mem_cons.mp hu with rfl | hin
      · exact List.mem_cons_self
      · exact List.mem_cons_of_mem _ (List.takeWhile_subset _ hin)
    · exact List.mem_cons_of_mem _ (List.dropWhile_subset _ (ih window hrest u hu))

lemma le_of_mem_dropWhile {times : List ℕ} {bound b : ℕ} (hsorted : times.Pairwise (· ≤ ·))
    (hb : b ∈ times.dropWhile fun u => decide (u < bound)) : bound ≤ b := by
  induction times with
  | nil => simp at hb
  | cons t times ih =>
    rw [List.dropWhile_cons] at hb
    split_ifs at hb with hlt
    · exact ih hsorted.of_cons hb
    · have hle : bound ≤ t := by simpa using hlt
      rcases List.mem_cons.mp hb with rfl | hin
      · exact hle
      · exact hle.trans (List.rel_of_pairwise_cons hsorted hin)

lemma laid_fixedWindows (hW : 0 < W) {times : List ℕ} (hsorted : times.Pairwise (· ≤ ·)) :
    Laid W (fixedWindows W times) := by
  induction times using fixedWindows.induct W with
  | case1 => simp [fixedWindows, Laid]
  | case2 t times ih =>
    rw [fixedWindows]
    have hrest := hsorted.of_cons
    refine ⟨⟨t, List.mem_cons_self, ?_, ?_⟩,
      ih (hrest.sublist (List.dropWhile_sublist _))⟩
    · intro a ha
      rcases List.mem_cons.mp ha with rfl | hin
      · omega
      · simpa using List.mem_takeWhile_imp hin
    · intro second hsecond b hb
      exact le_of_mem_dropWhile hrest (mem_fixedWindows second hsecond b hb)

/-- Times behind a window of at most `limit` are far apart when they are so among themselves and
from the window. -/
lemma farApart_append {front rest : List ℕ} (hfront : front.length ≤ limit) :
    FarApart W limit (front ++ rest) ↔
      (∀ i a b, front[i]? = some a → rest[limit - front.length + i]? = some b → a + W ≤ b) ∧
        FarApart W limit rest := by
  constructor
  · intro hfar
    constructor
    · intro i a b ha hb
      have hi := (List.getElem?_eq_some_iff.mp ha).1
      refine hfar i a b (by rw [List.getElem?_append_left hi]; exact ha) ?_
      rw [List.getElem?_append_right (by omega)]
      rwa [show i + limit - front.length = limit - front.length + i by omega]
    · intro i a b ha hb
      refine hfar (front.length + i) a b ?_ ?_
      · rw [List.getElem?_append_right (by omega)]
        rwa [show front.length + i - front.length = i by omega]
      · rw [List.getElem?_append_right (by omega)]
        rwa [show front.length + i + limit - front.length = i + limit by omega]
  · rintro ⟨hedge, hfar⟩ i a b ha hb
    by_cases hi : i < front.length
    · rw [List.getElem?_append_left hi] at ha
      rw [List.getElem?_append_right (by omega)] at hb
      refine hedge i a b ha ?_
      rwa [show limit - front.length + i = i + limit - front.length by omega]
    · rw [List.getElem?_append_right (by omega)] at ha hb
      refine hfar (i - front.length) a b ha ?_
      rwa [show i - front.length + limit = i + limit - front.length by omega]

/-- Between neighbours only: what comes after the next window is far from this one anyway. -/
lemma edge_iff_apart {first second : List ℕ} {rest : List (List ℕ)}
    (hlaid : Laid W (first :: second :: rest)) :
    (∀ i a b, (first.take limit)[i]? = some a →
      ((second :: rest).flatMap (List.take limit))[limit - (first.take limit).length + i]? =
        some b → a + W ≤ b) ↔ Apart W limit first second := by
  obtain ⟨⟨s, -, hreach, hafter⟩, ⟨s', hs', -, hafter'⟩, -⟩ := hlaid
  rw [List.flatMap_cons]
  constructor
  · intro hedge i a b ha hb
    have hlt := (List.getElem?_eq_some_iff.mp hb).1
    refine hedge i a b ha ?_
    rwa [List.getElem?_append_left hlt]
  · intro hapart i a b ha hb
    by_cases hlt : limit - (first.take limit).length + i < (second.take limit).length
    · rw [List.getElem?_append_left hlt] at hb
      exact hapart i a b ha hb
    · rw [List.getElem?_append_right (by omega)] at hb
      obtain ⟨third, hthird, hb⟩ := List.mem_flatMap.mp (List.mem_of_getElem? hb)
      have ha' := hreach a (List.mem_of_mem_take (List.mem_of_getElem? ha))
      have hnext := hafter second List.mem_cons_self s' hs'
      have hb' := hafter' third hthird b (List.mem_of_mem_take hb)
      omega

lemma farApart_flatMap_take {windows : List (List ℕ)} (hlaid : Laid W windows) :
    FarApart W limit (windows.flatMap (List.take limit)) ↔
      windows.IsChain (Apart W limit) := by
  induction windows with
  | nil => simp [FarApart]
  | cons first rest ih =>
    rw [List.flatMap_cons, farApart_append (List.length_take_le _ _), ih hlaid.2]
    cases rest with
    | nil => simp
    | cons second rest => rw [List.isChain_cons_cons, edge_iff_apart hlaid]

lemma flatMap_take_sublist (limit : ℕ) (times : List ℕ) :
    ((fixedWindows W times).flatMap (List.take limit)).Sublist times := by
  induction times using fixedWindows.induct W with
  | case1 => simp [fixedWindows]
  | case2 t times ih =>
    rw [fixedWindows, List.flatMap_cons]
    have hfront : ((t :: times.takeWhile fun u => decide (u < t + W)).take limit).Sublist
        (t :: times.takeWhile fun u => decide (u < t + W)) := List.take_sublist _ _
    have happend := hfront.append ih
    rwa [List.cons_append, List.takeWhile_append_dropWhile] at happend

/-- The first `limit` times of every fixed window keep to the limit in all windows exactly when
the neighbouring fixed windows are apart. -/
theorem keepsTo_fixedWindows_iff (hW : 0 < W) {times : List ℕ}
    (hsorted : times.Pairwise (· ≤ ·)) :
    KeepsTo W limit ((fixedWindows W times).flatMap (List.take limit)) ↔
      (fixedWindows W times).IsChain (Apart W limit) := by
  rw [keepsTo_iff_farApart (hsorted.sublist (flatMap_take_sublist limit times)),
    farApart_flatMap_take (laid_fixedWindows hW hsorted)]

end Fixed

end Appspine.SlidingWindow
