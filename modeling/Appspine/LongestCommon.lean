import Mathlib

/-!
# Longest common subsequences

The length of a longest common subsequence by the usual recurrence, and the table of the lengths
for all pairs of suffixes, filled from the last row up.
-/
namespace Appspine.LongestCommon

variable {α : Type*}

section Length

variable [DecidableEq α]

/-- The length of a longest list that is a subsequence of both. -/
def commonLength : List α → List α → ℕ
  | [], _ => 0
  | _ :: _, [] => 0
  | x :: xs, y :: ys =>
    if x = y then commonLength xs ys + 1
    else max (commonLength xs (y :: ys)) (commonLength (x :: xs) ys)
termination_by xs ys => xs.length + ys.length

@[simp] lemma commonLength_nil_left (ys : List α) : commonLength [] ys = 0 := by
  rw [commonLength]

@[simp] lemma commonLength_nil_right (xs : List α) : commonLength xs [] = 0 := by
  cases xs <;> rw [commonLength]

lemma commonLength_cons (x y : α) (xs ys : List α) :
    commonLength (x :: xs) (y :: ys) =
      if x = y then commonLength xs ys + 1
      else max (commonLength xs (y :: ys)) (commonLength (x :: xs) ys) := by
  rw [commonLength]

/-- Some common subsequence has this length. -/
lemma exists_common (xs ys : List α) :
    ∃ zs : List α, zs.Sublist xs ∧ zs.Sublist ys ∧ zs.length = commonLength xs ys := by
  induction xs, ys using commonLength.induct with
  | case1 ys => exact ⟨[], by simp, by simp, by simp⟩
  | case2 x xs => exact ⟨[], by simp, by simp, by simp⟩
  | case3 xs y ys ih =>
    obtain ⟨zs, hxs, hys, hlength⟩ := ih
    refine ⟨y :: zs, hxs.cons_cons y, hys.cons_cons y, ?_⟩
    rw [commonLength_cons, if_pos rfl, ← hlength, List.length_cons]
  | case4 x xs y ys hne ihleft ihright =>
    rw [commonLength_cons, if_neg hne]
    rcases le_total (commonLength xs (y :: ys)) (commonLength (x :: xs) ys) with hle | hle
    · obtain ⟨zs, hxs, hys, hlength⟩ := ihright
      exact ⟨zs, hxs, hys.cons y, by rw [hlength, max_eq_right hle]⟩
    · obtain ⟨zs, hxs, hys, hlength⟩ := ihleft
      exact ⟨zs, hxs.cons x, hys, by rw [hlength, max_eq_left hle]⟩

/-- No common subsequence is longer. -/
lemma length_le_commonLength {xs ys zs : List α} (hxs : zs.Sublist xs) (hys : zs.Sublist ys) :
    zs.length ≤ commonLength xs ys := by
  induction xs, ys using commonLength.induct generalizing zs with
  | case1 ys => simp [List.sublist_nil.mp hxs]
  | case2 x xs => simp [List.sublist_nil.mp hys]
  | case3 xs y ys ih =>
    rw [commonLength_cons, if_pos rfl]
    cases zs with
    | nil => simp
    | cons z zs =>
      have htails := ih hxs.tail hys.tail
      simpa using htails
  | case4 x xs y ys hne ihleft ihright =>
    rw [commonLength_cons, if_neg hne]
    cases hxs with
    | cons _ hxs => exact (ihleft hxs hys).trans (le_max_left _ _)
    | cons_cons _ hxs =>
      cases hys with
      | cons _ hys => exact (ihright (hxs.cons_cons x) hys).trans (le_max_right _ _)
      | cons_cons _ hys => exact absurd rfl hne

/-- The length of a longest common subsequence. -/
def IsLongestCommon (xs ys : List α) (n : ℕ) : Prop :=
  (∃ zs : List α, zs.Sublist xs ∧ zs.Sublist ys ∧ zs.length = n) ∧
    ∀ zs : List α, zs.Sublist xs → zs.Sublist ys → zs.length ≤ n

theorem isLongestCommon_commonLength (xs ys : List α) :
    IsLongestCommon xs ys (commonLength xs ys) :=
  ⟨exists_common xs ys, fun _ => length_le_commonLength⟩

end Length

section Table

variable [DecidableEq α]

/-- The row of an element, from the row below it. -/
def row (x : α) : List α → List ℕ → List ℕ
  | [], _ => [0]
  | y :: ys, below =>
    let rest := row x ys below.tail
    (if x = y then below.tail.headD 0 + 1 else max (below.headD 0) (rest.headD 0)) :: rest

/-- All rows: one for each element of the first list, and a last one of zeros. -/
def table (ys : List α) : List α → List (List ℕ)
  | [] => [List.replicate (ys.length + 1) 0]
  | x :: xs =>
    let below := table ys xs
    row x ys (below.headD []) :: below

/-- The lengths for the suffixes of the second list. -/
def lengths (xs : List α) : List α → List ℕ
  | [] => [commonLength xs []]
  | y :: ys => commonLength xs (y :: ys) :: lengths xs ys

lemma headD_lengths (xs ys : List α) : (lengths xs ys).headD 0 = commonLength xs ys := by
  cases ys <;> rfl

lemma row_lengths (x : α) (xs ys : List α) : row x ys (lengths xs ys) = lengths (x :: xs) ys := by
  induction ys with
  | nil => simp [row, lengths]
  | cons y ys ih =>
    have htail : (lengths xs (y :: ys)).tail = lengths xs ys := rfl
    rw [row, htail, ih, headD_lengths, headD_lengths, headD_lengths, ← commonLength_cons]
    rfl

lemma lengths_nil (ys : List α) : lengths [] ys = List.replicate (ys.length + 1) 0 := by
  induction ys with
  | nil => simp [lengths]
  | cons y ys ih => rw [lengths, ih, commonLength_nil_left]; rfl

lemma headD_table (xs ys : List α) : (table ys xs).headD [] = lengths xs ys := by
  induction xs with
  | nil => rw [lengths_nil]; rfl
  | cons x xs ih =>
    have hrow := row_lengths x xs ys
    rw [← ih] at hrow
    exact hrow

/-- Each entry of the table is the length for the suffixes that begin there. -/
theorem table_get (xs ys : List α) {i j : ℕ} (hi : i ≤ xs.length) (hj : j ≤ ys.length) :
    ((table ys xs).getD i []).getD j 0 = commonLength (xs.drop i) (ys.drop j) := by
  have hlengths : ∀ (us vs : List α) (k : ℕ), k ≤ vs.length →
      (lengths us vs).getD k 0 = commonLength us (vs.drop k) := by
    intro us vs
    induction vs with
    | nil =>
      intro k hk
      obtain rfl : k = 0 := by simpa using hk
      rfl
    | cons v vs ih =>
      intro k hk
      cases k with
      | zero => rfl
      | succ k => exact ih k (by simpa using hk)
  have hrows : ∀ (us : List α) (k : ℕ), k ≤ us.length →
      (table ys us).getD k [] = lengths (us.drop k) ys := by
    intro us
    induction us with
    | nil =>
      intro k hk
      obtain rfl : k = 0 := by simpa using hk
      exact (lengths_nil ys).symm
    | cons u us ih =>
      intro k hk
      cases k with
      | zero =>
        rw [← headD_table]
        rfl
      | succ k => exact ih k (by simpa using hk)
  rw [hrows xs i hi, hlengths _ ys j hj]

end Table

end Appspine.LongestCommon
