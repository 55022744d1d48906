import Appspine.LongestCommon
import Appspine.PrismaText

/-!
# The diff of a planned change

`diffLines`, a walk over the table of longest common subsequences, and `renderDiff`, which shows what
it adds and removes with some lines around.
-/
namespace Appspine.Plan
open JsText LongestCommon
open Prisma (textLines lineFeed)

section Diff

structure FileChange where
  file : JsString
  before : Option JsString
  after : JsString

inductive DiffKind where
  | same
  | add
  | remove
  deriving DecidableEq

structure DiffOp where
  kind : DiffKind
  line : JsString

/-- The two lists walked from a row and a column of the table on. -/
def walk (lcs : ℕ → ℕ → ℕ) (row column : ℕ) : List JsString → List JsString → List DiffOp
  | [], [] => []
  | b :: before, [] => ⟨.remove, b⟩ :: walk lcs (row + 1) column before []
  | [], a :: after => ⟨.add, a⟩ :: walk lcs row (column + 1) [] after
  | b :: before, a :: after =>
    if b = a then ⟨.same, b⟩ :: walk lcs (row + 1) (column + 1) before after
    else if lcs row (column + 1) ≤ lcs (row + 1) column then
      ⟨.remove, b⟩ :: walk lcs (row + 1) column before (a :: after)
    else ⟨.add, a⟩ :: walk lcs row (column + 1) (b :: before) after
termination_by before after => before.length + after.length

def diffLines (before after : List JsString) : List DiffOp :=
  walk (fun row column => ((table after before).getD row []).getD column 0) 0 0 before after

/-- The lines of one side: what is the same, and what that side has alone. -/
def spelled (own : DiffKind) (ops : List DiffOp) : List JsString :=
  (ops.filter (fun op => op.kind = .same ∨ op.kind = own)).map DiffOp.line

def sameOps (ops : List DiffOp) : List DiffOp := ops.filter (fun op => op.kind = .same)

/-- From a row and a column on, the table holds the lengths for these lists. -/
def Tabulates (lcs : ℕ → ℕ → ℕ) (row column : ℕ) (before after : List JsString) : Prop :=
  ∀ i ≤ before.length, ∀ j ≤ after.length,
    lcs (row + i) (column + j) = commonLength (before.drop i) (after.drop j)

lemma Tabulates.down {lcs : ℕ → ℕ → ℕ} {row column : ℕ} {b : JsString} {before after : List JsString}
    (h : Tabulates lcs row column (b :: before) after) :
    Tabulates lcs (row + 1) column before after := by
  intro i hi j hj
  have hentry := h (i + 1) (by simpa using hi) j hj
  rwa [show row + (i + 1) = row + 1 + i by omega] at hentry

lemma Tabulates.right {lcs : ℕ → ℕ → ℕ} {row column : ℕ} {a : JsString} {before after : List JsString}
    (h : Tabulates lcs row column before (a :: after)) :
    Tabulates lcs row (column + 1) before after := by
  intro i hi j hj
  have hentry := h i hi (j + 1) (by simpa using hj)
  rwa [show column + (j + 1) = column + 1 + j by omega] at hentry

lemma Tabulates.here {lcs : ℕ → ℕ → ℕ} {row column : ℕ} {before after : List JsString}
    (h : Tabulates lcs row column before after) : lcs row column = commonLength before after :=
  h 0 (by omega) 0 (by omega)

lemma tabulates_table (before after : List JsString) :
    Tabulates (fun row column => ((table after before).getD row []).getD column 0) 0 0 before after := by
  intro i hi j hj
  simpa using table_get before after hi hj

/-- What a walk over the right table gives. -/
lemma walk_spec {lcs : ℕ → ℕ → ℕ} {row column : ℕ} {before after : List JsString}
    (h : Tabulates lcs row column before after) :
    spelled .remove (walk lcs row column before after) = before ∧
      spelled .add (walk lcs row column before after) = after ∧
      (sameOps (walk lcs row column before after)).length = commonLength before after := by
  induction row, column, before, after using walk.induct lcs with
  | case1 row column => simp [walk, spelled, sameOps]
  | case2 row column b before ih =>
    obtain ⟨hbefore, hafter, hsame⟩ := ih h.down
    rw [walk]
    refine ⟨congrArg (b :: ·) hbefore, hafter, ?_⟩
    rw [commonLength_nil_right] at hsame ⊢
    exact hsame
  | case3 row column a after ih =>
    obtain ⟨hbefore, hafter, hsame⟩ := ih h.right
    rw [walk]
    refine ⟨hbefore, congrArg (a :: ·) hafter, ?_⟩
    rw [commonLength_nil_left] at hsame ⊢
    exact hsame
  | case4 row column before a after ih =>
    obtain ⟨hbefore, hafter, hsame⟩ := ih h.down.right
    rw [walk, if_pos rfl, commonLength_cons, if_pos rfl]
    exact ⟨congrArg (a :: ·) hbefore, congrArg (a :: ·) hafter, congrArg (· + 1) hsame⟩
  | case5 row column b before a after hne hle ih =>
    obtain ⟨hbefore, hafter, hsame⟩ := ih h.down
    rw [walk, if_neg hne, if_pos hle, commonLength_cons, if_neg hne]
    rw [h.right.here, h.down.here] at hle
    exact ⟨congrArg (b :: ·) hbefore, hafter, hsame.trans (max_eq_left hle).symm⟩
  | case6 row column b before a after hne hle ih =>
    obtain ⟨hbefore, hafter, hsame⟩ := ih h.right
    rw [walk, if_neg hne, if_neg hle, commonLength_cons, if_neg hne]
    rw [h.right.here, h.down.here] at hle
    exact ⟨hbefore, congrArg (a :: ·) hafter, hsame.trans (max_eq_right (by omega)).symm⟩

lemma walk_self (lcs : ℕ → ℕ → ℕ) (row column : ℕ) (lines : List JsString) :
    walk lcs row column lines lines = lines.map (DiffOp.mk .same) := by
  induction lines generalizing row column with
  | nil => rw [walk]; rfl
  | cons line lines ih => rw [walk, if_pos rfl, ih, List.map_cons]

/-- The diff spells both lists, with as many lines the same as can be. -/
lemma diffLines_spec (before after : List JsString) :
    spelled .remove (diffLines before after) = before ∧
      spelled .add (diffLines before after) = after ∧
      IsLongestCommon before after (sameOps (diffLines before after)).length := by
  obtain ⟨hbefore, hafter, hsame⟩ := walk_spec (tabulates_table before after)
  exact ⟨hbefore, hafter, hsame ▸ isLongestCommon_commonLength before after⟩

end Diff

section Render

/-- The positions of what is added or removed. -/
def interesting (ops : List DiffOp) : List ℕ :=
  (ops.zipIdx.filter (fun e => e.1.kind ≠ .same)).map Prod.snd

/-- The position is within the context of one of these. -/
def keeps (context : ℕ) (positions : List ℕ) (index : ℕ) : Bool :=
  positions.any (fun at_ => decide (at_ ≤ index + context ∧ index ≤ at_ + context))

def opLine (op : DiffOp) : JsString :=
  (match op.kind with
    | .same => js " "
    | .add => js "+"
    | .remove => js "-") ++ op.line

/-- The kept lines, with a separator where lines between two of them are left out. -/
def hunkLines (keep : ℕ → Bool) : List (DiffOp × ℕ) → Option ℕ → List JsString
  | [], _ => []
  | (op, index) :: ops, previous =>
    if keep index then
      (if previous.any (fun p => decide (p + 1 < index)) then [js "@@"] else []) ++
        opLine op :: hunkLines keep ops (some index)
    else hunkLines keep ops previous

/-- The lines of a text; a file that is not there has none. -/
def beforeLines (before : Option JsString) : List JsString := before.elim [] textLines

def changeOps (change : FileChange) : List DiffOp :=
  diffLines (beforeLines change.before) (textLines change.after)

def hunks (change : FileChange) (context : ℕ) : List JsString :=
  hunkLines (keeps context (interesting (changeOps change))) (changeOps change).zipIdx none

def renderDiff (change : FileChange) (context : ℕ) : JsString :=
  if interesting (changeOps change) = [] then []
  else join [lineFeed]
    ((js "--- a/" ++ change.file) :: (js "+++ b/" ++ change.file) :: hunks change context)

lemma keeps_self (context : ℕ) {positions : List ℕ} {index : ℕ} (h : index ∈ positions) :
    keeps context positions index = true := by
  rw [keeps, List.any_eq_true]
  exact ⟨index, h, by simp⟩

lemma opLine_ne (op : DiffOp) : opLine op ≠ js "@@" := by
  obtain ⟨kind, line⟩ := op
  intro h
  cases kind with
  | same => exact absurd (List.cons.inj (h : unit ' ' :: line = unit '@' :: [unit '@'])).1 (by decide)
  | add => exact absurd (List.cons.inj (h : unit '+' :: line = unit '@' :: [unit '@'])).1 (by decide)
  | remove =>
    exact absurd (List.cons.inj (h : unit '-' :: line = unit '@' :: [unit '@'])).1 (by decide)

/-- Separators apart, the hunks are the kept ops in order. -/
lemma hunkLines_shown (keep : ℕ → Bool) (ops : List (DiffOp × ℕ)) (previous : Option ℕ) :
    (hunkLines keep ops previous).filter (· ≠ js "@@") =
      (ops.filter (fun e => keep e.2)).map (fun e => opLine e.1) := by
  induction ops generalizing previous with
  | nil => rfl
  | cons e ops ih =>
    obtain ⟨op, index⟩ := e
    have hop : decide (opLine op ≠ js "@@") = true := decide_eq_true (opLine_ne op)
    have hseparator : decide (js "@@" ≠ js "@@") = false := by decide
    rw [hunkLines, List.filter_cons]
    split_ifs with hkeep hgap
    · simp only [List.singleton_append, List.filter_cons, hseparator, hop, if_true, ih,
        List.map_cons, Bool.false_eq_true, if_false]
    · simp only [List.nil_append, List.filter_cons, hop, if_true, ih, List.map_cons]
    · exact ih previous

lemma interesting_eq_nil {ops : List DiffOp} :
    interesting ops = [] ↔ ∀ op ∈ ops, op.kind = .same := by
  rw [interesting, List.map_eq_nil_iff, List.filter_eq_nil_iff]
  constructor
  · intro h op hop
    obtain ⟨index, hindex⟩ := List.mem_iff_getElem?.mp hop
    simpa using h (op, index) (List.mk_mem_zipIdx_iff_getElem?.mpr hindex)
  · intro h e he
    simpa using h e.1 (List.fst_mem_of_mem_zipIdx he)

/-- Nothing is added or removed exactly when both texts are there and equal. -/
lemma interesting_changeOps {change : FileChange} :
    interesting (changeOps change) = [] ↔ change.before = some change.after := by
  obtain ⟨hbefore, hafter, hlongest⟩ :=
    diffLines_spec (beforeLines change.before) (textLines change.after)
  rw [interesting_eq_nil]
  constructor
  · intro hall
    have hspelled : ∀ own, spelled own (changeOps change) = (changeOps change).map DiffOp.line := by
      intro own
      rw [spelled, List.filter_eq_self.mpr]
      intro op hop
      simp [hall op hop]
    have hlines : beforeLines change.before = textLines change.after :=
      hbefore.symm.trans (((hspelled .remove).trans (hspelled .add).symm).trans hafter)
    cases hfile : change.before with
    | none =>
      rw [hfile] at hlines
      exact absurd hlines.symm (Prisma.textLines_ne_nil _)
    | some text =>
      rw [hfile] at hlines
      have hjoined := congrArg (join [lineFeed]) hlines
      exact congrArg some (by simpa [beforeLines, Prisma.join_textLines] using hjoined)
  · intro hsame
    have hlines : beforeLines change.before = textLines change.after := by rw [hsame]; rfl
    rw [changeOps, hlines, diffLines, walk_self, List.forall_mem_map]
    exact fun _ _ => rfl

lemma renderDiff_eq_nil {change : FileChange} {context : ℕ} :
    renderDiff change context = [] ↔ change.before = some change.after := by
  rw [← interesting_changeOps, renderDiff]
  split_ifs with hnone
  · exact iff_of_true rfl hnone
  · refine iff_of_false (fun hempty => ?_) hnone
    have hheader := congrArg List.length hempty
    rw [join_cons_cons] at hheader
    simp [js, encodeChar] at hheader

/-- The ops that are shown: in order, and all that add or remove. -/
lemma hunks_shown (change : FileChange) (context : ℕ) :
    ∃ shown : List DiffOp, shown.Sublist (changeOps change) ∧
      shown.filter (fun op => op.kind ≠ .same) =
        (changeOps change).filter (fun op => op.kind ≠ .same) ∧
      (hunks change context).filter (· ≠ js "@@") = shown.map opLine := by
  set ops := changeOps change with hops
  set keep := keeps context (interesting ops) with hkeep
  have hfst : ops.zipIdx.map Prod.fst = ops := List.zipIdx_map_fst 0 ops
  refine ⟨(ops.zipIdx.filter (fun e => keep e.2)).map Prod.fst, ?_, ?_, ?_⟩
  · have hsub := (List.filter_sublist (p := fun e : DiffOp × ℕ => keep e.2)
      (l := ops.zipIdx)).map Prod.fst
    rwa [hfst] at hsub
  · have hkept : (ops.zipIdx.filter (fun e => keep e.2)).filter (fun e => e.1.kind ≠ .same) =
        ops.zipIdx.filter (fun e => e.1.kind ≠ .same) := by
      rw [List.filter_filter]
      refine List.filter_congr fun e he => ?_
      by_cases hsame : e.1.kind = .same
      · simp [hsame]
      · have hpos : e.2 ∈ interesting ops :=
          List.mem_map_of_mem (List.mem_filter.mpr ⟨he, decide_eq_true hsame⟩)
        rw [hkeep, keeps_self context hpos, Bool.and_true]
    rw [List.filter_map, ← hfst, List.filter_map, hfst]
    exact congrArg (List.map Prod.fst) hkept
  · rw [hunks, hunkLines_shown, List.map_map]
    rfl

/-- `diffLines` spells both lists with as many common lines as there can be, and `renderDiff` shows
all that is added or removed, in order, and nothing exactly for equal texts. -/
theorem diff_correct :
    (∀ before after : List JsString,
      spelled .remove (diffLines before after) = before ∧
      spelled .add (diffLines before after) = after ∧
      IsLongestCommon before after (sameOps (diffLines before after)).length) ∧
    ∀ (change : FileChange) (context : ℕ),
      (renderDiff change context = [] ↔ change.before = some change.after) ∧
      (renderDiff change context ≠ [] → renderDiff change context = join [lineFeed]
        ((js "--- a/" ++ change.file) :: (js "+++ b/" ++ change.file) :: hunks change context)) ∧
      ∃ shown : List DiffOp, shown.Sublist (changeOps change) ∧
        shown.filter (fun op => op.kind ≠ .same) =
          (changeOps change).filter (fun op => op.kind ≠ .same) ∧
        (hunks change context).filter (· ≠ js "@@") = shown.map opLine := by
  refine ⟨diffLines_spec, fun change context => ⟨renderDiff_eq_nil, fun hne => ?_,
    hunks_shown change context⟩⟩
  rw [renderDiff] at hne ⊢
  split_ifs at hne ⊢ with hnone
  · exact absurd rfl hne
  · rfl

end Render

end Appspine.Plan
