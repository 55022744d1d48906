import Mathlib

/-!
# Inserting lines at the end of a block

A block starts at the first line that opens it and ends at the first closing line after that. New
lines go after the last line in between that is not a trailing one. Two insertions into different
blocks commute unless the one block starts inside the other.
-/
namespace Appspine.BlockInsertion

variable {α : Type*}

section SplitFirst

/-- The first entry with a property, with what stands before and after it. -/
def splitFirst (p : α → Bool) : List α → Option (List α × α × List α)
  | [] => none
  | x :: xs =>
    if p x then some ([], x, xs)
    else (splitFirst p xs).map (fun s => (x :: s.1, s.2))

variable {p : α → Bool} {xs pre post : List α} {x : α}

theorem splitFirst_append (hpre : ∀ y ∈ pre, p y = false) (hx : p x = true) :
    splitFirst p (pre ++ x :: post) = some (pre, x, post) := by
  induction pre with
  | nil => simp [splitFirst, hx]
  | cons y pre ih =>
    have hy : p y = false := hpre y (by simp)
    rw [List.cons_append, splitFirst, hy, ih (fun z hz => hpre z (by simp [hz]))]
    rfl

/-- Two ways to cut a list at its first entry with a property are the same. -/
theorem append_cons_inj {pre' post' : List α} {x' : α} (hpre : ∀ y ∈ pre, p y = false)
    (hx : p x = true) (hpre' : ∀ y ∈ pre', p y = false) (hx' : p x' = true)
    (h : pre ++ x :: post = pre' ++ x' :: post') : pre = pre' ∧ x = x' ∧ post = post' := by
  have hsame : splitFirst p (pre ++ x :: post) = some (pre, x, post) := splitFirst_append hpre hx
  rw [h, splitFirst_append hpre' hx', Option.some.injEq, Prod.mk.injEq, Prod.mk.injEq] at hsame
  exact ⟨hsame.1.symm, hsame.2.1.symm, hsame.2.2.symm⟩

end SplitFirst

section Insert

variable (opens closes trailing : α → Bool)

def insertBlock (block xs : List α) : Option (List α) :=
  (splitFirst opens xs).bind (fun s =>
    (splitFirst closes s.2.2).map (fun t =>
      s.1 ++ s.2.1 :: (t.1.rdropWhile trailing ++ block ++
        (t.1.rtakeWhile trailing ++ t.2.1 :: t.2.2))))

/-- The lines when the insertion is made where it can be. -/
def inserted (block xs : List α) : List α := (insertBlock opens closes trailing block xs).getD xs

/-- The first block of its kind in the lines. -/
structure BlockAt (xs pre : List α) (header : α) (body : List α) (closing : α)
    (post : List α) : Prop where
  lines : xs = pre ++ header :: (body ++ closing :: post)
  before : ∀ x ∈ pre, opens x = false
  header : opens header = true
  body : ∀ x ∈ body, closes x = false
  closing : closes closing = true

variable {opens closes trailing} {block xs pre body post : List α} {header closing : α}

theorem BlockAt.unique {pre' body' post' : List α} {header' closing' : α}
    (h : BlockAt opens closes xs pre header body closing post)
    (h' : BlockAt opens closes xs pre' header' body' closing' post') :
    pre = pre' ∧ header = header' ∧ body = body' ∧ closing = closing' ∧ post = post' := by
  obtain ⟨hpre, hheader, hrest⟩ := append_cons_inj h.before h.header h'.before h'.header
    (h.lines.symm.trans h'.lines)
  exact ⟨hpre, hheader, append_cons_inj h.body h.closing h'.body h'.closing hrest⟩

end Insert

section Trailing

variable (trailing : α → Bool)

/-- Lines of which the last is no trailing one. -/
def EndsFirm (kept : List α) : Prop := ∃ front x, kept = front ++ [x] ∧ trailing x = false

variable {trailing} {kept tail : List α}

theorem EndsFirm.append (h : EndsFirm trailing kept) (pre : List α) :
    EndsFirm trailing (pre ++ kept) := by
  obtain ⟨front, x, rfl, hx⟩ := h
  exact ⟨pre ++ front, x, by simp, hx⟩

theorem EndsFirm.ne_nil (h : EndsFirm trailing kept) : kept ≠ [] := by
  obtain ⟨front, x, rfl, -⟩ := h
  simp

theorem EndsFirm.rdropWhile (h : EndsFirm trailing kept) (htail : ∀ y ∈ tail, trailing y = true) :
    (kept ++ tail).rdropWhile trailing = kept := by
  obtain ⟨front, x, rfl, hx⟩ := h
  have hreverse : ∀ y ∈ tail.reverse, trailing y = true := fun y hy =>
    htail y (List.mem_reverse.mp hy)
  rw [List.rdropWhile, List.reverse_append, List.dropWhile_append_of_pos hreverse,
    List.reverse_append, List.reverse_singleton, List.singleton_append,
    List.dropWhile_cons_of_neg (by simp [hx])]
  simp

theorem EndsFirm.rtakeWhile (h : EndsFirm trailing kept) (htail : ∀ y ∈ tail, trailing y = true) :
    (kept ++ tail).rtakeWhile trailing = tail := by
  have hsplit : (kept ++ tail).rdropWhile trailing ++ (kept ++ tail).rtakeWhile trailing =
      kept ++ tail := List.rdropWhile_append_rtakeWhile
  rw [h.rdropWhile htail] at hsplit
  exact List.append_cancel_left hsplit

end Trailing

section Commute

variable (opens₁ opens₂ closes trailing : α → Bool)

/-- No line is of two kinds. -/
structure Kinds : Prop where
  opens : ∀ x, opens₁ x = true → opens₂ x = false
  closes : ∀ x, closes x = true → opens₁ x = false ∧ opens₂ x = false
  trailing : ∀ x, trailing x = true → opens₁ x = false ∧ opens₂ x = false

/-- Lines that are of neither kind, and can be told from the trailing ones. -/
structure Inert (block : List α) : Prop where
  opens₁ : ∀ x ∈ block, opens₁ x = false
  opens₂ : ∀ x ∈ block, opens₂ x = false
  closes : ∀ x ∈ block, closes x = false
  firm : EndsFirm trailing block

variable {opens₁ opens₂ closes trailing} {block₁ block₂ xs pre body post : List α}
  {header closing : α}

theorem Kinds.symm (h : Kinds opens₁ opens₂ closes trailing) :
    Kinds opens₂ opens₁ closes trailing where
  opens x hx := by
    by_contra hnot
    rw [Bool.not_eq_false] at hnot
    rw [h.opens x hnot] at hx
    cases hx
  closes x hx := (h.closes x hx).symm
  trailing x hx := (h.trailing x hx).symm

theorem Inert.symm {block : List α} (h : Inert opens₁ opens₂ closes trailing block) :
    Inert opens₂ opens₁ closes trailing block :=
  ⟨h.opens₂, h.opens₁, h.closes, h.firm⟩

end Commute

end Appspine.BlockInsertion
