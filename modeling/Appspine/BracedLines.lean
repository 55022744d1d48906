import Mathlib

/-!
# Text in braced blocks

Lines, some of which open a named block and some of which close one. What a block contains is
read off by going through the lines once, remembering the block that is open.
-/
namespace Appspine.BracedLines

inductive LineKind (κ : Type*) where
  | opens (name : κ)
  | closes
  | plain

section Scan

variable {α κ : Type*} (kind : α → LineKind κ)

/-- The block that is open after a line. -/
def next (current : Option κ) (line : α) : Option κ :=
  match kind line with
  | .opens name => some name
  | .closes => none
  | .plain => current

def openAfter (current : Option κ) (lines : List α) : Option κ := lines.foldl (next kind) current

/-- What a line adds to the contents of the open block. -/
def content (current : Option κ) (line : α) : List (κ × α) :=
  match kind line with
  | .plain => current.toList.map (fun name => (name, line))
  | _ => []

/-- The plain lines, each with the block it stands in. -/
def contents : Option κ → List α → List (κ × α)
  | _, [] => []
  | current, line :: lines => content kind current line ++ contents (next kind current line) lines

def opening (line : α) : Option κ :=
  match kind line with
  | .opens name => some name
  | _ => none

/-- The names of the blocks, in order. -/
def opened (lines : List α) : List κ := lines.filterMap (opening kind)

/-- Every block is closed before another one is opened. -/
def Balanced : Option κ → List α → Prop
  | current, [] => current = none
  | current, line :: lines =>
    ((opening kind line).isSome = true → current = none) ∧
      Balanced (next kind current line) lines

instance decidableBalanced : ∀ current lines, Decidable (Balanced kind current lines)
  | current, [] => decidable_of_iff (current.isNone = true) Option.isNone_iff_eq_none
  | current, line :: lines =>
    have := decidableBalanced (next kind current line) lines
    have : Decidable (current = none) := decidable_of_iff (current.isNone = true)
      Option.isNone_iff_eq_none
    inferInstanceAs (Decidable (_ ∧ _))

def AllPlain (lines : List α) : Prop := ∀ line ∈ lines, kind line = .plain

end Scan

section Append

variable {α κ : Type*} {kind : α → LineKind κ} {current : Option κ}

lemma openAfter_append (p q : List α) :
    openAfter kind current (p ++ q) = openAfter kind (openAfter kind current p) q := by
  simp [openAfter]

lemma contents_append (p q : List α) :
    contents kind current (p ++ q) =
      contents kind current p ++ contents kind (openAfter kind current p) q := by
  induction p generalizing current with
  | nil => rfl
  | cons line p ih => simp [contents, ih, openAfter]

lemma opened_append (p q : List α) : opened kind (p ++ q) = opened kind p ++ opened kind q := by
  simp [opened]

lemma balanced_drop {p q : List α} (h : Balanced kind current (p ++ q)) :
    Balanced kind (openAfter kind current p) q := by
  induction p generalizing current with
  | nil => exact h
  | cons line p ih => exact ih h.2

end Append

section Plain

variable {α κ : Type*} {kind : α → LineKind κ} {current : Option κ} {b : List α}

lemma next_plain {line : α} (h : kind line = .plain) : next kind current line = current := by
  simp [next, h]

lemma openAfter_plain (h : AllPlain kind b) : openAfter kind current b = current := by
  induction b with
  | nil => rfl
  | cons line b ih =>
    have hline : kind line = .plain := h line (by simp)
    have hrest : AllPlain kind b := fun l hl => h l (by simp [hl])
    rw [openAfter, List.foldl_cons, next_plain hline]
    exact ih hrest

lemma contents_plain (h : AllPlain kind b) (name : κ) :
    contents kind (some name) b = b.map (fun line => (name, line)) := by
  induction b with
  | nil => rfl
  | cons line b ih =>
    have hline : kind line = .plain := h line (by simp)
    have hrest : AllPlain kind b := fun l hl => h l (by simp [hl])
    rw [contents, next_plain hline, ih hrest, List.map_cons]
    simp [content, hline]

lemma opened_plain (h : AllPlain kind b) : opened kind b = [] := by
  rw [opened, List.filterMap_eq_nil_iff]
  intro line hline
  simp [opening, h line hline]

end Plain

section Insert

variable {α κ : Type*} {kind : α → LineKind κ} {current : Option κ} {p b q : List α} {name : κ}

/-- Plain lines put into an open block are added to its contents. -/
lemma contents_insert (hb : AllPlain kind b) (hp : openAfter kind current p = some name) :
    (contents kind current (p ++ b ++ q)).Perm
      (b.map (fun line => (name, line)) ++ contents kind current (p ++ q)) := by
  rw [contents_append, contents_append, openAfter_append, openAfter_plain hb, hp,
    contents_plain hb, contents_append, hp]
  rw [← List.append_assoc]
  exact List.perm_append_comm.append_right _

lemma opened_insert (hb : AllPlain kind b) : opened kind (p ++ b ++ q) = opened kind (p ++ q) := by
  simp [opened_append, opened_plain hb]

lemma openAfter_insert (hb : AllPlain kind b) :
    openAfter kind current (p ++ b ++ q) = openAfter kind current (p ++ q) := by
  simp [openAfter_append, openAfter_plain hb]

lemma balanced_insert (hb : AllPlain kind b) (h : Balanced kind current (p ++ q)) :
    Balanced kind current (p ++ b ++ q) := by
  induction p generalizing current with
  | nil =>
    induction b with
    | nil => exact h
    | cons line b ih =>
      have hline : kind line = .plain := hb line (by simp)
      refine ⟨by simp [opening, hline], ?_⟩
      rw [next_plain hline]
      exact ih (fun l hl => hb l (by simp [hl]))
  | cons line p ih => exact ⟨h.1, ih h.2⟩

end Insert

section Find

variable {α κ : Type*} {kind : α → LineKind κ} {current : Option κ}

/-- From inside a block, the lines up to the closing one are plain. -/
lemma exists_close {lines : List α} {name : κ} (h : Balanced kind (some name) lines) :
    ∃ body closing rest, lines = body ++ closing :: rest ∧ AllPlain kind body ∧
      kind closing = .closes := by
  induction lines with
  | nil => cases h
  | cons line lines ih =>
    cases hkind : kind line with
    | opens other =>
      have hnone := h.1 (by simp [opening, hkind])
      cases hnone
    | closes => exact ⟨[], line, lines, rfl, by simp [AllPlain], hkind⟩
    | plain =>
      have hrest := h.2
      rw [next_plain hkind] at hrest
      obtain ⟨body, closing, rest, rfl, hbody, hclosing⟩ := ih hrest
      refine ⟨line :: body, closing, rest, rfl, ?_, hclosing⟩
      intro l hl
      rcases List.mem_cons.mp hl with rfl | hl
      · exact hkind
      · exact hbody l hl

/-- A balanced text has nothing open after its last line. -/
lemma openAfter_balanced {lines : List α} (h : Balanced kind current lines) :
    openAfter kind current lines = none := by
  induction lines generalizing current with
  | nil => exact h
  | cons line lines ih => exact ih h.2

lemma balanced_take {p q : List α} (h : Balanced kind current (p ++ q))
    (hp : openAfter kind current p = none) : Balanced kind current p := by
  induction p generalizing current with
  | nil => exact hp
  | cons line p ih => exact ⟨h.1, ih h.2 hp⟩

/-- Balanced texts put together are balanced. -/
lemma Balanced.append {p q : List α} (hp : Balanced kind current p) (hq : Balanced kind none q) :
    Balanced kind current (p ++ q) := by
  induction p generalizing current with
  | nil =>
    obtain rfl : current = none := hp
    exact hq
  | cons line p ih => exact ⟨hp.1, ih hp.2⟩

lemma balanced_of_plain {b : List α} (h : AllPlain kind b) : Balanced kind none b := by
  induction b with
  | nil => rfl
  | cons line b ih =>
    have hline : kind line = .plain := h line (by simp)
    refine ⟨fun _ => rfl, ?_⟩
    rw [next_plain hline]
    exact ih (fun l hl => h l (by simp [hl]))

lemma contents_plain_none {b : List α} (h : AllPlain kind b) : contents kind none b = [] := by
  induction b with
  | nil => rfl
  | cons line b ih =>
    have hline : kind line = .plain := h line (by simp)
    rw [contents, next_plain hline, ih (fun l hl => h l (by simp [hl]))]
    simp [content, hline]

/-- Only the blocks that are opened have contents. -/
lemma mem_opened_of_contents {lines : List α} {name : κ} {line : α}
    (h : (name, line) ∈ contents kind current lines) :
    current = some name ∨ name ∈ opened kind lines := by
  induction lines generalizing current with
  | nil => simp [contents] at h
  | cons l lines ih =>
    rw [contents, List.mem_append] at h
    rcases h with h | h
    · cases hkind : kind l <;> simp [content, hkind] at h
      exact .inl h.1
    · rcases ih h with hcurrent | hlater
      · cases hkind : kind l with
        | opens other =>
          rw [next, hkind, Option.some.injEq] at hcurrent
          exact .inr (by simp [opened, opening, hkind, hcurrent])
        | closes => simp [next, hkind] at hcurrent
        | plain => exact .inl (by simpa [next, hkind] using hcurrent)
      · right
        rw [opened] at hlater ⊢
        rw [List.filterMap_cons]
        split
        · exact hlater
        · exact List.mem_cons_of_mem _ hlater

/-- Contents are plain lines. -/
lemma plain_of_contents {lines : List α} {name : κ} {line : α}
    (h : (name, line) ∈ contents kind current lines) : kind line = .plain ∧ line ∈ lines := by
  induction lines generalizing current with
  | nil => simp [contents] at h
  | cons l lines ih =>
    rw [contents, List.mem_append] at h
    rcases h with h | h
    · cases hkind : kind l <;> simp [content, hkind] at h
      obtain ⟨_, rfl⟩ := h
      exact ⟨hkind, by simp⟩
    · exact ⟨(ih h).1, List.mem_cons_of_mem _ (ih h).2⟩

end Find

end Appspine.BracedLines
