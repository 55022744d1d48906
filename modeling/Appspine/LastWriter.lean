import Mathlib

/-!
# Newest writer wins, without tombstones

Updates of one cell carry a rank. A write of a higher rank than the cell's replaces it, and a
removal of a higher rank empties it. An empty cell remembers no rank, so whether a cell ends
empty depends on the order in which its updates arrive.
-/
namespace Appspine.LastWriter

variable {E S : Type*} [LinearOrder S] (rank : E → S) (removes : E → Prop) [DecidablePred removes]

/-- One update of a cell that holds the last write it took. -/
def settle (cell : Option E) (e : E) : Option E :=
  match cell with
  | none => if removes e then none else some e
  | some held => if rank e ≤ rank held then some held else if removes e then none else some e

/-- All updates, in the order in which they arrive. -/
def settleAll (cell : Option E) (es : List E) : Option E := es.foldl (settle rank removes) cell

/-- A removal of a higher rank arrives later. -/
def Overtaken (e : E) (later : List E) : Prop := ∃ d ∈ later, removes d ∧ rank e < rank d

/-- Every write is followed by a removal of a higher rank. -/
def WritesOvertaken : List E → Prop
  | [] => True
  | e :: later => (¬ removes e → Overtaken rank removes e later) ∧ WritesOvertaken later

variable {rank removes}

omit [DecidablePred removes] in
lemma Overtaken.of_le {e f : E} {later : List E} (h : Overtaken rank removes f later)
    (hle : rank e ≤ rank f) : Overtaken rank removes e later := by
  obtain ⟨d, hd, hremoves, hlt⟩ := h
  exact ⟨d, hd, hremoves, hle.trans_lt hlt⟩

omit [DecidablePred removes] in
lemma overtaken_cons {e x : E} {later : List E} :
    Overtaken rank removes e (x :: later) ↔
      (removes x ∧ rank e < rank x) ∨ Overtaken rank removes e later := by
  simp [Overtaken]

/-- One more update in front: what it leaves in the cell has to be overtaken instead. -/
lemma overtaken_settle {cell : Option E} {x : E} {later : List E} :
    (∀ held, settle rank removes cell x = some held → Overtaken rank removes held later) ↔
      (∀ held, cell = some held → Overtaken rank removes held (x :: later)) ∧
        (¬ removes x → Overtaken rank removes x later) := by
  cases cell with
  | none => by_cases hx : removes x <;> simp [settle, hx]
  | some held =>
    simp only [Option.some.injEq, forall_eq', overtaken_cons]
    by_cases hle : rank x ≤ rank held
    · simp only [settle, hle, if_true, Option.some.injEq, forall_eq', not_lt.mpr hle, and_false,
        false_or]
      exact ⟨fun h => ⟨h, fun _ => h.of_le hle⟩, fun h => h.1⟩
    · have hlt : rank held < rank x := lt_of_not_ge hle
      by_cases hx : removes x
      · simp [settle, hle, hx, hlt]
      · simp only [settle, hle, hx, if_false, Option.some.injEq, forall_eq', false_and, false_or,
          not_false_eq_true, true_implies]
        exact ⟨fun h => ⟨h.of_le hlt.le, h⟩, fun h => h.2⟩

/-- The cell ends empty exactly when everything it ever held is overtaken. -/
theorem settleAll_eq_none_iff {cell : Option E} {es : List E} :
    settleAll rank removes cell es = none ↔
      (∀ held, cell = some held → Overtaken rank removes held es) ∧
        WritesOvertaken rank removes es := by
  induction es generalizing cell with
  | nil => cases cell <;> simp [settleAll, WritesOvertaken, Overtaken]
  | cons x es ih =>
    have hrun : settleAll rank removes cell (x :: es) =
        settleAll rank removes (settle rank removes cell x) es := rfl
    rw [hrun, ih, overtaken_settle, WritesOvertaken, and_assoc]

/-- A write above every other update is what the cell ends with, wherever it arrives. -/
theorem settleAll_eq_top {top : E} (hwrites : ¬ removes top) {es : List E} {cell : Option E}
    (hes : ∀ e ∈ es, e = top ∨ rank e < rank top)
    (hcell : ∀ held, cell = some held → held = top ∨ rank held < rank top)
    (hthere : cell = some top ∨ top ∈ es) : settleAll rank removes cell es = some top := by
  induction es generalizing cell with
  | nil => simpa [settleAll] using hthere
  | cons x es ih =>
    have hx := hes x (by simp)
    refine ih (fun e he => hes e (List.mem_cons_of_mem _ he)) ?_ ?_
    · intro held hheld
      cases cell with
      | none =>
        simp only [settle] at hheld
        split_ifs at hheld
        exact (Option.some.inj hheld) ▸ hx
      | some before =>
        simp only [settle] at hheld
        split_ifs at hheld
        · exact (Option.some.inj hheld) ▸ hcell before rfl
        · exact (Option.some.inj hheld) ▸ hx
    · rcases hthere with hcell' | hmem
      · left
        have hle : rank x ≤ rank top := by
          rcases hx with rfl | hlt
          · exact le_rfl
          · exact hlt.le
        simp [settle, hcell', hle]
      · rcases List.mem_cons.mp hmem with rfl | hmem
        · left
          cases cell with
          | none => simp [settle, hwrites]
          | some held =>
            rcases hcell held rfl with rfl | hlt
            · simp [settle]
            · simp [settle, not_le.mpr hlt, hwrites]
        · exact Or.inr hmem

end Appspine.LastWriter
