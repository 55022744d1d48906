import Mathlib

/-!
# Tables with a key

A table is a list of rows, each found under its key. Rows are added at the end, changed in place
and deleted; rows of other tables refer to them by key.
-/
namespace Appspine.KeyedTable

variable {α β κ : Type} [DecidableEq κ]

section Rows

variable (key : α → κ)

def lookup (k : κ) (rows : List α) : Option α := rows.find? (fun row => decide (key row = k))

/-- The rows under the key take new values. -/
def update (k : κ) (f : α → α) (rows : List α) : List α :=
  rows.map (fun row => if key row = k then f row else row)

def delete (k : κ) (rows : List α) : List α := rows.filter (fun row => decide (key row ≠ k))

end Rows

section Lemmas

variable {key : α → κ} {k : κ} {f : α → α} {row : α} {rows : List α}

theorem mem_of_lookup (h : lookup key k rows = some row) : row ∈ rows ∧ key row = k := by
  have hkey := List.find?_some h
  exact ⟨List.mem_of_find?_eq_some h, of_decide_eq_true hkey⟩

/-- A column that the new values keep. -/
theorem map_update {γ : Type} {column : α → γ} (hf : ∀ row, column (f row) = column row) :
    (update key k f rows).map column = rows.map column := by
  rw [update, List.map_map]
  refine List.map_congr_left fun row _ => ?_
  rw [Function.comp_apply]
  split_ifs
  · exact hf row
  · rfl

theorem mem_update {new : α} : new ∈ update key k f rows ↔
    ∃ row ∈ rows, new = if key row = k then f row else row := by
  simp only [update, List.mem_map, eq_comm]

@[simp] theorem mem_delete : row ∈ delete key k rows ↔ row ∈ rows ∧ key row ≠ k := by
  simp [delete]

theorem delete_subset : delete key k rows ⊆ rows := fun _ hrow => (mem_delete.mp hrow).1

theorem mem_map_delete {k' : κ} :
    k' ∈ (delete key k rows).map key ↔ k' ∈ rows.map key ∧ k' ≠ k := by
  simp only [List.mem_map, mem_delete]
  constructor
  · rintro ⟨row, ⟨hrow, hne⟩, rfl⟩
    exact ⟨⟨row, hrow, rfl⟩, hne⟩
  · rintro ⟨⟨row, hrow, rfl⟩, hne⟩
    exact ⟨row, ⟨hrow, hne⟩, rfl⟩

theorem nodup_delete {γ : Type} {column : α → γ} (h : (rows.map column).Nodup) :
    ((delete key k rows).map column).Nodup :=
  h.sublist (List.filter_sublist.map column)

theorem nodup_concat {γ : Type} {column : α → γ} (h : (rows.map column).Nodup)
    (hnew : column row ∉ rows.map column) : ((rows ++ [row]).map column).Nodup := by
  rw [List.map_append, List.map_singleton]
  exact List.nodup_append.mpr ⟨h, List.nodup_singleton _, by
    rintro a ha b hb rfl
    rw [List.mem_singleton.mp hb] at ha
    exact hnew ha⟩

end Lemmas

section References

/-- Every reference is to a key that is there. -/
def Refers (ref : β → κ) (children : List β) (keys : List κ) : Prop :=
  ∀ child ∈ children, ref child ∈ keys

variable {ref : β → κ} {children : List β} {keys keys' : List κ}

omit [DecidableEq κ] in
theorem Refers.mono (h : Refers ref children keys) (hkeys : keys ⊆ keys') :
    Refers ref children keys' := fun child hchild => hkeys (h child hchild)

omit [DecidableEq κ] in
theorem Refers.subset {others : List β} (h : Refers ref children keys) (hsub : others ⊆ children) :
    Refers ref others keys := fun child hchild => h child (hsub hchild)

omit [DecidableEq κ] in
theorem Refers.append {others : List β} (h : Refers ref children keys)
    (hothers : Refers ref others keys) : Refers ref (children ++ others) keys :=
  List.forall_mem_append.mpr ⟨h, hothers⟩

/-- A key is deleted together with what refers to it. -/
theorem Refers.cascade {key : α → κ} {rows : List α} {k : κ}
    (h : Refers ref children (rows.map key)) :
    Refers ref (delete ref k children) ((delete key k rows).map key) := by
  intro child hchild
  obtain ⟨hmem, hne⟩ := mem_delete.mp hchild
  exact mem_map_delete.mpr ⟨h child hmem, hne⟩

/-- A key that nothing refers to is deleted. -/
theorem Refers.restrict {key : α → κ} {rows : List α} {k : κ}
    (h : Refers ref children (rows.map key)) (hfree : ∀ child ∈ children, ref child ≠ k) :
    Refers ref children ((delete key k rows).map key) :=
  fun child hchild => mem_map_delete.mpr ⟨h child hchild, hfree child hchild⟩

end References

end Appspine.KeyedTable
