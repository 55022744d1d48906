import Mathlib

/-!
# Results that may be errors

When a composed result is not an error, so is each of its parts.
-/
namespace Appspine.Results

variable {ε α β : Type*} {b : β}

lemma bind_eq_ok {ε α β : Type} {x : Except ε α} {f : α → Except ε β} {b : β} :
    (x >>= f) = .ok b ↔ ∃ a, x = .ok a ∧ f a = .ok b := by
  cases x with
  | ok a => simp [bind, Except.bind]
  | error e => simp [bind, Except.bind]

lemma map_eq_ok {x : Except ε α} {f : α → β} :
    x.map f = .ok b ↔ ∃ a, x = .ok a ∧ f a = b := by
  cases x with
  | ok a => simp [Except.map]
  | error e => simp [Except.map]

lemma exists_map_eq_ok {x : Except ε α} (f : α → β) :
    (∃ b, x.map f = .ok b) ↔ ∃ a, x = .ok a := by
  cases x with
  | ok a => simp [Except.map]
  | error e => simp [Except.map]

lemma mapError_eq_ok {δ : Type*} {x : Except ε α} {f : ε → δ} {a : α} :
    x.mapError f = .ok a ↔ x = .ok a := by
  cases x with
  | ok a => simp [Except.mapError]
  | error e => simp [Except.mapError]

/-- All results, or the first error among them. -/
def collect : List (Except ε α) → Except ε (List α)
  | [] => .ok []
  | r :: rs =>
    match r with
    | .error e => .error e
    | .ok v => (collect rs).map (v :: ·)

lemma collect_eq_ok {rs : List (Except ε α)} {vs : List α} :
    collect rs = .ok vs ↔ rs = vs.map .ok := by
  induction rs generalizing vs with
  | nil => cases vs <;> simp [collect]
  | cons r rs ih =>
    cases r with
    | error e => cases vs <;> simp [collect]
    | ok v =>
      rw [collect, map_eq_ok]
      cases vs with
      | nil => simp
      | cons w ws =>
        simp only [ih, List.map_cons, List.cons.injEq, Except.ok.injEq]
        constructor
        · rintro ⟨a, hrs, rfl, rfl⟩
          exact ⟨rfl, hrs⟩
        · rintro ⟨rfl, hrs⟩
          exact ⟨ws, hrs, rfl, rfl⟩

/-- When each result is known, all of them are. -/
lemma collect_map_eq_ok {f : α → Except ε β} {p : α → Prop} {g : α → β} {xs : List α}
    {ys : List β} (h : ∀ x ∈ xs, ∀ y, f x = .ok y ↔ p x ∧ y = g x) :
    collect (xs.map f) = .ok ys ↔ (∀ x ∈ xs, p x) ∧ ys = xs.map g := by
  rw [collect_eq_ok]
  induction xs generalizing ys with
  | nil => simp [eq_comm]
  | cons x xs ih =>
    have hrest : ∀ ys : List β, xs.map f = ys.map .ok ↔ (∀ x ∈ xs, p x) ∧ ys = xs.map g :=
      fun ys => ih (fun x' hx => h x' (by simp [hx]))
    cases ys with
    | nil => simp
    | cons y ys =>
      rw [List.map_cons, List.map_cons, List.map_cons, List.cons.injEq, List.cons.injEq,
        h x (by simp), hrest, List.forall_mem_cons]
      exact and_and_and_comm

end Appspine.Results
