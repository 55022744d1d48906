import Mathlib

/-!
# Transition systems

A system takes one labelled action at a time from an explicit state, and an action
it does not offer gives no state. A run is the fold of the step function over a list
of actions. Invariants, and relations that every step extends, pass from steps to runs.
-/
namespace Appspine.Transitions

variable {σ α : Type*} {step : σ → α → Option σ}

/-- The state after all actions, when each of them was on offer. -/
def run (step : σ → α → Option σ) (s : σ) : List α → Option σ
  | [] => some s
  | a :: as => (step s a).bind (fun t => run step t as)

@[simp] lemma run_nil (s : σ) : run step s [] = some s := rfl

lemma run_cons {s t : σ} {a : α} {as : List α} :
    run step s (a :: as) = some t ↔ ∃ u, step s a = some u ∧ run step u as = some t := by
  simp [run, Option.bind_eq_some_iff]

lemma run_append {s t : σ} {as bs : List α} :
    run step s (as ++ bs) = some t ↔ ∃ u, run step s as = some u ∧ run step u bs = some t := by
  induction as generalizing s with
  | nil => simp
  | cons a as ih =>
    rw [List.cons_append, run_cons]
    constructor
    · rintro ⟨u, hu, h⟩
      obtain ⟨v, hv, ht⟩ := ih.mp h
      exact ⟨v, run_cons.mpr ⟨u, hu, hv⟩, ht⟩
    · rintro ⟨v, hv, ht⟩
      obtain ⟨u, hu, h⟩ := run_cons.mp hv
      exact ⟨u, hu, ih.mpr ⟨v, h, ht⟩⟩

lemma run_snoc {s t : σ} {as : List α} {a : α} :
    run step s (as ++ [a]) = some t ↔ ∃ u, run step s as = some u ∧ step u a = some t := by
  simp [run_append, run_cons]

/-- Every step of the run meets `ok` in the state it starts from. -/
def Steps (step : σ → α → Option σ) (ok : σ → α → Prop) (s : σ) : List α → Prop
  | [] => True
  | a :: as => ok s a ∧ ∀ t, step s a = some t → Steps step ok t as

/-- Every state of the run, the first and the last included, meets `P`. -/
def Throughout (step : σ → α → Option σ) (P : σ → Prop) (s : σ) : List α → Prop
  | [] => P s
  | a :: as => P s ∧ ∀ t, step s a = some t → Throughout step P t as

lemma Steps.of_all {ok : σ → α → Prop} (h : ∀ s a, ok s a) (s : σ) (as : List α) :
    Steps step ok s as := by
  induction as generalizing s with
  | nil => trivial
  | cons a as ih => exact ⟨h s a, fun t _ => ih t⟩

/-- What the steps meet, at the step after a run. -/
lemma Steps.next {ok : σ → α → Prop} {s t : σ} {as : List α} {a : α}
    (h : Steps step ok s (as ++ [a])) (hr : run step s as = some t) : ok t a := by
  induction as generalizing s with
  | nil => exact Option.some.inj hr ▸ h.1
  | cons b as ih =>
    obtain ⟨u, hu, hr⟩ := run_cons.mp hr
    exact ih (h.2 u hu) hr

/-- Two conditions on steps that agree in every state of an invariant agree on runs. -/
lemma steps_congr {P : σ → Prop} {ok ok' : σ → α → Prop}
    (inv : ∀ s a t, P s → step s a = some t → P t) (agree : ∀ s a, P s → (ok s a ↔ ok' s a))
    {s : σ} (hs : P s) (as : List α) : Steps step ok s as ↔ Steps step ok' s as := by
  induction as generalizing s with
  | nil => exact Iff.rfl
  | cons a as ih =>
    have hrest : (∀ t, step s a = some t → Steps step ok t as) ↔
        ∀ t, step s a = some t → Steps step ok' t as :=
      forall_congr' fun t => forall_congr' fun ht => ih (inv s a t hs ht)
    rw [Steps, Steps, agree s a hs, hrest]

/-- What allowed steps preserve holds in every state of a run of allowed steps. -/
theorem throughout_of_steps {ok : σ → α → Prop} {P : σ → Prop}
    (inv : ∀ s a t, P s → ok s a → step s a = some t → P t)
    {s : σ} {as : List α} (hs : P s) (hok : Steps step ok s as) : Throughout step P s as := by
  induction as generalizing s with
  | nil => exact hs
  | cons a as ih => exact ⟨hs, fun t ht => ih (inv s a t hs hok.1 ht) (hok.2 t ht)⟩

lemma Throughout.head {P : σ → Prop} {s : σ} {as : List α} (h : Throughout step P s as) : P s := by
  cases as with
  | nil => exact h
  | cons a as => exact h.1

theorem Throughout.last {P : σ → Prop} {s t : σ} {as : List α} (h : Throughout step P s as)
    (hr : run step s as = some t) : P t := by
  induction as generalizing s with
  | nil => exact (Option.some.inj hr) ▸ h
  | cons a as ih =>
    obtain ⟨u, hu, hr⟩ := run_cons.mp hr
    exact ih (h.2 u hu) hr

lemma Throughout.mono {P Q : σ → Prop} (h : ∀ s, P s → Q s) {s : σ} {as : List α}
    (hP : Throughout step P s as) : Throughout step Q s as := by
  induction as generalizing s with
  | nil => exact h s hP
  | cons a as ih => exact ⟨h s hP.1, fun t ht => ih (hP.2 t ht)⟩

/-- Allowed steps keep an invariant that gives `P`, and from it no other step leads to `P`: a run
has allowed steps only if and only if it stays in `P`. -/
theorem steps_iff_throughout {ok : σ → α → Prop} {P Q : σ → Prop}
    (inv : ∀ s a t, Q s → ok s a → step s a = some t → Q t) (holds : ∀ s, Q s → P s)
    (exact : ∀ s a t, Q s → step s a = some t → P t → ok s a)
    {s t : σ} {as : List α} (hs : Q s) (hr : run step s as = some t) :
    Steps step ok s as ↔ Throughout step P s as := by
  constructor
  · intro hok
    exact (throughout_of_steps inv hs hok).mono holds
  · intro hP
    induction as generalizing s with
    | nil => trivial
    | cons a as ih =>
      obtain ⟨u, hu, hr⟩ := run_cons.mp hr
      have hok : ok s a := exact s a u hs hu (hP.2 u hu).head
      refine ⟨hok, fun v hv => ?_⟩
      obtain rfl : u = v := Option.some.inj (hu.symm.trans hv)
      exact ih (inv s a u hs hok hu) hr (hP.2 u hu)

/-- What every step preserves holds in the state a run ends in. -/
theorem run_invariant {P : σ → Prop} (inv : ∀ s a t, P s → step s a = some t → P t)
    {s t : σ} {as : List α} (hs : P s) (hr : run step s as = some t) : P t := by
  have hok : Steps step (fun _ _ => True) s as := Steps.of_all (fun _ _ => trivial) s as
  exact (throughout_of_steps (fun s a t h _ => inv s a t h) hs hok).last hr

/-- A preorder that every step from an invariant state extends relates the ends of a run. -/
theorem run_related {P : σ → Prop} {R : σ → σ → Prop} (refl : ∀ s, R s s)
    (trans : ∀ s t u, R s t → R t u → R s u)
    (inv : ∀ s a t, P s → step s a = some t → P t)
    (rel : ∀ s a t, P s → step s a = some t → R s t)
    {s t : σ} {as : List α} (hs : P s) (hr : run step s as = some t) : R s t := by
  induction as generalizing s with
  | nil => exact (Option.some.inj hr) ▸ refl s
  | cons a as ih =>
    obtain ⟨u, hu, hr⟩ := run_cons.mp hr
    exact trans s u t (rel s a u hs hu) (ih (inv s a u hs hu) hr)

end Appspine.Transitions
