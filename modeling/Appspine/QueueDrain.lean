import Mathlib

/-!
# Draining a queue in batches

Each round takes up to `b` items from the front of a queue. Items that are `sticky` go back
to where they were, the others leave for good. How far the rounds get is a number that the
positions of the sticky items determine.
-/
namespace Appspine.QueueDrain

variable {α : Type*} (sticky : α → Bool) (b : ℕ)

def round (queue : List α) : List α := (queue.take b).filter sticky ++ queue.drop b

/-- How much of the queue the first `t` rounds have taken up: a round gets past the sticky
items among those and takes up as many new ones as the batch then has room for. -/
def reached (queue : List α) : ℕ → ℕ
  | 0 => 0
  | t + 1 => min queue.length
      (reached queue t + (b - (queue.take (reached queue t)).countP sticky))

variable {sticky b}

lemma reached_le (queue : List α) (t : ℕ) : reached sticky b queue t ≤ queue.length := by
  cases t with
  | zero => exact Nat.zero_le _
  | succ t => exact min_le_left _ _

end Appspine.QueueDrain
