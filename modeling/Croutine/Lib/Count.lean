import Mathlib.Logic.Function.Basic
import Mathlib.Tactic.Common

/-!
# Counting the indices below a bound

How the number of indices whose value satisfies a test changes when one value
is replaced.
-/

namespace List

variable {α : Type} (p : α → Bool) (f : Nat → α) (i : Nat) (x : α)

/-- Replacing a value outside the range does not change the count. -/
theorem countP_range_update_of_le {n : Nat} (h : n ≤ i) :
    (range n).countP (fun j => p (Function.update f i x j)) =
      (range n).countP fun j => p (f j) := by
  apply countP_congr
  intro j hj
  have hne : j ≠ i := by
    have := mem_range.mp hj
    omega
  rw [Function.update_of_ne hne]

/-- Replacing a value inside the range moves the count by what the two values
contribute. -/
theorem countP_range_update {n : Nat} (h : i < n) :
    (range n).countP (fun j => p (Function.update f i x j)) + (p (f i)).toNat =
      ((range n).countP fun j => p (f j)) + (p x).toNat := by
  induction n with
  | zero => omega
  | succ n ih =>
      rw [range_succ, countP_append, countP_append]
      rcases Nat.lt_succ_iff_lt_or_eq.mp h with hlt | rfl
      · have hne : n ≠ i := by omega
        simp only [countP_singleton, Function.update_of_ne hne]
        have := ih hlt
        omega
      · rw [countP_range_update_of_le p f i x (Nat.le_refl i)]
        simp only [countP_singleton, Function.update_self]
        cases p (f i) <;> cases p x <;> simp

end List
