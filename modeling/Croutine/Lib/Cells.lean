import Mathlib.Logic.Function.Basic
import Croutine.Lib.Ring

/-!
# Arrays as functions

`Cells a n f g` reads an array of `n` cells as the function `g` on its indices, each cell
through `f`.  Storing in a cell is an update of the function, and copying the array to the
front of a larger one keeps the function on the old indices.
-/

/-- The array has `n` cells, and `f` of cell `i` is `g i`. -/
def Cells {α β : Type} (a : List α) (n : Nat) (f : α → β) (g : Nat → β) : Prop :=
  ∀ i, (a[i]?).map f = if i < n then some (g i) else none

namespace Cells

variable {α β : Type} {a : List α} {n : Nat} {f : α → β} {g : Nat → β}

/-- The array is as long as it says. -/
theorem length_eq (h : Cells a n f g) : a.length = n := by
  have hat := h a.length
  have hbehind := h n
  rw [List.getElem?_eq_none (Nat.le_refl _)] at hat
  rw [if_neg (Nat.lt_irrefl n), Option.map_eq_none_iff, List.getElem?_eq_none_iff] at hbehind
  by_contra hne
  rw [if_pos (by omega)] at hat
  exact absurd hat (by simp)

/-- A load below the length reads the cell. -/
theorem load (h : Cells a n f g) {i : Nat} (hi : i < n) :
    ∃ x, Ring.load a i = .ok x ∧ f x = g i := by
  have hcell := h i
  rw [if_pos hi, Option.map_eq_some_iff] at hcell
  obtain ⟨x, hx, hfx⟩ := hcell
  exact ⟨x, Ring.load_ok hx, hfx⟩

/-- A store below the length is an update of the function. -/
theorem store (h : Cells a n f g) {i : Nat} (hi : i < n) (x : α) :
    Ring.store a i x = .ok (a.set i x) ∧ Cells (a.set i x) n f (Function.update g i (f x)) := by
  have hlength := h.length_eq
  refine ⟨Ring.store_ok (by omega) x, fun j => ?_⟩
  by_cases hj : j = i
  · subst hj
    rw [List.getElem?_set_self (by omega), if_pos hi, Function.update_self]
    rfl
  · rw [List.getElem?_set_ne (fun heq => hj heq.symm), Function.update_of_ne hj]
    exact h j

theorem nil (f : α → β) (g : Nat → β) : Cells [] 0 f g := fun _ => rfl

/-- **Copying to the front** of an array of `m` equal cells. -/
theorem copy (h : Cells a n f g) {m : Nat} (hle : n ≤ m) (x : α) :
    Ring.loadRange a 0 n = .ok a ∧
    Ring.storeRange (List.replicate m x) 0 a = .ok (a ++ List.replicate (m - n) x) ∧
    Cells (a ++ List.replicate (m - n) x) m f fun i => if i < n then g i else f x := by
  have hlength := h.length_eq
  refine ⟨?_, ?_, fun i => ?_⟩
  · rw [Ring.loadRange_ok (by omega)]
    simp [Ring.slice, ← hlength]
  · rw [Ring.storeRange_ok (by simp; omega)]
    simp [Ring.patch, hlength]
  · dsimp only
    by_cases hi : i < n
    · rw [List.getElem?_append_left (by omega), h i, if_pos hi, if_pos (by omega), if_pos hi]
    · rw [List.getElem?_append_right (by omega), List.getElem?_replicate, if_neg hi, hlength]
      by_cases him : i < m
      · rw [if_pos (by omega), if_pos him]
        rfl
      · rw [if_neg (by omega), if_neg him]
        rfl

end Cells
