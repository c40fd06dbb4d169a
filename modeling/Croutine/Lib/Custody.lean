import Mathlib.Data.List.Nodup
import Mathlib.Logic.Function.Basic

/-!
# Items in places

Every item is in one place, given by a function from items to places, so that no
item can be in two places.  Some places are lists, and a list represents its place
when it has exactly the items there, each once.  Some places belong to holders, and
a holder has at most one item.  The rules say how both representations follow one
item that moves.
-/

namespace Custody

variable {α ι π : Type} {loc : α → π} {x : α} {p q : π}

/-- The list has exactly the items at place `p`, each once. -/
structure Lists (l : List α) (loc : α → π) (p : π) : Prop where
  mem : ∀ x, x ∈ l ↔ loc x = p
  nodup : l.Nodup

namespace Lists

variable {l l' : List α}

theorem not_mem (h : Lists l loc p) (hx : loc x ≠ p) : x ∉ l :=
  fun hmem => hx ((h.mem x).mp hmem)

variable [DecidableEq α]

/-- An item moves between two other places. -/
theorem move (h : Lists l loc p) (hx : loc x ≠ p) (hq : q ≠ p) :
    Lists l (Function.update loc x q) p := by
  refine ⟨fun y => ?_, h.nodup⟩
  by_cases hy : y = x
  · subst hy
    rw [Function.update_self]
    exact ⟨fun hmem => absurd hmem (h.not_mem hx), fun heq => absurd heq hq⟩
  · rw [Function.update_of_ne hy]
    exact h.mem y

/-- An item arrives from another place. -/
theorem insert (h : Lists l loc p) (hx : loc x ≠ p) (hl : l'.Perm (x :: l)) :
    Lists l' (Function.update loc x p) p := by
  refine ⟨fun y => ?_, hl.nodup_iff.mpr (List.nodup_cons.mpr ⟨h.not_mem hx, h.nodup⟩)⟩
  rw [hl.mem_iff, List.mem_cons]
  by_cases hy : y = x
  · subst hy
    rw [Function.update_self]
    exact ⟨fun _ => rfl, fun _ => .inl rfl⟩
  · rw [Function.update_of_ne hy, ← h.mem y]
    exact ⟨fun hcase => hcase.resolve_left hy, .inr⟩

/-- An item leaves for another place. -/
theorem remove (h : Lists l loc p) (hl : l.Perm (x :: l')) (hq : q ≠ p) :
    Lists l' (Function.update loc x q) p := by
  have hnodup := List.nodup_cons.mp (hl.nodup_iff.mp h.nodup)
  refine ⟨fun y => ?_, hnodup.2⟩
  by_cases hy : y = x
  · subst hy
    rw [Function.update_self]
    exact ⟨fun hmem => absurd hmem hnodup.1, fun heq => absurd heq hq⟩
  · rw [Function.update_of_ne hy, ← h.mem y, hl.mem_iff, List.mem_cons]
    exact ⟨.inr, fun hcase => hcase.resolve_left hy⟩

end Lists

/-- Holder `i` has the item at its own place `spot i`, and nothing if there is
none. -/
def Holds (held : ι → Option α) (loc : α → π) (spot : ι → π) : Prop :=
  ∀ i x, held i = some x ↔ loc x = spot i

namespace Holds

variable [DecidableEq α] {held : ι → Option α} {spot : ι → π} {i : ι}

/-- An item moves between places without a holder. -/
theorem move (h : Holds held loc spot) (hx : ∀ j, loc x ≠ spot j) (hq : ∀ j, q ≠ spot j) :
    Holds held (Function.update loc x q) spot := by
  intro j y
  by_cases hy : y = x
  · subst hy
    rw [Function.update_self, h j y]
    exact ⟨fun heq => absurd heq (hx j), fun heq => absurd heq (hq j)⟩
  · rw [Function.update_of_ne hy]
    exact h j y

variable [DecidableEq ι]

/-- A holder without an item takes one that nobody has. -/
theorem take (h : Holds held loc spot) (hspot : Function.Injective spot)
    (hi : held i = none) (hx : ∀ j, loc x ≠ spot j) :
    Holds (Function.update held i (some x)) (Function.update loc x (spot i)) spot := by
  intro j y
  by_cases hj : j = i
  · subst hj
    rw [Function.update_self]
    by_cases hy : y = x
    · subst hy
      rw [Function.update_self]
      exact ⟨fun _ => rfl, fun _ => rfl⟩
    · rw [Function.update_of_ne hy, ← h j y, hi]
      exact ⟨fun heq => absurd (Option.some.inj heq).symm hy, fun heq => by simp at heq⟩
  · rw [Function.update_of_ne hj, h j y]
    by_cases hy : y = x
    · subst hy
      rw [Function.update_self]
      exact ⟨fun heq => absurd heq (hx j), fun heq => absurd (hspot heq).symm hj⟩
    · rw [Function.update_of_ne hy]

/-- A holder gives its item away. -/
theorem drop (h : Holds held loc spot) (hspot : Function.Injective spot)
    (hi : held i = some x) (hq : ∀ j, q ≠ spot j) :
    Holds (Function.update held i none) (Function.update loc x q) spot := by
  intro j y
  by_cases hj : j = i
  · subst hj
    rw [Function.update_self]
    refine ⟨fun heq => by simp at heq, fun heq => ?_⟩
    by_cases hy : y = x
    · subst hy
      rw [Function.update_self] at heq
      exact absurd heq (hq j)
    · rw [Function.update_of_ne hy, ← h j y, hi] at heq
      exact absurd (Option.some.inj heq).symm hy
  · rw [Function.update_of_ne hj, h j y]
    by_cases hy : y = x
    · subst hy
      rw [Function.update_self]
      refine ⟨fun heq => ?_, fun heq => absurd heq (hq j)⟩
      -- two holders of one item would be one
      exact absurd (hspot (heq.symm.trans ((h i y).mp hi))) hj
    · rw [Function.update_of_ne hy]

end Holds

end Custody
