import Mathlib.Tactic.Common

/-!
# Rings

A ring is an array of slots in which a list lies from a head slot on, around the end of the
array.  `Ring.Holds` says so of any function from slot numbers to their contents, so a slot
may be a cell of an array or a stretch of bytes.  The rules say what storing one element
behind the last, dropping the first and moving all of them to the front of another array do
to the list.

`load` and `store` access an array with a check of the index, `loadRange` and `storeRange` a
stretch of it with a check of its bounds.
-/

/-- An access outside an array, or through a null pointer. -/
inductive Fault where
  | read (i : Nat)
  | write (i : Nat)
  | null
  deriving DecidableEq

namespace Ring

/-! ## Checked arrays -/

section Checked

variable {α : Type}

def load (a : List α) (i : Nat) : Except Fault α :=
  match a[i]? with
  | some x => .ok x
  | none => .error (.read i)

def store (a : List α) (i : Nat) (x : α) : Except Fault (List α) :=
  if i < a.length then .ok (a.set i x) else .error (.write i)

/-- A load inside the array reads the cell. -/
theorem load_ok {a : List α} {i : Nat} {x : α} (h : a[i]? = some x) : load a i = .ok x := by
  unfold load
  rw [h]

/-- A store inside the array writes the cell. -/
theorem store_ok {a : List α} {i : Nat} (h : i < a.length) (x : α) :
    store a i x = .ok (a.set i x) := if_pos h

/-- The `n` elements from position `i` on. -/
def slice (a : List α) (i n : Nat) : List α := (a.drop i).take n

/-- The list with `v` in place of what was at position `i`. -/
def patch (a : List α) (i : Nat) (v : List α) : List α := a.take i ++ v ++ a.drop (i + v.length)

def loadRange (a : List α) (i n : Nat) : Except Fault (List α) :=
  if i + n ≤ a.length then .ok (slice a i n) else .error (.read i)

def storeRange (a : List α) (i : Nat) (v : List α) : Except Fault (List α) :=
  if i + v.length ≤ a.length then .ok (patch a i v) else .error (.write i)

/-- A copy out of a range inside the array. -/
theorem loadRange_ok {a : List α} {i n : Nat} (h : i + n ≤ a.length) :
    loadRange a i n = .ok (slice a i n) := if_pos h

/-- A copy into a range inside the array. -/
theorem storeRange_ok {a : List α} {i : Nat} {v : List α} (h : i + v.length ≤ a.length) :
    storeRange a i v = .ok (patch a i v) := if_pos h

/-- A copy into the array keeps its length. -/
theorem length_patch {a : List α} {i : Nat} {v : List α} (h : i + v.length ≤ a.length) :
    (patch a i v).length = a.length := by
  simp only [patch, List.length_append, List.length_take, List.length_drop]
  omega

/-- A range reads as what was copied into it. -/
theorem slice_patch_self {a : List α} {i : Nat} {v : List α} (h : i + v.length ≤ a.length) :
    slice (patch a i v) i v.length = v := by
  have hi : (a.take i).length = i := by
    rw [List.length_take]
    omega
  unfold slice patch
  rw [List.append_assoc, List.drop_append_of_le_length (Nat.le_of_eq hi.symm),
    List.drop_of_length_le (Nat.le_of_eq hi), List.nil_append, List.take_left]

/-- A stretch before or behind the new elements is as it was. -/
theorem slice_patch_of_disjoint {a : List α} {i j n : Nat} {v : List α}
    (h : i + v.length ≤ a.length) (hdisjoint : j + n ≤ i ∨ i + v.length ≤ j) :
    slice (patch a i v) j n = slice a j n := by
  apply List.ext_getElem?
  intro k
  unfold slice patch
  rw [List.getElem?_take, List.getElem?_take]
  split
  · next hk =>
    rw [List.getElem?_drop, List.getElem?_drop, List.append_assoc, List.getElem?_append]
    rw [List.length_take, Nat.min_eq_left (by omega)]
    split
    · rw [List.getElem?_take_of_lt (by omega)]
    · rw [List.getElem?_append_right (by omega), List.getElem?_drop]
      congr 1
      omega
  · rfl

end Checked

/-- Elements of one size at their multiples do not overlap. -/
theorem mul_add_le_mul {i j : Nat} (h : i < j) (n : Nat) : i * n + n ≤ j * n := by
  rw [← Nat.succ_mul]
  exact Nat.mul_le_mul_right n h

/-! ## Wrapping around -/

/-- One wrap at most is needed within a revolution. -/
theorem wrap_eq {c head i : Nat} (hhead : head < c) (hi : i ≤ c) :
    (head + i) % c = if head + i < c then head + i else head + i - c := by
  split
  · next hlt => exact Nat.mod_eq_of_lt hlt
  · rw [Nat.mod_eq_sub_mod (by omega), Nat.mod_eq_of_lt (by omega)]

/-- Offsets below one revolution are different slots. -/
theorem wrap_inj {c head i j : Nat} (hhead : head < c) (hi : i < c) (hj : j < c)
    (h : (head + i) % c = (head + j) % c) : i = j := by
  rw [wrap_eq hhead (Nat.le_of_lt hi), wrap_eq hhead (Nat.le_of_lt hj)] at h
  split at h <;> split at h <;> omega

/-! ## Contents -/

variable {β : Type} {slot slot' : Nat → β} {c c' head : Nat} {l : List β} {x : β}

/-- The elements of a ring of `c` slots, the oldest in slot `head`. -/
structure Holds (slot : Nat → β) (c head : Nat) (l : List β) : Prop where
  head_lt : head < c
  length_le : l.length ≤ c
  slots : ∀ i x, l[i]? = some x → slot ((head + i) % c) = x

namespace Holds

theorem empty (slot : Nat → β) (h : head < c) : Holds slot c head [] :=
  ⟨h, Nat.zero_le _, fun i x hx => absurd hx (by simp)⟩

/-- Positions in the ring are below its capacity. -/
theorem length_lt_of_getElem? (h : Holds slot c head l) {i : Nat} (hi : l[i]? = some x) :
    i < c := by
  have hlt := (List.getElem?_eq_some_iff.mp hi).1
  have hle := h.length_le
  omega

/-- The first element is in the head slot. -/
theorem first (h : Holds slot c head (x :: l)) : slot head = x := by
  have hslot := h.slots 0 x rfl
  rwa [Nat.add_zero, Nat.mod_eq_of_lt h.head_lt] at hslot

/-- Dropping the first element moves the head one slot on. -/
theorem pop (h : Holds slot c head (x :: l)) : Holds slot c ((head + 1) % c) l := by
  have hlen := h.length_le
  rw [List.length_cons] at hlen
  refine ⟨Nat.mod_lt _ (Nat.lt_of_le_of_lt (Nat.zero_le _) h.head_lt), by omega, ?_⟩
  intro i y hy
  rw [Nat.mod_add_mod, Nat.add_assoc, Nat.add_comm 1 i]
  exact h.slots (i + 1) y hy

/-- Storing behind the last element, with the other slots that are in use left alone. -/
theorem push (h : Holds slot c head l) (hroom : l.length < c)
    (hnew : slot' ((head + l.length) % c) = x)
    (hkept : ∀ i, i < c → i ≠ (head + l.length) % c → slot' i = slot i) :
    Holds slot' c head (l ++ [x]) := by
  refine ⟨h.head_lt, by rw [List.length_append]; exact hroom, ?_⟩
  intro i y hy
  by_cases hi : i < l.length
  · rw [List.getElem?_append_left hi] at hy
    rw [hkept]
    · exact h.slots i y hy
    · exact Nat.mod_lt _ (Nat.lt_of_le_of_lt (Nat.zero_le _) h.head_lt)
    · intro heq
      have := wrap_inj h.head_lt (h.length_lt_of_getElem? hy) hroom heq
      omega
  · have hlt := (List.getElem?_eq_some_iff.mp hy).1
    rw [List.length_append, List.length_singleton] at hlt
    obtain rfl : i = l.length := by omega
    rw [List.getElem?_append_right (Nat.le_refl _), Nat.sub_self] at hy
    rw [hnew]
    exact Option.some.inj hy

/-- Copying the elements, in order, to the front of an array with room. -/
theorem relocate (h : Holds slot c head l) (hlarger : c ≤ c')
    (hcopy : ∀ i, i < l.length → slot' i = slot ((head + i) % c)) : Holds slot' c' 0 l := by
  have hpos := Nat.lt_of_le_of_lt (Nat.zero_le _) h.head_lt
  refine ⟨Nat.lt_of_lt_of_le hpos hlarger, Nat.le_trans h.length_le hlarger, ?_⟩
  intro i x hx
  have hi := (List.getElem?_eq_some_iff.mp hx).1
  have hlt := h.length_lt_of_getElem? hx
  rw [Nat.zero_add, Nat.mod_eq_of_lt (Nat.lt_of_lt_of_le hlt hlarger), hcopy i hi]
  exact h.slots i x hx

end Holds

end Ring
