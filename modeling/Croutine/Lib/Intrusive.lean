import Mathlib.Data.List.Nodup
import Mathlib.Logic.Function.Basic

/-!
# Intrusive doubly linked lists

Nodes that carry their own `next` and `prev` fields.  `Chained` says that the fields of
the nodes of a list are those of its neighbours, so the list is what a walk along `next`
visits and what a walk along `prev` visits backwards.  The rules say what linking a node
at either end and connecting the neighbours of a removed node do to the list.
-/

namespace Intrusive

variable {α : Type}

/-- The link fields of all nodes. -/
structure Links (α : Type) where
  next : α → Option α
  prev : α → Option α

/-- Two nodes, or a node and an end of the list, become neighbours. -/
def Links.connect [DecidableEq α] (links : Links α) (before after : Option α) : Links α where
  next := match before with
    | some p => Function.update links.next p after
    | none => links.next
  prev := match after with
    | some n => Function.update links.prev n before
    | none => links.prev

/-- The fields of the list read backwards. -/
def Links.flip (links : Links α) : Links α := ⟨links.prev, links.next⟩

/-- Every node of the list has its neighbours in its fields. -/
def Chained (links : Links α) (l : List α) : Prop :=
  ∀ front x back, l = front ++ x :: back →
    links.prev x = front.getLast? ∧ links.next x = back.head?

/-- The nodes that a loop along `next` visits in at most `fuel` rounds. -/
def walk (next : α → Option α) : Nat → Option α → List α
  | fuel + 1, some x => x :: walk next fuel (next x)
  | _, _ => []

section Connect

variable [DecidableEq α] (links : Links α) {before after : Option α} {x : α}

/-- Connecting writes the successor of the first node alone. -/
theorem Links.connect_next (hx : before ≠ some x) :
    (links.connect before after).next x = links.next x := by
  cases before with
  | none => rfl
  | some p => exact Function.update_of_ne (fun heq => hx (by rw [heq])) _ _

/-- Connecting writes the predecessor of the second node alone. -/
theorem Links.connect_prev (hx : after ≠ some x) :
    (links.connect before after).prev x = links.prev x := by
  cases after with
  | none => rfl
  | some n => exact Function.update_of_ne (fun heq => hx (by rw [heq])) _ _

/-- The successor that connecting writes. -/
theorem Links.connect_next_self : (links.connect (some x) after).next x = after :=
  Function.update_self _ _ _

/-- The predecessor that connecting writes. -/
theorem Links.connect_prev_self : (links.connect before (some x)).prev x = before :=
  Function.update_self _ _ _

/-- Connecting reads the same backwards. -/
theorem Links.connect_flip :
    (links.connect before after).flip = links.flip.connect after before := by
  cases before <;> cases after <;> rfl

end Connect

namespace Chained

variable {links : Links α} {l : List α} {x : α}

theorem nil (links : Links α) : Chained links [] := by
  intro front x back h
  exact absurd h (by simp)

/-- The loop along `next` from the first node visits the list and stops. -/
theorem walk_eq (h : Chained links l) {fuel : Nat} (hfuel : l.length ≤ fuel) :
    walk links.next fuel l.head? = l := by
  have hsuffix : ∀ (back front : List α) (fuel : Nat), l = front ++ back →
      back.length ≤ fuel → walk links.next fuel back.head? = back := by
    intro back
    induction back with
    | nil => intro front fuel _ _; cases fuel <;> rfl
    | cons y rest ih =>
        intro front fuel hl hlen
        rw [List.length_cons] at hlen
        obtain ⟨n, rfl⟩ : ∃ n, fuel = n + 1 := ⟨fuel - 1, by omega⟩
        rw [List.head?_cons, walk, (h front y rest hl).2,
          ih (front ++ [y]) n (by simp [hl]) (by omega)]
  exact hsuffix l [] fuel rfl hfuel

/-- Only the fields of the nodes of the list matter. -/
theorem congr {links' : Links α} (h : Chained links l)
    (hsame : ∀ x ∈ l, links'.prev x = links.prev x ∧ links'.next x = links.next x) :
    Chained links' l := by
  intro front x back hl
  obtain ⟨hprev, hnext⟩ := hsame x (by rw [hl]; simp)
  rw [hprev, hnext]
  exact h front x back hl

/-- A chained list is chained backwards. -/
theorem flip (h : Chained links l) : Chained links.flip l.reverse := by
  intro front x back hl
  have hsplit : l = back.reverse ++ x :: front.reverse := by
    rw [← List.reverse_reverse l, hl]
    simp
  obtain ⟨hprev, hnext⟩ := h back.reverse x front.reverse hsplit
  rw [List.getLast?_reverse] at hprev
  rw [List.head?_reverse] at hnext
  exact ⟨hnext, hprev⟩

/-- The loop along `prev` from the last node visits the list backwards and stops. -/
theorem walk_prev_eq (h : Chained links l) {fuel : Nat} (hfuel : l.length ≤ fuel) :
    walk links.prev fuel l.getLast? = l.reverse := by
  have hback := h.flip.walk_eq (by rw [List.length_reverse]; exact hfuel : l.reverse.length ≤ fuel)
  rwa [List.head?_reverse] at hback

variable [DecidableEq α]

/-- A node of no list, with empty `prev`, is connected in front of the first node. -/
theorem pushFront (h : Chained links l) (hnodup : l.Nodup) (hx : x ∉ l)
    (hprev : links.prev x = none) : Chained (links.connect (some x) l.head?) (x :: l) := by
  have hhead : l.head? ≠ some x := fun heq => hx (List.mem_of_mem_head? heq)
  intro front y back hsplit
  cases front with
  | nil =>
      obtain ⟨rfl, rfl⟩ := List.cons.inj hsplit
      exact ⟨(links.connect_prev hhead).trans hprev, links.connect_next_self⟩
  | cons z front =>
      obtain ⟨hz, hl⟩ : x = z ∧ l = front ++ y :: back := List.cons.inj hsplit
      subst hz hl
      obtain ⟨hp, hn⟩ := h front y back rfl
      have hyx : some x ≠ some y := by
        rintro ⟨⟩
        exact hx (by simp)
      refine ⟨?_, (links.connect_next hyx).trans hn⟩
      cases front with
      | nil => exact links.connect_prev_self
      | cons u front =>
          -- the first node of the old list is another one
          have huy : (u :: front ++ y :: back).head? ≠ some y := by
            rintro ⟨⟩
            simp at hnodup
          rw [links.connect_prev huy, hp]
          simp

/-- A node of no list, with empty `next`, is connected behind the last node. -/
theorem pushBack (h : Chained links l) (hnodup : l.Nodup) (hx : x ∉ l)
    (hnext : links.next x = none) : Chained (links.connect l.getLast? (some x)) (l ++ [x]) := by
  have hfront := h.flip.pushFront (List.nodup_reverse.mpr hnodup)
    (fun hmem => hx (List.mem_reverse.mp hmem)) hnext
  rw [List.head?_reverse, ← Links.connect_flip] at hfront
  have hback := hfront.flip
  rwa [List.reverse_cons, List.reverse_reverse] at hback

/-- The neighbours of a node are connected, which takes it out of the list. -/
theorem remove {front back : List α} (h : Chained links (front ++ x :: back))
    (hnodup : (front ++ x :: back).Nodup) :
    Chained (links.connect (links.prev x) (links.next x)) (front ++ back) := by
  obtain ⟨hprev, hnext⟩ := h front x back rfl
  rw [hprev, hnext]
  have hdisj : ∀ y ∈ front, y ∉ back := by
    intro y hy hy'
    exact (List.nodup_append.mp hnodup).2.2 y hy y (List.mem_cons_of_mem _ hy') rfl
  intro p y q hsplit
  rcases List.append_eq_append_iff.mp hsplit with ⟨k, hk, hback⟩ | ⟨k, hk, hq⟩
  · -- `y` is behind the node that is removed
    subst hk hback
    obtain ⟨hp, hn⟩ := h (front ++ x :: k) y q (by simp)
    have hyfront : front.getLast? ≠ some y := by
      intro heq
      exact hdisj y (List.mem_of_getLast? heq) (by simp)
    refine ⟨?_, (links.connect_next hyfront).trans hn⟩
    cases k with
    | nil => rw [List.append_nil]; exact links.connect_prev_self
    | cons u k =>
        have huy : (u :: k ++ y :: q).head? ≠ some y := by
          rintro ⟨⟩
          have := (List.nodup_append.mp hnodup).2.1
          simp at this
        rw [links.connect_prev huy, hp]
        simp
  · cases k with
    | nil =>
        -- `y` is the node right behind it
        rw [List.append_nil] at hk
        rw [List.nil_append] at hq
        subst hk hq
        obtain ⟨hp, hn⟩ := h (front ++ [x]) y q (by simp)
        have hyfront : front.getLast? ≠ some y := by
          intro heq
          exact hdisj y (List.mem_of_getLast? heq) (by simp)
        exact ⟨links.connect_prev_self, (links.connect_next hyfront).trans hn⟩
    | cons z k =>
        -- `y` is in front of it
        obtain ⟨rfl, rfl⟩ := List.cons.inj hq
        subst hk
        obtain ⟨hp, hn⟩ := h p y (k ++ x :: back) (by simp)
        have hyback : back.head? ≠ some y := by
          intro heq
          exact hdisj y (by simp) (List.mem_of_mem_head? heq)
        refine ⟨(links.connect_prev hyback).trans hp, ?_⟩
        cases k with
        | nil =>
            rw [List.getLast?_concat]
            exact links.connect_next_self
        | cons u k =>
            have hlast : (p ++ y :: u :: k).getLast? ≠ some y := by
              intro heq
              have hmem : y ∈ (u :: k) := by
                rw [List.getLast?_append, List.getLast?_cons_cons] at heq
                exact List.mem_of_getLast? (by simpa using heq)
              have := (List.nodup_append.mp (List.nodup_append.mp hnodup).1).2.1
              exact (List.nodup_cons.mp this).1 hmem
            rw [links.connect_next hlast, hn]
            simp

end Chained

end Intrusive
