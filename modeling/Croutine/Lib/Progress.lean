import Mathlib.Algebra.BigOperators.Group.Finset.Basic
import Mathlib.Algebra.Order.BigOperators.Group.Finset
import Croutine.Lib.Machine

/-!
# Work that comes to an end

A machine winds down by certain steps when each of them lowers a weight and one of them is
possible until the work is done.  Then every sequence of such steps is bounded by the weight
it starts with, whoever chooses the steps, and wherever it stops it can be continued until
the work is done.

Where only some of the steps count, a rank bounds how many of them there are before something
happens.

The weight of a team is the sum of what its members have left to do.
-/

namespace Machine

variable {σ α : Type}

/-- An execution by allowed steps. -/
inductive RunVia (M : Machine σ α) (allowed : σ → α → Prop) : σ → List α → σ → Prop
  | nil (s : σ) : RunVia M allowed s [] s
  | cons {s s1 s' : σ} {a : α} {l : List α} (ha : allowed s a) (hstep : M.step s a = .ok s1)
      (hrest : RunVia M allowed s1 l s') : RunVia M allowed s (a :: l) s'

/-- The allowed steps keep `I`, lower the weight, and go on until the work is done. -/
structure WindsDown (M : Machine σ α) (I : σ → Prop) (allowed : σ → α → Prop)
    (done : σ → Prop) (weight : σ → Nat) : Prop where
  keeps : ∀ {s a s'}, I s → allowed s a → M.step s a = .ok s' → I s'
  lowers : ∀ {s a s'}, I s → allowed s a → M.step s a = .ok s' → weight s' < weight s
  goesOn : ∀ {s}, I s → ¬done s → ∃ a s', allowed s a ∧ M.step s a = .ok s'

variable {M : Machine σ α} {I done : σ → Prop} {allowed : σ → α → Prop} {weight : σ → Nat}

/-- An execution of actions that are allowed everywhere. -/
theorem RunVia.of_run :
    ∀ (l : List α) {s s' : σ}, (∀ a ∈ l, ∀ t, allowed t a) → M.run s l = .ok s' →
      M.RunVia allowed s l s' := by
  intro l
  induction l with
  | nil =>
      intro s s' _ hr
      cases hr
      exact .nil s
  | cons a rest ih =>
      intro s s' hall hr
      rw [Machine.run, Res.bind_ok] at hr
      obtain ⟨s1, hstep, hrest⟩ := hr
      exact .cons (hall a List.mem_cons_self s) hstep
        (ih (fun b hb => hall b (List.mem_cons_of_mem _ hb)) hrest)

/-- **Counting rule.**  If every allowed step either escapes or pays for itself out of a rank
when it is one of mine, then an execution has no more steps of mine than the rank it started
with, up to its end or to the first step that escapes. -/
theorem RunVia.counts {mine : α → Bool} (rank : σ → Nat) {escapes : σ → α → σ → Prop}
    (hstep : ∀ {s a s'}, I s → allowed s a → M.step s a = .ok s' →
      escapes s a s' ∨ I s' ∧ rank s' + (if mine a then 1 else 0) ≤ rank s)
    {s s' : σ} {l : List α} (hI : I s) (hr : M.RunVia allowed s l s') :
    (∃ before a after x x', l = before ++ a :: after ∧ M.RunVia allowed s before x ∧
      M.step x a = .ok x' ∧ escapes x a x' ∧ rank x + before.countP mine ≤ rank s) ∨
    I s' ∧ rank s' + l.countP mine ≤ rank s := by
  induction hr with
  | nil s => exact .inr ⟨hI, by simp⟩
  | @cons s s1 s' a l ha hs hrest ih =>
      rcases hstep hI ha hs with hesc | ⟨hI1, hle⟩
      · exact .inl ⟨[], a, l, s, s1, rfl, .nil s, hs, hesc, by simp⟩
      · rcases ih hI1 with ⟨before, b, after, x, x', rfl, hvia, hx, hesc, hcount⟩ | ⟨hI', hcount⟩
        · refine .inl ⟨a :: before, b, after, x, x', rfl, .cons ha hs hvia, hx, hesc, ?_⟩
          rw [List.countP_cons]
          omega
        · refine .inr ⟨hI', ?_⟩
          rw [List.countP_cons]
          omega

namespace WindsDown

/-- **Every execution is bounded** by the weight it starts with. -/
theorem bounded (h : M.WindsDown I allowed done weight) {s s' : σ} {l : List α} (hI : I s)
    (hr : M.RunVia allowed s l s') : I s' ∧ l.length + weight s' ≤ weight s := by
  induction hr with
  | nil s => exact ⟨hI, by simp⟩
  | cons ha hstep hrest ih =>
      obtain ⟨hI', hle⟩ := ih (h.keeps hI ha hstep)
      have hlt := h.lowers hI ha hstep
      refine ⟨hI', ?_⟩
      rw [List.length_cons]
      omega

/-- **The work can be finished** from every state. -/
theorem completes (h : M.WindsDown I allowed done weight) {s : σ} (hI : I s) :
    ∃ l s', M.RunVia allowed s l s' ∧ done s' := by
  induction hn : weight s using Nat.strong_induction_on generalizing s with
  | _ n ih =>
      by_cases hdone : done s
      · exact ⟨[], s, .nil s, hdone⟩
      · obtain ⟨a, s1, ha, hstep⟩ := h.goesOn hI hdone
        have hlt := h.lowers hI ha hstep
        obtain ⟨l, s', hrest, hdone'⟩ := ih (weight s1) (hn ▸ hlt) (h.keeps hI ha hstep) rfl
        exact ⟨a :: l, s', .cons ha hstep hrest, hdone'⟩

end WindsDown

end Machine

/-- A member of a team has less to do by `k`, and no other has more. -/
theorem Finset.sum_range_add_le {n w k : Nat} {f f' : Nat → Nat} (hw : w < n)
    (hle : ∀ v < n, f' v ≤ f v) (hk : f' w + k ≤ f w) :
    ∑ v ∈ Finset.range n, f' v + k ≤ ∑ v ∈ Finset.range n, f v := by
  have hmem : w ∈ Finset.range n := Finset.mem_range.mpr hw
  rw [← Finset.add_sum_erase _ f hmem, ← Finset.add_sum_erase _ f' hmem]
  have hothers : ∑ v ∈ (Finset.range n).erase w, f' v ≤ ∑ v ∈ (Finset.range n).erase w, f v :=
    Finset.sum_le_sum fun v hv => hle v (Finset.mem_range.mp (Finset.mem_of_mem_erase hv))
  omega
