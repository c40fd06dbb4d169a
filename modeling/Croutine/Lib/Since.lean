import Croutine.Lib.Progress

/-!
# What has held since

The history of a run, read backwards from its last state: an action began something at some
point of the run, and a property has held in every state from there on, up to the last one.
What the beginning has to satisfy may refer to the run before it, so such histories nest.
-/

namespace Machine

variable {σ α : Type} {M : Machine σ α} {allowed : σ → α → Prop}
  {begins : List α → σ → α → Prop} {holds : σ → Prop}

/-- One more allowed step. -/
theorem RunVia.concat {s s' s'' : σ} {l : List α} {a : α} (h : M.RunVia allowed s l s')
    (ha : allowed s' a) (hstep : M.step s' a = .ok s'') : M.RunVia allowed s (l ++ [a]) s'' := by
  induction h with
  | nil s => exact .cons ha hstep (.nil _)
  | cons hb hs hrest ih => exact .cons hb hs (ih ha hstep)

/-- In the run `l` from `s₀` to `s`, an action began something, and `holds` was true in every
state after it that the run left again. -/
def Since (M : Machine σ α) (s₀ : σ) (begins : List α → σ → α → Prop) (holds : σ → Prop)
    (l : List α) (s : σ) : Prop :=
  ∃ before a after sp sq, l = before ++ a :: after ∧ M.run s₀ before = .ok sp ∧
    begins before sp a ∧ M.step sp a = .ok sq ∧ M.RunVia (fun x _ => holds x) sq after s

namespace Since

variable {s₀ s s' : σ} {l : List α} {a : α}

/-- A span begins. -/
theorem start (hrun : M.run s₀ l = .ok s) (hbegins : begins l s a) (hstep : M.step s a = .ok s') :
    M.Since s₀ begins holds (l ++ [a]) s' :=
  ⟨l, a, [], s, s', rfl, hrun, hbegins, hstep, .nil s'⟩

/-- A span goes on while the condition holds. -/
theorem next (h : M.Since s₀ begins holds l s) (hs : holds s) (hstep : M.step s a = .ok s') :
    M.Since s₀ begins holds (l ++ [a]) s' := by
  obtain ⟨before, b, after, sp, sq, rfl, hrun, hb, hsp, hvia⟩ := h
  refine ⟨before, b, after ++ [a], sp, sq, ?_, hrun, hb, hsp, hvia.concat hs hstep⟩
  rw [List.append_assoc, List.cons_append]

end Since

end Machine
