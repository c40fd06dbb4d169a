import Mathlib.Logic.Function.Basic

/-!
# Accounts of resources

An account records which resources are held.  Taking a resource that is held (so that its
first handle is lost) and giving back one that is not held are misuses, and the account
remembers them.
-/

/-- What is held, and whether there was a misuse. -/
structure Account (ρ : Type) where
  held : ρ → Bool := fun _ => false
  misused : Bool := false

namespace Account

variable {ρ : Type} [DecidableEq ρ]

def acquire (a : Account ρ) (r : ρ) : Account ρ :=
  ⟨Function.update a.held r true, a.misused || a.held r⟩

def release (a : Account ρ) (r : ρ) : Account ρ :=
  ⟨Function.update a.held r false, a.misused || !a.held r⟩

/-- Exactly `f` is held, and there was no misuse. -/
structure Shows (a : Account ρ) (f : ρ → Bool) : Prop where
  held : a.held = f
  fair : a.misused = false

namespace Shows

variable {a : Account ρ} {f f' : ρ → Bool} {r : ρ}

omit [DecidableEq ρ] in
/-- What is shown depends on the values of the predicate only. -/
theorem congr (h : a.Shows f) (hf : ∀ q, f' q = f q) : a.Shows f' :=
  ⟨h.held.trans (funext fun q => (hf q).symm), h.fair⟩

/-- A resource that is not held is acquired. -/
theorem acquire (h : a.Shows f) (hr : f r = false) :
    (a.acquire r).Shows (Function.update f r true) := by
  refine ⟨?_, ?_⟩
  · show Function.update a.held r true = _
    rw [h.held]
  · show (a.misused || a.held r) = false
    rw [h.fair, h.held, hr]
    rfl

/-- A resource that is held is released. -/
theorem release (h : a.Shows f) (hr : f r = true) :
    (a.release r).Shows (Function.update f r false) := by
  refine ⟨?_, ?_⟩
  · show Function.update a.held r false = _
    rw [h.held]
  · show (a.misused || !a.held r) = false
    rw [h.fair, h.held, hr]
    rfl

/-- Giving back different resources that are all held. -/
theorem releaseAll :
    ∀ (l : List ρ) {a : Account ρ} {f : ρ → Bool}, a.Shows f → l.Nodup →
      (∀ r ∈ l, f r = true) →
      (l.foldl Account.release a).Shows fun q => if q ∈ l then false else f q := by
  intro l
  induction l with
  | nil =>
      intro a f h _ _
      exact h.congr fun q => by simp
  | cons r rest ih =>
      intro a f h hnodup hall
      obtain ⟨hnot, hnodup'⟩ := List.nodup_cons.mp hnodup
      have hrest : ∀ q ∈ rest, Function.update f r false q = true := by
        intro q hq
        have hne : q ≠ r := fun heq => hnot (heq ▸ hq)
        rw [Function.update_of_ne hne]
        exact hall q (List.mem_cons_of_mem _ hq)
      refine (ih (h.release (hall r List.mem_cons_self)) hnodup' hrest).congr fun q => ?_
      by_cases hq : q = r
      · subst hq
        simp
      · simp [hq]

end Shows

end Account
