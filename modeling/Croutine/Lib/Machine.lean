import Mathlib.Logic.Basic

/-!
# Guarded machines that may stop

A machine here is a partial step function: an action either produces the next
state, is not enabled, or stops the whole program with a message.  The actions
carry every choice of the environment, so one step function describes every
interleaving.

The rules below are the only induction over runs in this development: an
invariant is proved for the initial states and for one step, and
`Machine.ReachVia.invariant` lifts it to every state of every run.  Runs may be
restricted to steps that meet a condition on the state before the step, which is
how results that hold only under such a condition are stated.
-/

/-- Why a step has no successor: its guard is false, or the program stopped. -/
inductive Stop where
  | disabled
  | abort (message : String)
  deriving DecidableEq, Repr

/-- Result of a computation that may stop. -/
abbrev Res (α : Type) := Except Stop α

namespace Res

/-- Continue only when the guard holds. -/
def require (guard : Bool) : Res Unit :=
  if guard then .ok () else .error .disabled

/-- A sequence returns when both parts do. -/
theorem bind_ok {α β : Type} {x : Res α} {f : α → Res β} {b : β} :
    (x >>= f) = .ok b ↔ ∃ a, x = .ok a ∧ f a = .ok b := by
  cases x with
  | error e => simp [bind, Except.bind]
  | ok a => simp [bind, Except.bind]

/-- What `pure` returns. -/
theorem pure_ok {α : Type} {a b : α} :
    (pure a : Res α) = .ok b ↔ a = b := by
  simp [pure, Except.pure]

/-- A guard lets pass what meets it. -/
@[simp] theorem require_ok {guard : Bool} {u : Unit} :
    require guard = .ok u ↔ guard = true := by
  cases guard <;> simp [require]

/-- A mapped computation returns what is mapped. -/
theorem map_ok {α β : Type} {x : Res α} {f : α → β} {b : β} :
    x.map f = .ok b ↔ ∃ a, x = .ok a ∧ f a = b := by
  cases x <;> simp [Except.map]

/-- Mapping the first component before or after it is paired. -/
theorem map_bind_pair {α β : Type} (x : Res α) (f : α → α) (b : β) :
    (x.map f >>= fun a => pure (a, b)) =
      (x >>= fun a => pure (a, b)).map fun p => (f p.1, p.2) := by
  cases x <;> rfl

/-- A property kept by every step of a monadic fold is kept by the fold; the step is
over an element of the list. -/
theorem foldlM_induct_mem {α β : Type} {f : β → α → Res β} {I : β → Prop} :
    ∀ (l : List α) {b b' : β}, (∀ b a b', a ∈ l → I b → f b a = .ok b' → I b') →
      I b → l.foldlM f b = .ok b' → I b' := by
  intro l
  induction l with
  | nil =>
      intro b b' _ hb h
      rw [List.foldlM_nil, pure_ok] at h
      exact h ▸ hb
  | cons a rest ih =>
      intro b b' hstep hb h
      rw [List.foldlM_cons, bind_ok] at h
      obtain ⟨c, hc, hrest⟩ := h
      exact ih (fun x y z hy => hstep x y z (List.mem_cons_of_mem _ hy))
        (hstep b a c List.mem_cons_self hb hc) hrest

/-- **Loop rule.** What every round of a loop keeps, the loop keeps. -/
theorem foldlM_induct {α β : Type} {f : β → α → Res β} {I : β → Prop}
    (hstep : ∀ b a b', I b → f b a = .ok b' → I b') (l : List α) {b b' : β} (hb : I b)
    (h : l.foldlM f b = .ok b') : I b' :=
  foldlM_induct_mem l (fun x a y _ => hstep x a y) hb h

/-- A fold whose every step returns under an invariant it keeps returns. -/
theorem foldlM_returns {α β : Type} {f : β → α → Res β} {I : β → Prop}
    (hstep : ∀ b a, I b → ∃ b', f b a = .ok b' ∧ I b') :
    ∀ (l : List α) {b : β}, I b → ∃ b', l.foldlM f b = .ok b' ∧ I b' := by
  intro l
  induction l with
  | nil =>
      intro b hb
      exact ⟨b, rfl, hb⟩
  | cons a rest ih =>
      intro b hb
      obtain ⟨c, hc, hI⟩ := hstep b a hb
      obtain ⟨b', hb', hI'⟩ := ih hI
      exact ⟨b', by rw [List.foldlM_cons, bind_ok]; exact ⟨c, hc, hb'⟩, hI'⟩

/-- The computation does not stop the program with one of the messages. -/
def Avoids {α : Type} (messages : List String) (x : Res α) : Prop :=
  ∀ m ∈ messages, x ≠ .error (.abort m)

namespace Avoids

variable {α β : Type} {messages : List String} {x : Res α} {f : α → Res β}

/-- A return avoids every message. -/
theorem ok (a : α) : Avoids messages (.ok a) := by
  intro m _ habs
  exact absurd habs (by simp)

/-- A computation that returns avoids every message. -/
theorem of_returns (h : ∃ a, x = .ok a) : x.Avoids messages := by
  obtain ⟨a, rfl⟩ := h
  exact ok a

/-- A disabled step avoids every message. -/
theorem disabled : Avoids messages (.error .disabled : Res α) := by
  intro m _ habs
  exact absurd habs (by simp)

/-- An abort with another message avoids the messages. -/
theorem abort {m : String} (hm : m ∉ messages) :
    Avoids messages (.error (.abort m) : Res α) := by
  intro m' hm' habs
  cases habs
  exact hm hm'

/-- A guard never aborts. -/
theorem require (guard : Bool) : (Res.require guard).Avoids messages := by
  cases guard with
  | false => exact disabled
  | true => exact ok ()

/-- A sequence avoids the messages when both parts do. -/
theorem bind (hx : x.Avoids messages) (hf : ∀ a, x = .ok a → (f a).Avoids messages) :
    (x >>= f).Avoids messages := by
  cases x with
  | error e =>
      intro m hm habs
      refine hx m hm ?_
      simpa [Bind.bind, Except.bind] using habs
  | ok a => exact hf a rfl

/-- A loop avoids the messages when its body does. -/
theorem foldlM {f : β → α → Res β} (h : ∀ b a, (f b a).Avoids messages) :
    ∀ (l : List α) (b : β), (l.foldlM f b).Avoids messages := by
  intro l
  induction l with
  | nil => exact fun b => ok b
  | cons a rest ih =>
      intro b
      rw [List.foldlM_cons]
      exact bind (h b a) fun b' _ => ih b'

end Avoids

end Res

/-- A set of initial states and a step function driven by actions. -/
structure Machine (σ α : Type) where
  init : σ → Prop
  step : σ → α → Res σ

namespace Machine

variable {σ α : Type} (M : Machine σ α)

/-- States reached by runs whose every step meets `allowed`. -/
inductive ReachVia (allowed : σ → α → Prop) : σ → Prop
  | init {s : σ} (h : M.init s) : ReachVia allowed s
  | step {s s' : σ} {a : α} (h : ReachVia allowed s) (ha : allowed s a)
      (hs : M.step s a = .ok s') : ReachVia allowed s'

/-- States reached by any run. -/
def Reach : σ → Prop :=
  M.ReachVia fun _ _ => True

/-- Execute a list of actions. -/
def run : σ → List α → Res σ
  | s, [] => .ok s
  | s, a :: rest => M.step s a >>= fun s' => run s' rest

/-- The state after a list of actions that can all be executed. -/
def after (s : σ) (l : List α) : σ :=
  match M.run s l with
  | .ok s' => s'
  | .error _ => s

/-- The actions can all be executed, one after the other. -/
def runs (s : σ) (l : List α) : Bool :=
  match M.run s l with
  | .ok _ => true
  | .error _ => false

/-- Every action meets a condition on the state before it. -/
def meets (check : σ → α → Bool) : σ → List α → Bool
  | _, [] => true
  | s, a :: rest =>
    check s a &&
      match M.step s a with
      | .ok s' => meets check s' rest
      | .error _ => true

variable {M}

/-- **Invariant rule.**  What holds initially and is kept by every allowed step
from a reached state holds in every state reached by allowed steps. -/
theorem ReachVia.invariant {allowed : σ → α → Prop} {I : σ → Prop}
    (hinit : ∀ s, M.init s → I s)
    (hstep : ∀ s a s', M.ReachVia allowed s → I s → allowed s a →
      M.step s a = .ok s' → I s')
    {s : σ} (h : M.ReachVia allowed s) : I s := by
  induction h with
  | init h => exact hinit _ h
  | step hreach ha hs ih => exact hstep _ _ _ hreach ih ha hs

/-- A run restricted to fewer steps is a run. -/
theorem ReachVia.mono {allowed allowed' : σ → α → Prop}
    (himp : ∀ s a, allowed s a → allowed' s a)
    {s : σ} (h : M.ReachVia allowed s) : M.ReachVia allowed' s := by
  induction h with
  | init h => exact .init h
  | step _ ha hs ih => exact .step ih (himp _ _ ha) hs

/-- Every state of a restricted run is reachable. -/
theorem ReachVia.reach {allowed : σ → α → Prop} {s : σ}
    (h : M.ReachVia allowed s) : M.Reach s :=
  h.mono fun _ _ _ => trivial

/-- **Projection rule.**  A machine whose every step is a step of another one below it, or
leaves the state below alone, reaches only states that the machine below reaches. -/
theorem ReachVia.project {τ β : Type} {N : Machine τ β} {π : τ → σ} {allowed : τ → β → Prop}
    (hinit : ∀ t, N.init t → M.init (π t))
    (hstep : ∀ t b t', N.step t b = .ok t' → π t' = π t ∨ ∃ a, M.step (π t) a = .ok (π t'))
    {t : τ} (h : N.ReachVia allowed t) : M.Reach (π t) := by
  induction h with
  | init h => exact .init (hinit _ h)
  | step _ _ hs ih =>
      rcases hstep _ _ _ hs with heq | ⟨a, ha⟩
      · rw [heq]
        exact ih
      · exact .step ih trivial ha

/-- A run over two words is one run after the other. -/
theorem run_append (l l' : List α) {s : σ} :
    M.run s (l ++ l') = (M.run s l >>= fun t => M.run t l') := by
  induction l generalizing s with
  | nil => rfl
  | cons a l ih =>
      rw [List.cons_append, Machine.run, Machine.run]
      cases M.step s a with
      | error e => rfl
      | ok t => exact ih

/-- The last action of a run. -/
theorem run_concat_ok {l : List α} {a : α} {s s' : σ} (h : M.run s (l ++ [a]) = .ok s') :
    ∃ t, M.run s l = .ok t ∧ M.step t a = .ok s' := by
  rw [run_append, Res.bind_ok] at h
  obtain ⟨t, ht, hlast⟩ := h
  rw [Machine.run, Res.bind_ok] at hlast
  obtain ⟨u, hu, hend⟩ := hlast
  obtain rfl := Except.ok.inj hend
  exact ⟨t, ht, hu⟩

/-- What every action of a list keeps holds after the list was executed. -/
theorem run_induct {I : σ → Prop} :
    ∀ (l : List α) {s s' : σ}, (∀ t a t', a ∈ l → I t → M.step t a = .ok t' → I t') → I s →
      M.run s l = .ok s' → I s' := by
  intro l
  induction l with
  | nil =>
      intro s s' _ hI hr
      simp only [Machine.run, Except.ok.injEq] at hr
      exact hr ▸ hI
  | cons a rest ih =>
      intro s s' hstep hI hr
      rw [Machine.run, Res.bind_ok] at hr
      obtain ⟨t, ht, hrest⟩ := hr
      exact ih (fun x b y hb => hstep x b y (List.mem_cons_of_mem _ hb))
        (hstep s a t List.mem_cons_self hI ht) hrest

/-- **Continuation rule.**  What holds in a reached state and is kept by every allowed step
holds in every continuation by allowed steps. -/
theorem ReachVia.run_invariant {allowed : σ → α → Prop} {I : σ → Prop}
    (hstep : ∀ s a s', M.ReachVia allowed s → I s → allowed s a → M.step s a = .ok s' → I s')
    (l : List α) {s s' : σ} (h : M.ReachVia allowed s) (hI : I s)
    (hall : ∀ a ∈ l, ∀ t, allowed t a) (hr : M.run s l = .ok s') :
    M.ReachVia allowed s' ∧ I s' := by
  refine run_induct (I := fun t => M.ReachVia allowed t ∧ I t) l ?_ ⟨h, hI⟩ hr
  rintro t a t' ha ⟨hreach, ht⟩ hs
  exact ⟨.step hreach (hall a ha t) hs, hstep t a t' hreach ht (hall a ha t) hs⟩

/-- Executing actions from a reached state reaches their result. -/
theorem ReachVia.run {allowed : σ → α → Prop} (l : List α) {s s' : σ}
    (h : M.ReachVia allowed s) (hall : ∀ a ∈ l, ∀ t, allowed t a) (hr : M.run s l = .ok s') :
    M.ReachVia allowed s' :=
  (run_invariant (I := fun _ => True) (fun _ _ _ _ _ _ _ => trivial) l h trivial hall hr).1

/-- A run that goes through ends in `after`. -/
theorem run_eq_after {s : σ} {l : List α} (h : M.runs s l = true) :
    M.run s l = .ok (M.after s l) := by
  unfold runs at h
  unfold after
  split at h
  · next heq => rw [heq]
  · exact absurd h (by simp)

/-- A step that goes through ends in `after`. -/
theorem step_eq_after {s : σ} {a : α} (h : M.runs s [a] = true) :
    M.step s a = .ok (M.after s [a]) := by
  have hrun := run_eq_after h
  rw [run, Res.bind_ok] at hrun
  obtain ⟨t, ht, hret⟩ := hrun
  rw [ht]
  exact hret

/-- Executing actions from an initial state reaches their result. -/
theorem reachVia_after {allowed : σ → α → Prop} {s : σ} {l : List α} (h : M.init s)
    (hall : ∀ a ∈ l, ∀ t, allowed t a) (hr : M.runs s l = true) :
    M.ReachVia allowed (M.after s l) :=
  ReachVia.run l (.init h) hall (run_eq_after hr)

/-- A run from an initial state that goes through ends in a reachable state. -/
theorem reach_after {s : σ} {l : List α} (h : M.init s) (hr : M.runs s l = true) :
    M.Reach (M.after s l) :=
  reachVia_after h (fun _ _ _ => trivial) hr

/-- Executing actions that meet an executable condition reaches their result by steps
that meet it. -/
theorem ReachVia.runMeets {check : σ → α → Bool} :
    ∀ (l : List α) {s s' : σ}, M.ReachVia (fun t a => check t a = true) s →
      M.meets check s l = true → M.run s l = .ok s' →
      M.ReachVia (fun t a => check t a = true) s' := by
  intro l
  induction l with
  | nil =>
      intro s s' h _ hr
      simp only [Machine.run, Except.ok.injEq] at hr
      exact hr ▸ h
  | cons a rest ih =>
      intro s s' h hmeets hr
      rw [Machine.run, Res.bind_ok] at hr
      obtain ⟨t, ht, hrest⟩ := hr
      rw [meets, Bool.and_eq_true, ht] at hmeets
      exact ih (.step h hmeets.1 ht) hmeets.2 hrest

/-- A run whose steps all pass the check ends in a state reachable through such steps. -/
theorem reachVia_after_meets {check : σ → α → Bool} {s : σ} {l : List α} (h : M.init s)
    (hmeets : M.meets check s l = true) (hr : M.runs s l = true) :
    M.ReachVia (fun t a => check t a = true) (M.after s l) :=
  ReachVia.runMeets l (.init h) hmeets (run_eq_after hr)

end Machine
