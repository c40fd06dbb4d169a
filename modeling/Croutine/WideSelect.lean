import Croutine.OpenQueues

/-!
# Selects with more than `2 ^ 32` cases

`croutine_select` takes its number of cases as a `size_t` and keeps the order in which it
tries them in `uint32_t` indices.  The index of case `2 ^ 32` becomes that of case `0`, so
with more cases the last ones are not tried; their waiters are registered all the same.
`wideCases` is the smallest such list: one case behind `2 ^ 32` cases without a channel.

The select that evaluates it parks whatever the state of its channel is.  The waiters of
the cases without a channel are linked nowhere, and no later step looks at them, so
`Sys.parkWide` leaves them open: what follows from it holds for any contents of those.
-/

namespace Croutine

def SelectCase.null : SelectCase := ⟨none, .send, 0⟩

/-- One case behind `n` cases without a channel. -/
def casesBehind (n : Nat) (cs : SelectCase) : List SelectCase := List.replicate n .null ++ [cs]

/-- One case behind `2 ^ 32` cases without a channel. -/
def wideCases (cs : SelectCase) : List SelectCase := casesBehind (2 ^ 32) cs

/-- The allocation of the try order fails, so the cases are tried in source order. -/
def SelectChoice.source : SelectChoice := ⟨1, 0, false, true⟩

/-! ## The try phase -/

/-- Cases without a channel are passed over. -/
theorem selectTryCases_null (o : Oracle) (call : CallId) {cases : List SelectCase} (s : Sys) :
    ∀ (order : List Nat), (∀ i ∈ order, ∀ cs, cases[i]? = some cs → cs.channel = none) →
      selectTryCases o call cases order s = .ok (s, none) := by
  intro order
  induction order with
  | nil => intro _; rfl
  | cons i rest ih =>
      intro hnull
      have hrest := ih fun j hj => hnull j (List.mem_cons_of_mem _ hj)
      rw [selectTryCases]
      cases hcase : cases[i]? with
      | none => exact hrest
      | some cs =>
          have htry : trySelectCaseLocked o s ⟨call, i⟩ cs = .ok (s, none) := by
            unfold trySelectCaseLocked
            rw [hnull i List.mem_cons_self cs hcase]
          dsimp only
          rw [htry]
          exact hrest

section

variable {n : Nat} {cs : SelectCase}

/-- The cases before and the one behind. -/
theorem casesBehind_length : (casesBehind n cs).length = n + 1 := by
  simp [casesBehind]

/-- Only cases without a channel are tried when their number is a multiple of `2 ^ 32`. -/
theorem casesBehind_tried (hn : n = 2 ^ 32) :
    ∀ i ∈ selectOrder .source (casesBehind n cs).length, ∀ x, (casesBehind n cs)[i]? = some x →
      x.channel = none := by
  intro i hi x hx
  have hlt : i < n := by
    unfold selectOrder at hi
    rw [casesBehind_length] at hi
    have hbranch : (decide (n + 1 ≤ 32) || SelectChoice.source.orderOk) = false := by
      have hbig : ¬n + 1 ≤ 32 := by omega
      simp [hbig, SelectChoice.source]
    dsimp only at hi
    rw [hbranch, if_neg (by simp)] at hi
    obtain ⟨j, _, rfl⟩ := List.mem_map.mp hi
    rw [hn]
    exact Nat.mod_lt _ (by decide)
  unfold casesBehind at hx
  rw [List.getElem?_append_left (by rw [List.length_replicate]; exact hlt),
    List.getElem?_replicate, if_pos hlt] at hx
  rw [← Option.some.inj hx]
  rfl

/-! ## The registration -/

/-- Cases without a channel only lay out waiters. -/
theorem selectRegister_nulls (t : TaskId) (call : CallId) (rest : List SelectCase) :
    ∀ (n i : Nat) (κ : Chans),
      ∃ W, selectRegister t call i (List.replicate n .null ++ rest) κ =
        selectRegister t call (i + n) rest { κ with waiter := W } := by
  intro n
  induction n with
  | zero => intro i κ; exact ⟨κ.waiter, rfl⟩
  | succ n ih =>
      intro i κ
      obtain ⟨W, hW⟩ := ih (i + 1)
        { κ with waiter := Function.update κ.waiter ⟨call, i⟩ (selectWaiter t call i .null) }
      refine ⟨W, ?_⟩
      rw [List.replicate_succ, List.cons_append, selectRegister,
        show i + (n + 1) = i + 1 + n by omega]
      exact hW

end

/-- The state in which a task has parked in a select, with the waiter of case `n` linked
and `W` for all others. -/
def Sys.parkBehind (s : Sys) (n : Nat) (w : WorkerId) (t : TaskId) (c : ChanId) (op : Direction)
    (slot : Addr) (W : WaiterId → Waiter) (cases : List SelectCase) : Sys :=
  workerParkCurrentOnChannelLocked
    { s with
      ch := { s.ch.tick.setSelect s.ch.clock {} with waiter := W }.park c ⟨s.ch.clock, n⟩
        (selectWaiter t s.ch.clock n ⟨some c, op, slot⟩) }
    w t (.select s.ch.clock cases)

/-- A select whose only case stands behind `2 ^ 32` others parks without trying it. -/
theorem select_parks_behind {s : Sys} {n : Nat} {w : WorkerId} {t : TaskId} {c : ChanId}
    {op : Direction} {slot : Addr} (hn : n = 2 ^ 32) (hact : s.canAct (.worker w) = true)
    (hlock : s.lockFree = true) (hpc : s.wk.pc w = .running t) (hc : c ∈ s.ch.registry) :
    ∃ W, step s (.select (.worker w) (casesBehind n ⟨some c, op, slot⟩) false .source .calm) =
      .ok (s.parkBehind n w t c op slot W (casesBehind n ⟨some c, op, slot⟩)) := by
  obtain ⟨W, hW⟩ := selectRegister_nulls t s.ch.clock [⟨some c, op, slot⟩] n 0
    (s.ch.tick.setSelect s.ch.clock {})
  refine ⟨W, ?_⟩
  have hreg : (casesBehind n ⟨some c, op, slot⟩).all
      (fun cs => cs.channel.all s.ch.registry.contains) = true := by
    simp [casesBehind, SelectCase.null, hc]
  have hempty : (casesBehind n ⟨some c, op, slot⟩).isEmpty = false := by
    simp [casesBehind]
  have hsome : (casesBehind n ⟨some c, op, slot⟩).all (fun cs => cs.channel.isNone) = false := by
    simp [casesBehind]
  have htry := selectTryCases_null .calm s.ch.clock s.ticked _
    (@casesBehind_tried n ⟨some c, op, slot⟩ hn)
  have hcur : s.ticked.currentTask (.worker w) = some t := Sys.currentTask_worker hpc
  have hparks : ((false || (decide ((casesBehind n ⟨some c, op, slot⟩).length > 32) &&
      !SelectChoice.source.waitersOk) ||
      (casesBehind n ⟨some c, op, slot⟩).all (fun cs => cs.channel.isNone)) = true) = False := by
    rw [hsome]
    simp [SelectChoice.source]
  have hselect : croutineSelect .calm .source s (.worker w) (casesBehind n ⟨some c, op, slot⟩)
      false = .ok (s.parkBehind n w t c op slot W (casesBehind n ⟨some c, op, slot⟩)) := by
    unfold croutineSelect
    dsimp only
    rw [hempty, if_neg (by simp), show s.mapCh Chans.tick = s.ticked from rfl, htry]
    simp only [bind, Except.bind, hcur, hparks, if_false, pure, Except.pure]
    unfold Sys.parkBehind Sys.mapCh
    dsimp only
    rw [show s.ticked.ch = s.ch.tick from rfl, casesBehind, hW, Nat.zero_add]
    rfl
  simp only [step, hact, hlock, hreg, Bool.and_self, Res.require, if_true]
  exact hselect

/-- A task evaluates `wideCases` without a default arm. -/
def Action.wideSelect (w : WorkerId) (cs : SelectCase) : Action :=
  .select (.worker w) (wideCases cs) false .source .calm

/-- The state after `Action.wideSelect`, with `W` for the waiters that are linked nowhere. -/
def Sys.parkWide (s : Sys) (w : WorkerId) (t : TaskId) (c : ChanId) (op : Direction) (slot : Addr)
    (W : WaiterId → Waiter) (cases : List SelectCase) : Sys :=
  s.parkBehind (2 ^ 32) w t c op slot W cases

/-- **A select with more than `2 ^ 32` cases parks without having tried the last one.** -/
theorem wideSelect_parks {s : Sys} {w : WorkerId} {t : TaskId} {c : ChanId} (op : Direction)
    (slot : Addr) (hact : s.canAct (.worker w) = true) (hlock : s.lockFree = true)
    (hpc : s.wk.pc w = .running t) (hc : c ∈ s.ch.registry) :
    ∃ W, step s (.wideSelect w ⟨some c, op, slot⟩) =
      .ok (s.parkWide w t c op slot W (wideCases ⟨some c, op, slot⟩)) :=
  select_parks_behind rfl hact hlock hpc hc

/-- A run of the small runtime in which the main task evaluates `wideCases` after `before`,
and the steps `later` follow. -/
theorem reach_wideSelect (before later : List Action) (c : ChanId) (op : Direction) (slot : Addr)
    (hbefore : (runtime .epoll).runs (small 1) before = true)
    (hready : let s := (runtime .epoll).after (small 1) before
      s.canAct (.worker 0) = true ∧ s.lockFree = true ∧ s.wk.pc 0 = .running 0 ∧
        c ∈ s.ch.registry)
    (hlater : ∀ W cases, (runtime .epoll).runs (((runtime .epoll).after (small 1) before).parkWide
      0 0 c op slot W cases) later = true) :
    ∃ W cases, (runtime .epoll).Reach ((runtime .epoll).after (((runtime .epoll).after (small 1)
      before).parkWide 0 0 c op slot W cases) later) := by
  obtain ⟨hact, hlock, hpc, hc⟩ := hready
  obtain ⟨W, hstep⟩ := wideSelect_parks op slot hact hlock hpc hc
  refine ⟨W, wideCases ⟨some c, op, slot⟩, ?_⟩
  have hreach : (runtime .epoll).Reach ((runtime .epoll).after (small 1) before) :=
    Machine.reach_after (small_init 1 (by decide)) hbefore
  have hparked : (runtime .epoll).Reach (((runtime .epoll).after (small 1) before).parkWide 0 0 c
      op slot W (wideCases ⟨some c, op, slot⟩)) :=
    .step (a := Action.wideSelect 0 ⟨some c, op, slot⟩) hreach trivial hstep
  exact Machine.ReachVia.run later hparked (fun _ _ _ => trivial)
    (Machine.run_eq_after (hlater W _))

end Croutine
