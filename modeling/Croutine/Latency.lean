import Croutine.Dispatch
import Croutine.Aborts
import Croutine.Lib.Progress

/-!
# How soon a worker takes a task

A worker that looks for a task first asks the poller without waiting, so that ready descriptors
are not starved by a full queue, and only then pops the queue.  With work in the queue it does
so once: `checked_ready_io` keeps it from polling again before it has taken a task.  So in any
interleaving a worker in the scheduling loop takes a task after at most four steps of its own,
and none of these steps has to wait for user code.
-/

namespace Croutine

/-- Steps of a worker in the scheduling loop. -/
def Action.ofLoop (w : WorkerId) : Action → Bool
  | .loop v | .condReturn v | .kernelReturn v _ | .kernelError v | .filterBatch v
  | .pollReturn v _ => v = w
  | _ => false

namespace Pc

/-- The worker is in the scheduling loop. -/
def inLoop : Pc → Bool
  | .top _ | .condWait _ _ | .polling _ | .polled _ | .filtered _ | .pollError => true
  | _ => false

/-- How many steps of its own the worker makes at most before it takes a task. -/
def rounds : Pc → Nat
  | .top false | .condWait _ false => 4
  | .polling _ => 3
  | .polled _ => 2
  | .top true | .condWait _ true | .filtered _ | .pollError => 1
  | _ => 0

/-- The bound is at most four. -/
theorem rounds_le_four (p : Pc) : p.rounds ≤ 4 := by
  cases p with
  | top checked | condWait _ checked => cases checked <;> simp [rounds]
  | _ => simp [rounds]

/-- In the loop at least one step is left. -/
theorem rounds_pos {p : Pc} (h : p.inLoop = true) : 0 < p.rounds := by
  cases p with
  | top checked | condWait _ checked => cases checked <;> simp [rounds]
  | polling _ | polled _ | filtered _ | pollError => simp [rounds]
  | _ => exact absurd h Bool.false_ne_true

/-- A signal takes a sleeping worker no nearer and no farther. -/
theorem rounds_signal (p : Pc) : p.signal.rounds = p.rounds := by
  cases p with
  | condWait signalled checked => cases checked <;> rfl
  | _ => rfl

/-- A signal does not take a worker out of its loop. -/
theorem inLoop_signal (p : Pc) : p.signal.inLoop = p.inLoop := by
  cases p <;> rfl

end Pc

/-- The worker is handed the task at the head of the queue it sees. -/
def TakesTask (w : WorkerId) (s : Sys) (a : Action) (s' : Sys) : Prop :=
  a.ofLoop w = true ∧ ∃ t, s'.wk.pc w = .dispatched t ∧ s.runq.tasks.head? = some t

/-! ## The scheduling loop with work in the queue -/

/-- **The loop body.** With a task in the queue and no stop asked for, the loop body takes the
first task, or it polls first where the poll is due. -/
theorem loopBody_takes (w : WorkerId) (checked : Bool) {s : Sys} {t : TaskId}
    {rest : List TaskId} (hgo : s.stopping = false) (hqueue : s.runq.tasks = t :: rest) :
    (loopBody w checked s).wk.pc w = .dispatched t ∨
    checked = false ∧ (loopBody w checked s).wk.pc w = .polling .zero := by
  unfold loopBody
  rw [show (s.shutdownRequested || s.schedulerMainFinished) = false from hgo]
  simp only [hqueue, List.isEmpty_cons, Bool.not_false, Bool.false_eq_true, if_false,
    Bool.not_true, Bool.false_or]
  cases checked with
  | true =>
      simp only [Bool.not_true, Bool.and_false, Bool.false_eq_true, if_false, taskQueuePop, hqueue]
      exact .inl (Function.update_self ..)
  | false =>
      cases hactive : s.wk.pollerWaiterActive with
      | false =>
          refine .inr ⟨rfl, ?_⟩
          simp only [Bool.not_false, Bool.and_self, if_true]
          exact Function.update_self ..
      | true =>
          simp only [Bool.not_true, Bool.false_and, Bool.false_eq_true, if_false, taskQueuePop,
            hqueue]
          exact .inl (Function.update_self ..)

/-- A batch adds to the queue at its end. -/
theorem pollBatch_head {o : Oracle} {events : List PollEvent} {s s' : Sys} (h : TaskInv s)
    (hlock : s.wk.lock = none) (hbatch : events.foldlM (applyPollEvent o) s = .ok s') {t : TaskId}
    {rest : List TaskId} (hqueue : s.runq.tasks = t :: rest) :
    ∃ rest', s'.runq.tasks = t :: rest' := by
  obtain ⟨woken, hdel⟩ := TaskInv.deliver_batch events h hlock hbatch
  refine ⟨rest ++ woken, ?_⟩
  rw [hdel.queue, hqueue, List.cons_append]

/-- Handling a batch of poll events does not stop the scheduler. -/
theorem pollBatch_stopping {o : Oracle} {events : List PollEvent} {s s' : Sys}
    (h : events.foldlM (applyPollEvent o) s = .ok s') : s'.stopping = s.stopping := by
  refine Res.foldlM_induct (I := fun x => x.stopping = s.stopping) ?_ events rfl h
  intro x e x' hx hstep
  obtain ⟨n, hwake⟩ := applyPollEvent_ok hstep
  have hwoke := wakeWaitingTasksLocked_woke hwake
  rw [← hx]
  unfold Sys.stopping
  rw [hwoke.shutdownRequested, hwoke.schedulerMainFinished]

variable {backend : Backend} {s s' : Sys} {a : Action} {w : WorkerId}

/-- **An own step of a worker** with work in the queue takes a task or uses up a round. -/
theorem step_ofLoop (hreach : (runtime backend).Reach s) (h : step s a = .ok s')
    (ha : a.ofLoop w = true) (hgo : s.stopping = false) (hwork : s.runq.tasks ≠ []) :
    TakesTask w s a s' ∨
      (s'.wk.pc w).inLoop = true ∧ (s'.wk.pc w).rounds + 1 ≤ (s.wk.pc w).rounds := by
  obtain ⟨t, rest, hqueue⟩ := List.exists_cons_of_ne_nil hwork
  have hhead : s.runq.tasks.head? = some t := by rw [hqueue]; rfl
  cases a with
  | loop v =>
      obtain rfl : v = w := by simpa [Action.ofLoop] using ha
      obtain ⟨_, _, hrest⟩ := Res.bind_ok.mp h
      split at hrest
      · next checked hpc =>
        obtain rfl := Res.pure_ok.mp hrest
        rcases loopBody_takes v checked hgo hqueue with hd | ⟨rfl, hp⟩
        · exact .inl ⟨ha, t, hd, hhead⟩
        · rw [hp, hpc]
          exact .inr ⟨rfl, Nat.le_refl 4⟩
      · exact absurd hrest (by simp)
  | condReturn v =>
      obtain rfl : v = w := by simpa [Action.ofLoop] using ha
      obtain ⟨_, _, hrest⟩ := Res.bind_ok.mp h
      split at hrest
      · next signalled checked hpc =>
        obtain rfl := Res.pure_ok.mp hrest
        rcases loopBody_takes v checked
          (s := s.mapWk fun wk => { wk with idleWorkers := wk.idleWorkers - 1 }) hgo hqueue with
          hd | ⟨rfl, hp⟩
        · exact .inl ⟨ha, t, hd, hhead⟩
        · unfold leaveCondWait
          rw [hp, hpc]
          exact .inr ⟨rfl, Nat.le_refl 4⟩
      · exact absurd hrest (by simp)
  | kernelReturn v batch =>
      obtain rfl : v = w := by simpa [Action.ofLoop] using ha
      simp only [step] at h
      split at h
      · next timeout hpc =>
        split at h
        · next raw hraw =>
          obtain rfl := Except.ok.inj h
          have hpc' : (s.setPc v (.polled raw)).wk.pc v = .polled raw := Function.update_self ..
          rw [hpc', hpc]
          exact .inr ⟨rfl, Nat.le_refl 3⟩
        · exact absurd h (by simp)
      · exact absurd h (by simp)
  | kernelError v =>
      obtain rfl : v = w := by simpa [Action.ofLoop] using ha
      simp only [step] at h
      split at h
      · next timeout hpc =>
        obtain rfl := Except.ok.inj h
        have hpc' : (s.setPc v .pollError).wk.pc v = .pollError := Function.update_self ..
        rw [hpc', hpc]
        exact .inr ⟨rfl, by simp [Pc.rounds]⟩
      · exact absurd h (by simp)
  | filterBatch v =>
      obtain rfl : v = w := by simpa [Action.ofLoop] using ha
      simp only [step] at h
      split at h
      · next raw hpc =>
        obtain rfl := Except.ok.inj h
        simp only [Sys.mapWk, Workers.setPc, Function.update_self, hpc]
        exact .inr ⟨rfl, Nat.le_refl 2⟩
      · exact absurd h (by simp)
  | pollReturn v o =>
      obtain rfl : v = w := by simpa [Action.ofLoop] using ha
      obtain ⟨_, hreq, hrest⟩ := Res.bind_ok.mp h
      have hlock : s.wk.lock = none := Sys.lockFree_iff.mp (by simpa using hreq)
      split at hrest
      · next events hpc =>
        have hdown : s.life ≠ .down :=
          fun hdown => (LifeInv.reach hreach).down_dead hdown hpc rfl
        have htask := (TaskInv.reach hreach hdown).releasePoller
        unfold leavePoll at hrest
        dsimp only at hrest
        rw [show ((releasePoller s).shutdownRequested || (releasePoller s).schedulerMainFinished) =
          false from hgo] at hrest
        obtain ⟨s1, hbatch, hret⟩ := Res.bind_ok.mp hrest
        obtain rfl := Res.pure_ok.mp hret
        obtain ⟨rest', hqueue'⟩ := pollBatch_head htask hlock hbatch hqueue
        have hgo' : s1.stopping = false := (pollBatch_stopping hbatch).trans hgo
        rcases loopBody_takes v true hgo' hqueue' with hd | ⟨habs, _⟩
        · exact .inl ⟨ha, t, hd, hhead⟩
        · exact absurd habs (by simp)
      · obtain ⟨hstop, _⟩ := leavePollError_ok hrest
        exact absurd (hgo.symm.trans hstop) (by simp)
      · exact absurd hrest (by simp)
  | _ => exact absurd ha (by simp [Action.ofLoop])

/-- **A step of anyone else** leaves a worker in the loop where it is. -/
theorem step_besidesLoop (hreach : (runtime backend).Reach s) (h : step s a = .ok s')
    (ha : a.ofLoop w = false) (hin : (s.wk.pc w).inLoop = true) :
    (s'.wk.pc w).inLoop = true ∧ (s'.wk.pc w).rounds = (s.wk.pc w).rounds := by
  rcases step_moved h (IoInv.reach hreach).agree w with heq | heq | hmove
  · rw [heq]
    exact ⟨hin, rfl⟩
  · rw [heq, Pc.inLoop_signal, Pc.rounds_signal]
    exact ⟨hin, rfl⟩
  · exfalso
    generalize hp : s.wk.pc w = p at hmove hin
    generalize s'.wk.pc w = p' at hmove
    cases hmove with
    | start hlife =>
        have hne : s.wk.pc w ≠ .notStarted := by
          intro habs
          rw [← hp, habs] at hin
          exact Bool.false_ne_true hin
        have hlt := (LifeInv.reach hreach).started w hne
        rw [hlife] at hlt
        exact Nat.lt_irrefl _ hlt
    | loop | wakeUp | kernelReturn | kernelError | filterBatch | pollReturn | pollFailed =>
        simp [Action.ofLoop] at ha
    | _ => exact Bool.false_ne_true hin

/-- Whenever the worker makes a step in the loop there is work for it. -/
def Busy (w : WorkerId) (s : Sys) (a : Action) : Prop :=
  a.ofLoop w = true → s.stopping = false ∧ s.runq.tasks ≠ []

/-- **A worker takes a task within four steps of its own.**  In every interleaving in which a
worker of the scheduling loop finds work queued whenever it looks, one of its first four steps
hands it the task at the head of the queue: it polls at most once before. -/
theorem takes_task_within_four {l : List Action} (hreach : (runtime backend).Reach s)
    (hin : (s.wk.pc w).inLoop = true) (hr : (runtime backend).RunVia (Busy w) s l s')
    (hfour : 4 ≤ l.countP (Action.ofLoop w)) :
    ∃ before a after x x', l = before ++ a :: after ∧
      (runtime backend).RunVia (Busy w) s before x ∧ step x a = .ok x' ∧ TakesTask w x a x' ∧
      before.countP (Action.ofLoop w) < 4 := by
  have hstep : ∀ {x a x'}, (runtime backend).Reach x ∧ (x.wk.pc w).inLoop = true → Busy w x a →
      step x a = .ok x' → TakesTask w x a x' ∧ 0 < (x.wk.pc w).rounds ∨
        ((runtime backend).Reach x' ∧ (x'.wk.pc w).inLoop = true) ∧
          (x'.wk.pc w).rounds + (if a.ofLoop w then 1 else 0) ≤ (x.wk.pc w).rounds := by
    intro x a x' ⟨hx, hloop⟩ hbusy hs
    have hx' : (runtime backend).Reach x' := hx.step trivial hs
    cases ha : a.ofLoop w with
    | true =>
        obtain ⟨hgo, hwork⟩ := hbusy ha
        rcases step_ofLoop hx hs ha hgo hwork with htakes | ⟨hloop', hle⟩
        · exact .inl ⟨htakes, Pc.rounds_pos hloop⟩
        · exact .inr ⟨⟨hx', hloop'⟩, hle⟩
    | false =>
        obtain ⟨hloop', heq⟩ := step_besidesLoop hx hs ha hloop
        exact .inr ⟨⟨hx', hloop'⟩, by rw [heq]; exact Nat.le_refl _⟩
  have hle := Pc.rounds_le_four (s.wk.pc w)
  rcases Machine.RunVia.counts (fun x => (x.wk.pc w).rounds) hstep ⟨hreach, hin⟩ hr with
    ⟨before, a, after, x, x', hl, hvia, hx, ⟨htakes, hpos⟩, hcount⟩ | ⟨⟨_, hloop⟩, hcount⟩
  · exact ⟨before, a, after, x, x', hl, hvia, hx, htakes, by omega⟩
  · have hpos := Pc.rounds_pos hloop
    omega

/-- The main task runs on worker 0 and has queued a task for worker 1. -/
def oneQueued : List Action :=
  startUp 2 ++ dispatchOn 0 ++
    [.spawnAlloc (.worker 0) (.plain false), .spawnPublish (.worker 0) 1 .calm]

/-- Worker 1 polls and takes the task. -/
def fourSteps : List Action :=
  [.loop 1, .kernelReturn 1 [], .filterBatch 1, .pollReturn 1 .calm]

theorem takes_task_within_four_idle_worker :
    ∃ s s', (runtime .epoll).Reach s ∧ (s.wk.pc 1).inLoop = true ∧
      (runtime .epoll).RunVia (Busy 1) s fourSteps s' ∧ s'.wk.pc 1 = .dispatched 1 ∧
      ∃ before a after x x', fourSteps = before ++ a :: after ∧
        (runtime .epoll).RunVia (Busy 1) s before x ∧ step x a = .ok x' ∧ TakesTask 1 x a x' ∧
        before.countP (Action.ofLoop 1) < 4 := by
  have hreach : (runtime .epoll).Reach ((runtime .epoll).after (small 2) oneQueued) :=
    Machine.reach_after (small_init 2 (by decide)) (by decide)
  have hr : (runtime .epoll).RunVia (Busy 1) ((runtime .epoll).after (small 2) oneQueued)
      fourSteps ((runtime .epoll).after (small 2) (oneQueued ++ fourSteps)) :=
    .cons (fun _ => by decide) (Machine.step_eq_after (by decide))
      (.cons (fun _ => by decide) (Machine.step_eq_after (by decide))
        (.cons (fun _ => by decide) (Machine.step_eq_after (by decide))
          (.cons (fun _ => by decide) (Machine.step_eq_after (by decide)) (.nil _))))
  exact ⟨_, _, hreach, by decide, hr, by decide,
    takes_task_within_four hreach (by decide) hr (by decide)⟩

end Croutine
