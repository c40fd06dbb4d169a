import Croutine.OnePlace
import Croutine.Quiet
import Croutine.WideSelect

/-!
# Every task is destroyed once

`worker_deinit` frees the tasks in the run queue and in the I/O wait table.  The others
were freed when they ended, or by the `worker_spawn` that could not publish them.  A task
parked on channels is reached because the request of shutdown has moved it to the run queue.
After the drain nothing fills the queue again: no worker is left, and nobody sleeps.
-/

namespace Croutine

/-! ## The drained runtime -/

/-- After shutdown was requested nobody sleeps on a channel. -/
theorem ThoroughRun.awake {backend : Backend} {s : Sys} (h : ThoroughRun backend s)
    (hdown : s.shutdownRequested = true) (t : TaskId) : (s.tasks t).state ≠ .waitingChannel := by
  intro ht
  obtain ⟨w, c, op, hw, _⟩ := (WaitInv.reach h).parked_waiter ht
  rw [h.queue_of_shutdown hdown] at hw
  exact absurd hw List.not_mem_nil

/-- Without an entry for the descriptor nobody is woken. -/
theorem wakeWaitingTasksLocked_none {o : Oracle} {s s' : Sys} {fd : Int} {ready : IoEvents}
    {success : Bool} {period n : Nat} (hvalid : s.io.Valid) (hnone : s.io.lookup fd = none)
    (h : wakeWaitingTasksLocked o s fd ready success period = .ok (s', n)) : s' = s ∧ n = 0 := by
  rcases wakeWaitingTasksLocked_ok h with ⟨_, hs, hn⟩ | ⟨i, e, tasks, rest, poller, s1, hfind, _⟩
  · exact ⟨hs, hn⟩
  · obtain ⟨e, _, _, _, hlook⟩ := ioWaitTableFind_some hvalid hfind
    rw [hnone] at hlook
    exact absurd hlook (by simp)

/-- Between the two steps of `worker_deinit` no step of the scheduler fills the queue. -/
theorem SchedStep.runq_of_drained {s s' : Sys} {a : Action} (h : SchedStep s a s')
    (hlife : LifeInv s) (hvalid : s.io.Valid) (hempty : ∀ fd, s.io.lookup fd = none)
    (hdrained : s.life = .drained) (hdrained' : s'.life = .drained) :
    s'.runq.tasks = s.runq.tasks := by
  have hdead : ∀ {w p}, s.wk.pc w = p → p.alive = true → False := by
    intro w p hpc halive
    have hquiet := hlife.quiet (by rw [hdrained]; rfl) w
    rw [hpc, halive] at hquiet
    exact absurd hquiet (by simp)
  have hshut : s.shutdownRequested = true := hlife.ending (by rw [hdrained]; rfl)
  cases h with
  | @spawnAlloc θ r hspawn hne =>
      rcases workerSpawnAlloc_cases s θ r with heq | ⟨l, _, heq⟩ | heq <;> rw [heq]
      · rw [spawnFailed_eq]
      · rw [spawnFailed_eq]; rfl
      · rfl
  | @spawnPublish hlock o θ t hmem =>
      rw [workerSpawnPublish_of_shutdown hshut]
      rw [spawnFailed_eq]
      rfl
  | forgetFd hlock hint hforget =>
      rcases workerForgetFd_ok hforget with ⟨_, rfl⟩ | ⟨_, s1, n, hwake, rfl⟩
      · rfl
      · obtain ⟨rfl, rfl⟩ := wakeWaitingTasksLocked_none hvalid (hempty _) hwake
        simp
  | pollerWake hmem | setReady fd mask => rfl
  | waitIo hlock hint hpc hframe => exact (hdead hpc rfl).elim
  | yield hpc hframe | returnIo hpc hframe | taskReturn hpc hframe => exact (hdead hpc rfl).elim
  | finishMain hpc | switchOut hpc | release hpc | cleanup hpc | resume hpc | kernelError hpc
  | filterBatch hpc => exact (hdead hpc rfl).elim
  | finishSched hlock hpc | reread hlock hpc | loop hlock hpc | condReturn hlock hpc =>
      exact (hdead hpc rfl).elim
  | requeue hlock hpc h | pollReturn hlock hpc h | pollFailed hlock hpc h =>
      exact (hdead hpc rfl).elim
  | kernelReturn hpc hbatch => exact (hdead hpc rfl).elim
  | runtimeInit hlock hl => exact absurd hdrained' (by simp)
  | runCall hl | createWorker hl | waitForMain hl | joinWorkers hl =>
      exact absurd hdrained' (by simp)
  | deinitDrain hlock hl => exact absurd (hdrained.symm.trans hl) (by simp)
  | deinitClose hl => exact absurd hdrained' (by simp [workerDeinitClose])

/-- **The run queue stays empty after the drain**, so that `worker_deinit` discards no task
with it. -/
theorem NarrowRun.drained_queue {backend : Backend} {s : Sys} (h : NarrowRun backend s) :
    s.life = .drained → s.runq.tasks = [] := by
  refine Machine.ReachVia.invariant (I := fun x => x.life = .drained → x.runq.tasks = []) ?_ ?_ h
  · intro x hx hd
    obtain ⟨wakeFd, workers, runCapacity, ioCapacity, _, _, rfl⟩ := hx
    exact absurd hd (by simp [Croutine.initial])
  · intro x a x' hx hI _ hstep hd'
    have hx : NarrowRun backend x := hx
    by_cases hd : x.life = .drained
    · have hlife := LifeInv.reach hx
      have htask := TaskInv.reach hx (by rw [hd]; simp)
      have hshut : x.shutdownRequested = true := hlife.ending (by rw [hd]; rfl)
      rcases step_kind hstep with hc | hs
      · rw [(hx.quiet hshut (hx.form hc)).runq]
        exact hI hd
      · rw [hs.runq_of_drained hlife htask.agree.valid (htask.emptied hd) hd hd']
        exact hI hd
    · obtain ⟨hlock, hl, rfl⟩ := step_drains hstep hd hd'
      exact (workerDeinitDrain_inv (TaskInv.reach hx (by rw [hl]; simp)) hlock).2.1

/-- **In such runs the task invariant outlives the scheduler.** -/
theorem NarrowRun.taskInv {backend : Backend} {s : Sys} (h : NarrowRun backend s) :
    TaskInv s := by
  refine Machine.ReachVia.invariant (I := TaskInv) ?_ ?_ h
  · intro x hx
    obtain ⟨wakeFd, workers, runCapacity, ioCapacity, _, _, rfl⟩ := hx
    exact TaskInv.initial backend wakeFd workers runCapacity ioCapacity
  · intro x a x' hx hI _ hstep
    have hx : NarrowRun backend x := hx
    rcases step_kind hstep with hc | hs
    · exact hI.chanView hc.view
    · refine hI.schedStep (LifeInv.reach hx) (fun hdown' => ?_) hs
      by_cases hdown : x.life = .down
      · rw [((IoInv.reach hx).gone hdown).runq]
      · exact hx.drained_queue (step_ends hstep hdown hdown').1

/-! ## Nothing refers to a task that is freed -/

/-- A task outside channel calls that does not wait for I/O is referred to by nothing. -/
theorem refersTo_of_outside {s : Sys} {t : TaskId} (hwait : WaitInv s.ch s.tasks)
    (hagree : IoAgree s.tasks s.io) (hcall : (s.tasks t).frame.call = none)
    (hio : (s.tasks t).state ≠ .waitingIo) : s.refersTo t = false := by
  refine Sys.refersTo_eq_false (fun c _ op w hw ht => ?_) hagree.valid fun fd d hslot =>
    hio ((hagree.slots fd d t).mp hslot).1
  have hlink : (s.ch.waiter w).channel ≠ none := by
    rw [(hwait.linked.mem.mp hw).1]
    simp
  have hown := hwait.owner_call hlink
  rw [ht, hcall] at hown
  exact absurd hown (by simp)

/-- A task that a step frees is outside channel calls and does not wait for I/O. -/
structure Frees (s s' : Sys) (t : TaskId) : Prop where
  log : s'.freeLog = s.freeLog ++ [⟨t, s.refersTo t⟩]
  call : (s.tasks t).frame.call = none
  state : (s.tasks t).state ≠ .waitingIo

theorem LoopOutcome.freeLog {w : WorkerId} {checked : Bool} {s s' : Sys}
    (h : LoopOutcome w checked s s') : s'.freeLog = s.freeLog := by
  cases h <;> rfl

theorem pollBatch_freeLog {o : Oracle} {events : List PollEvent} {s s' : Sys}
    (h : events.foldlM (applyPollEvent o) s = .ok s') : s'.freeLog = s.freeLog := by
  refine Res.foldlM_induct (I := fun x => x.freeLog = s.freeLog) ?_ events rfl h
  intro x e x' hx hstep
  obtain ⟨n, hwake⟩ := applyPollEvent_ok hstep
  exact (wakeWaitingTasksLocked_woke hwake).freeLog.trans hx

theorem ChanView.freeLog {s s' : Sys} (h : ChanView s s') : s'.freeLog = s.freeLog := by
  cases h with
  | memory κ | returned hpc κ => rfl
  | wakes hlock hw => exact hw.sameCore.freeLog
  | park hlock hw hpc hframe frame =>
      unfold workerParkCurrentOnChannelLocked
      split <;> exact hw.sameCore.freeLog
  | shutdown hlock hmove hclose =>
      exact (croutineChannelShutdownAllLocked_wakes hclose).sameCore.freeLog

/-- Apart from the drain, a step frees at most one task. -/
theorem SchedStep.frees {s s' : Sys} {a : Action} (h : SchedStep s a s') (htask : TaskInv s) :
    s'.freeLog = s.freeLog ∨ (∃ t, Frees s s' t) ∨
      (s.wk.lock = none ∧ s.life = .shutJoin ∧
        s' = { workerDeinitDrain s with life := .drained }) := by
  obtain ⟨loc, hloc⟩ := htask.placed
  have hfail : ∀ (x : Sys) (m : Bool), (spawnFailed x m).freeLog = x.freeLog := by
    intro x m
    rw [spawnFailed_eq]
  cases h with
  | @spawnAlloc θ r hspawn hne =>
      have hat := hloc.next_unborn.2
      have hcall : (s.tasks s.nextTask).frame.call = none := by rw [hat.1]; rfl
      have hstate : (s.tasks s.nextTask).state ≠ .waitingIo := by rw [hat.1]; simp
      rcases workerSpawnAlloc_cases s θ r with heq | ⟨l, _, heq⟩ | heq <;> rw [heq]
      · exact .inl (hfail _ _)
      · exact .inr (.inl ⟨s.nextTask, hfail _ _, hcall, hstate⟩)
      · exact .inl rfl
  | @spawnPublish hlock o θ t hmem =>
      have hat := (hloc.spawned hmem).2
      have hcall : (s.tasks t).frame.call = none := by rw [hat.2.1]; rfl
      have hstate : (s.tasks t).state ≠ .waitingIo := by rw [hat.1.state]; simp
      rcases workerSpawnPublish_cases o s θ t with heq | ⟨_, s1, hpush, heq⟩ <;> rw [heq]
      · exact .inr (.inl ⟨t, hfail _ _, hcall, hstate⟩)
      · rcases taskQueuePush_some hpush with ⟨_, rfl⟩ | ⟨_, cap, _, rfl⟩ <;> exact .inl rfl
  | forgetFd hlock hint hforget =>
      rcases workerForgetFd_ok hforget with ⟨_, rfl⟩ | ⟨_, s1, n, hwake, rfl⟩
      · exact .inl rfl
      · have hl := (wakeWaitingTasksLocked_woke hwake).freeLog
        split <;> exact .inl hl
  | @waitIo hlock o w t fd direction hint hpc hframe =>
      refine .inl ?_
      rcases workerParkCurrentOnIo_form o s w t fd (IoEvents.none.put direction true) with
        ⟨_, _, heq⟩ | ⟨_, _, _, _, heq⟩
      · rw [heq]
      · rw [heq]; rfl
  | @requeue hlock o w t s1 hpc hrequeue =>
      obtain ⟨s2, hpush, rfl⟩ := requeueTask_ok hrequeue
      rcases taskQueuePush_some hpush with ⟨_, rfl⟩ | ⟨_, cap, _, rfl⟩ <;> exact .inl rfl
  | @cleanup w t hpc =>
      obtain ⟨hwaiting, hframe⟩ := htask.fits hpc
      refine .inr (.inl ⟨t, rfl, by rw [hframe]; rfl, fun habs => ?_⟩)
      rw [habs] at hwaiting
      exact absurd hwaiting (by simp [TaskState.waiting])
  | @loop hlock w checked hpc => exact .inl (loopBody_outcome w checked s).freeLog
  | @condReturn hlock w signalled checked hpc => exact .inl (loopBody_outcome w checked _).freeLog
  | pollReturn hlock hpc hpoll =>
      rcases leavePoll_ok hpoll with ⟨_, rfl⟩ | ⟨_, s2, hbatch, hout⟩
      · exact .inl rfl
      · have hl := pollBatch_freeLog hbatch
        exact .inl (hout.freeLog.trans hl)
  | pollFailed hlock hpc hpoll =>
      obtain ⟨_, rfl⟩ := leavePollError_ok hpoll
      exact .inl rfl
  | deinitDrain hlock hl => exact .inr (.inr ⟨hlock, hl, rfl⟩)
  | deinitClose hl | runtimeInit hlock hl => exact .inl rfl
  | runCall hl | createWorker hl | waitForMain hl | joinWorkers hl => exact .inl rfl
  | pollerWake hmem | setReady fd mask => exact .inl rfl
  | yield hpc hframe | returnIo hpc hframe | taskReturn hpc hframe => exact .inl rfl
  | finishMain hpc | switchOut hpc | release hpc | resume hpc | kernelError hpc
  | filterBatch hpc => exact .inl rfl
  | finishSched hlock hpc | reread hlock hpc => exact .inl rfl
  | kernelReturn hpc hbatch => exact .inl rfl

/-- **No channel queue and no wait entry refers to a task when it is freed.** -/
theorem ThoroughRun.unreferenced {backend : Backend} {s : Sys} (h : ThoroughRun backend s) :
    ∀ r ∈ s.freeLog, r.referenced = false := by
  refine Machine.ReachVia.invariant (I := fun x => ∀ r ∈ x.freeLog, r.referenced = false) ?_ ?_ h
  · intro x hx
    obtain ⟨wakeFd, workers, runCapacity, ioCapacity, _, _, rfl⟩ := hx
    simp [Croutine.initial]
  · intro x a x' hx hI _ hstep r hr
    have hx : ThoroughRun backend x := hx
    have htask := hx.narrow.taskInv
    rcases step_kind hstep with hc | hs
    · rw [hc.view.freeLog] at hr
      exact hI r hr
    · rcases hs.frees htask with hsame | ⟨t, hfree⟩ | ⟨hlock, hl, rfl⟩
      · rw [hsame] at hr
        exact hI r hr
      · rw [hfree.log] at hr
        rcases List.mem_append.mp hr with hr | hr
        · exact hI r hr
        · rw [List.mem_singleton.mp hr]
          exact refersTo_of_outside (WaitInv.reach hx) htask.agree hfree.call hfree.state
      · have hshut : x.shutdownRequested = true :=
          (LifeInv.reach hx).ending (by rw [hl]; rfl)
        have hdrain := (workerDeinitDrain_inv htask hlock).1
        rcases hdrain.unreferenced (fun c _ op => hx.queue_of_shutdown hshut c op) r hr with
          hold | hnew
        · exact hI r hold
        · exact hnew

/-! ## After shutdown -/

theorem Pc.alive_of_holds {p : Pc} {t : TaskId} (h : p.holds = some t) : p.alive = true := by
  cases p with
  | notStarted | exited => exact absurd h (by simp [Pc.holds])
  | dispatched | running | finishMain | finishSched | switching | returned | requeue | cleanup
  | reread | top | condWait | polling | polled | filtered | pollError => rfl

/-- A task that was allocated and is in no other place was freed. -/
theorem TaskInv.freed_of_nowhere {s : Sys} {loc : TaskId → Place} {t : TaskId} (h : TaskInv s)
    (hloc : s.Placed loc) (ht : t < s.nextTask) (hspawn : t ∉ s.spawns.map Prod.snd)
    (hheld : ∀ w, (s.wk.pc w).holds ≠ some t) (hqueue : t ∉ s.runq.tasks)
    (hio : ∀ fd, s.io.lookup fd = none) (hawake : (s.tasks t).state ≠ .waitingChannel) :
    loc t = .freed := by
  have hat := hloc.taskAt t
  cases hl : loc t with
  | freed => rfl
  | unborn => exact absurd ((hloc.unborn t).mpr hl) (Nat.not_le.mpr ht)
  | spawning => exact absurd ((hloc.spawning.mem t).mpr hl) hspawn
  | exec w => exact absurd ((hloc.held w t).mpr hl) (hheld w)
  | queue => exact absurd ((hloc.queued.mem t).mpr hl) hqueue
  | io =>
      rw [hl] at hat
      obtain ⟨d, hd⟩ := h.agree.parked t hat.1.state
      have hslot := (h.agree.slots _ d t).mpr
        ⟨hat.1.state, rfl, by rw [hd, IoEvents.has_put_none]⟩
      unfold IoWaitTable.slot at hslot
      rw [hio] at hslot
      exact absurd hslot (by simp)
  | channel =>
      rw [hl] at hat
      exact absurd hat.1.state hawake

/-- When the scheduler is gone, a task that no `worker_spawn` call holds was released. -/
theorem ThoroughRun.released {backend : Backend} {s : Sys} (h : ThoroughRun backend s)
    (hdown : s.life = .down) {t : TaskId} (ht : t < s.nextTask) (hspawn : ∀ θ, (θ, t) ∉ s.spawns) :
    Released (s.ledger t) := by
  have hlife := LifeInv.reach h
  have hgone := (IoInv.reach h).gone hdown
  have htask := h.narrow.taskInv
  obtain ⟨loc, hloc⟩ := htask.placed
  have hfreed : loc t = .freed := by
    refine htask.freed_of_nowhere hloc ht (fun hmem => ?_) (fun w hheld => ?_) ?_ ?_
      (h.awake (hlife.ending (by rw [hdown]; rfl)) t)
    · obtain ⟨⟨θ, u⟩, hp, rfl⟩ := List.mem_map.mp hmem
      exact hspawn θ hp
    · have hquiet := hlife.quiet (by rw [hdown]; rfl) w
      rw [Pc.alive_of_holds hheld] at hquiet
      exact absurd hquiet (by simp)
    · rw [hgone.runq]
      exact List.not_mem_nil
    · intro fd
      rw [hgone.io]
      rfl
  have hat := hloc.taskAt t
  rw [hfreed] at hat
  exact hat.2.2

/-- **Every task is destroyed once.**  When `croutine_runtime_shutdown` has returned, every
task whose `worker_spawn` has returned was freed once, with its stack and its argument; and
whenever a task is freed, no channel queue and no wait entry refers to it. -/
theorem every_task_destroyed_once {backend : Backend} {s : Sys} (h : ThoroughRun backend s) :
    (s.life = .down → ∀ t < s.nextTask, (∀ θ, (θ, t) ∉ s.spawns) → Released (s.ledger t)) ∧
      ∀ r ∈ s.freeLog, r.referenced = false :=
  ⟨fun hdown _ ht hspawn => h.released hdown ht hspawn, h.unreferenced⟩

/-- The main task waits to receive when shutdown is requested; the runtime is then taken
down. -/
def shutDownWhileParked : List Action :=
  oneChannel ++ [.channelRecv (.worker 0) 0 0 .calm] ++ handOver 0 ++
    [.requestShutdown (.external 0) .calm, .loop 0, .waitForMain, .joinWorkers,
      .shutdownCall .calm, .pollerWake .runtime, .deinitDrain, .deinitClose]

theorem every_task_destroyed_once_parked :
    ∃ s, ThoroughRun .epoll s ∧ s.life = .down ∧ s.nextTask = 1 ∧ Released (s.ledger 0) ∧
      s.freeLog = [⟨0, false⟩] := by
  have hrun : ThoroughRun .epoll ((runtime .epoll).after (small 1) shutDownWhileParked) :=
    .after (small_init 1 (by decide)) (by decide) (by decide +kernel)
  have hdestroyed := every_task_destroyed_once hrun
  refine ⟨_, hrun, by decide +kernel, by decide +kernel,
    hdestroyed.1 (by decide +kernel) 0 (by decide +kernel) ?_, by decide +kernel⟩
  have hnone : ((runtime .epoll).after (small 1) shutDownWhileParked).spawns = [] := by
    decide +kernel
  simp [hnone]

/-- A task parked on a closed channel by a select of `2 ^ 32 + 1` cases is never freed. -/
theorem wide_select_never_destroyed :
    ∃ s, (runtime .epoll).Reach s ∧ s.life = .down ∧ s.spawns = [] ∧ 0 < s.nextTask ∧
      (s.ledger 0).structAllocs = 1 ∧ (s.ledger 0).structFrees = 0 := by
  obtain ⟨W, cases, hreach⟩ := @reach_wideSelect
    (oneChannel ++ [.channelClose (.external 0) 0 .calm])
    (handOver 0 ++ [.requestShutdown (.external 0) .calm, .loop 0, .waitForMain, .joinWorkers,
      .shutdownCall .calm, .pollerWake .runtime, .deinitDrain, .deinitClose]) 0 .recv 0
    (by decide +kernel) (by decide +kernel) (fun _ _ => rfl)
  exact ⟨_, hreach, rfl, rfl, Nat.one_pos, rfl, rfl⟩

end Croutine
