import Croutine.Steps

/-!
# What the worker loop does

The inversion of `wake_waiting_tasks_locked`, of the body of the scheduling loop, of
the return from a poll, of the two halves of `worker_spawn` and of a park on a
descriptor, and what an I/O wake leaves alone as seen from the scheduler.
-/

namespace Croutine

/-- The ready log after a task was woken: only readiness is recorded. -/
def readyLogged (s : Sys) (fd : Int) (t : TaskId) (success : Bool) (period : Nat) :
    List ReadyRecord :=
  if success then s.readyLog ++ [⟨t, fd, (s.tasks t).ioPeriod, period⟩] else s.readyLog

/-- A task whose descriptor is ready is appended to the run queue, which may have been doubled.
-/
theorem wakeIoTask_ok {o : Oracle} {fd : Int} {success : Bool} {period : Nat} {s s' : Sys}
    {t : TaskId} (h : wakeIoTask o fd success period s t = .ok s') :
    ∃ cap, Doubled s.runq.capacity cap ∧
      s' = { s with
        tasks := Function.update s.tasks t
          { (s.tasks t).requeued with ioWakeSuccess := success }
        runq := s.runq.pushed t (s.tasks t).queued cap
        readyLog := readyLogged s fd t success period } := by
  unfold wakeIoTask at h
  split at h
  · exact absurd h (by simp)
  · next s1 hs1 =>
    obtain ⟨cap, hcap, rfl⟩ := enqueueRunnableTaskLocked_some hs1
    refine ⟨cap, hcap, ?_⟩
    split at h
    · next hs =>
      cases h
      simp [Sys.setTask, Task.requeued, readyLogged, hs]
    · next hs =>
      cases h
      simp [Sys.setTask, Task.requeued, readyLogged, hs]

/-- The table after the entry at `i` lost the tasks it wakes. -/
def ioAfterWake (table : IoWaitTable) (i : Nat) (rest : IoWaitEntry) : IoWaitTable :=
  if ioWaitEntryEvents rest = .none then
    ioWaitTableRemoveEntry (table.setEntry i rest) i
  else table.setEntry i rest

/-- What `wake_waiting_tasks_locked` does: nothing for a descriptor without an
entry, and otherwise the registration and the entry are updated before the tasks
are made runnable. -/
theorem wakeWaitingTasksLocked_ok {o : Oracle} {s s' : Sys} {fd : Int} {ready : IoEvents}
    {success : Bool} {period n : Nat}
    (h : wakeWaitingTasksLocked o s fd ready success period = .ok (s', n)) :
    (ioWaitTableFind s.io fd = none ∧ s' = s ∧ n = 0) ∨
    ∃ i entry tasks rest poller s1, ioWaitTableFind s.io fd = some i ∧
      entry = s.io.entries.getD i ioWaitEntryReset ∧
      takeReadyTasks entry ready = (tasks, rest) ∧
      croutinePollerSet o.poller s.poller fd (ioWaitEntryEvents entry)
        (ioWaitEntryEvents rest) = (poller, true) ∧
      tasks.foldlM (wakeIoTask o fd success period)
        { s with poller := poller, io := ioAfterWake s.io i rest } = .ok s1 ∧
      s' = (if tasks = [] then s1 else s1.mapWk Workers.condBroadcast) ∧
      n = tasks.length := by
  unfold wakeWaitingTasksLocked at h
  split at h
  · next hfind =>
    obtain ⟨rfl, rfl⟩ := Prod.mk.inj (Except.ok.inj h)
    exact .inl ⟨hfind, rfl, rfl⟩
  · next i hfind =>
    dsimp only at h
    split at h
    · exact absurd h (by simp)
    · next hok =>
      obtain ⟨s1, hs1, hret⟩ := Res.bind_ok.mp h
      obtain ⟨rfl, rfl⟩ := Prod.mk.inj (Res.pure_ok.mp hret)
      refine .inr ⟨i, _, (takeReadyTasks _ ready).1, (takeReadyTasks _ ready).2, _, s1, hfind,
        rfl, rfl, ?_, hs1, rfl, rfl⟩
      exact Prod.ext rfl (by simpa using hok)

/-- What the scheduler sees of an I/O wake that made `n` tasks runnable. -/
structure IoWoke (s s' : Sys) (n : Nat) : Prop where
  ch : s'.ch = s.ch
  ledger : s'.ledger = s.ledger
  freeLog : s'.freeLog = s.freeLog
  nextTask : s'.nextTask = s.nextTask
  spawns : s'.spawns = s.spawns
  shutdownRequested : s'.shutdownRequested = s.shutdownRequested
  schedulerMainFinished : s'.schedulerMainFinished = s.schedulerMainFinished
  mainSpawned : s'.mainSpawned = s.mainSpawned
  life : s'.life = s.life
  isMain : ∀ t, (s'.tasks t).isMain = (s.tasks t).isMain
  none : n = 0 → s'.runq = s.runq ∧ s'.wk = s.wk
  some : 0 < n → s'.wk = s.wk.condBroadcast

/-- The loop over the tasks to wake writes the tasks, the run queue and the ready
log. -/
theorem wakeIoTasks_frame {o : Oracle} {fd : Int} {success : Bool} {period : Nat}
    (l : List TaskId) {s s' : Sys}
    (h : l.foldlM (wakeIoTask o fd success period) s = .ok s') :
    ∃ tasks runq log, s' = { s with tasks := tasks, runq := runq, readyLog := log } ∧
      ∀ t, (tasks t).isMain = (s.tasks t).isMain := by
  refine Res.foldlM_induct (I := fun x => ∃ tasks runq log,
    x = { s with tasks := tasks, runq := runq, readyLog := log } ∧
      ∀ t, (tasks t).isMain = (s.tasks t).isMain) ?_ l
    ⟨s.tasks, s.runq, s.readyLog, rfl, fun _ => rfl⟩ h
  rintro x t x' ⟨tasks, runq, log, rfl, hmain⟩ hstep
  obtain ⟨cap, _, rfl⟩ := wakeIoTask_ok hstep
  refine ⟨_, _, _, rfl, fun u => ?_⟩
  by_cases hu : u = t
  · subst hu
    simpa [Task.requeued] using hmain u
  · simpa [hu] using hmain u

/-- **What the scheduler sees of `wake_waiting_tasks_locked`.** -/
theorem wakeWaitingTasksLocked_woke {o : Oracle} {s s' : Sys} {fd : Int} {ready : IoEvents}
    {success : Bool} {period n : Nat}
    (h : wakeWaitingTasksLocked o s fd ready success period = .ok (s', n)) :
    IoWoke s s' n := by
  rcases wakeWaitingTasksLocked_ok h with ⟨_, rfl, rfl⟩ |
    ⟨i, entry, tasks, rest, poller, s1, _, _, _, _, hfold, rfl, rfl⟩
  · exact ⟨rfl, rfl, rfl, rfl, rfl, rfl, rfl, rfl, rfl, fun _ => rfl,
      fun _ => ⟨rfl, rfl⟩, fun h => absurd h (by simp)⟩
  · obtain ⟨tasks', runq, log, rfl, hmain⟩ := wakeIoTasks_frame tasks hfold
    by_cases htasks : tasks = []
    · subst htasks
      cases hfold
      exact ⟨rfl, rfl, rfl, rfl, rfl, rfl, rfl, rfl, rfl, fun _ => rfl,
        fun _ => ⟨rfl, rfl⟩, fun h => absurd h (by simp)⟩
    · rw [if_neg htasks]
      exact ⟨rfl, rfl, rfl, rfl, rfl, rfl, rfl, rfl, rfl, hmain,
        fun hzero => absurd (List.length_eq_zero_iff.mp hzero) htasks, fun _ => rfl⟩

/-- An I/O wake only broadcasts. -/
theorem IoWoke.signals {s s' : Sys} {n : Nat} (h : IoWoke s s' n) : Signals s.wk s'.wk := by
  rcases Nat.eq_zero_or_pos n with hn | hn
  · rw [(h.none hn).2]
    exact fun _ => .inl rfl
  · rw [h.some hn]
    exact Signals.condBroadcast s.wk

/-- An I/O wake changes neither the number of workers, nor the lock, nor the poller's waiter.
-/
theorem IoWoke.fields {s s' : Sys} {n : Nat} (h : IoWoke s s' n) :
    s'.wk.count = s.wk.count ∧ s'.wk.lock = s.wk.lock ∧
      s'.wk.pollerWaiterActive = s.wk.pollerWaiterActive := by
  rcases Nat.eq_zero_or_pos n with hn | hn
  · rw [(h.none hn).2]
    exact ⟨rfl, rfl, rfl⟩
  · rw [h.some hn]
    exact ⟨rfl, rfl, rfl⟩

/-! ## The body of the scheduling loop -/

/-- The flags that make a worker leave its loop. -/
def Sys.stopping (s : Sys) : Bool := s.shutdownRequested || s.schedulerMainFinished

/-- The four ways one iteration of the scheduling loop can end. -/
inductive LoopOutcome (w : WorkerId) (checked : Bool) (s : Sys) : Sys → Prop
  | exit (hstop : s.stopping = true) : LoopOutcome w checked s (s.setPc w .exited)
  | poll (hgo : s.stopping = false) (hidle : s.wk.pollerWaiterActive = false)
      {timeout : Timeout} (htimeout : timeout = .infinite → s.runq.tasks = []) :
      LoopOutcome w checked s
        { s with wk := { s.wk.setPc w (.polling timeout) with pollerWaiterActive := true } }
  | dispatch (hgo : s.stopping = false) {t : TaskId} {rest : List TaskId}
      (hqueue : s.runq.tasks = t :: rest) :
      LoopOutcome w checked s
        { s with
          tasks := Function.update s.tasks t { s.tasks t with queued := false }
          runq := { s.runq with tasks := rest }
          wk := s.wk.setPc w (.dispatched t) }
  | sleep (hgo : s.stopping = false) (hactive : s.wk.pollerWaiterActive = true)
      (hqueue : s.runq.tasks = []) :
      LoopOutcome w checked s
        { s with
          wk := { s.wk.setPc w (.condWait false checked) with
            idleWorkers := s.wk.idleWorkers + 1 } }

/-- **What the loop does after a look at its conditions.** -/
theorem loopBody_outcome (w : WorkerId) (checked : Bool) (s : Sys) :
    LoopOutcome w checked s (loopBody w checked s) := by
  unfold loopBody
  split
  · next hstop => exact .exit hstop
  · next hgo =>
    have hgo : s.stopping = false := by simpa [Sys.stopping] using hgo
    dsimp only
    split
    · next hpoll =>
      simp only [Bool.and_eq_true, Bool.not_eq_true'] at hpoll
      refine .poll hgo hpoll.1 ?_
      intro hinf
      by_contra hne
      simp [hne] at hinf
    · next hpoll =>
      unfold taskQueuePop
      cases hqueue : s.runq.tasks with
      | nil =>
          refine .sleep hgo ?_ hqueue
          simpa [hqueue] using hpoll
      | cons t rest => exact .dispatch hgo hqueue

/-- A worker returned from a poll: it leaves at once, or applies its batch and runs
the loop body. -/
theorem leavePoll_ok {o : Oracle} {w : WorkerId} {events : List PollEvent} {s s' : Sys}
    (h : leavePoll o w events s = .ok s') :
    (s.stopping = true ∧ s' = (releasePoller s).setPc w .exited) ∨
    (s.stopping = false ∧ ∃ s1,
      events.foldlM (applyPollEvent o) (releasePoller s) = .ok s1 ∧
      LoopOutcome w true s1 s') := by
  unfold leavePoll at h
  dsimp only at h
  split at h
  · next hstop =>
    cases h
    exact .inl ⟨hstop, rfl⟩
  · next hgo =>
    obtain ⟨s1, hs1, hret⟩ := Res.bind_ok.mp h
    cases Res.pure_ok.mp hret
    refine .inr ⟨?_, s1, hs1, loopBody_outcome w true s1⟩
    simpa [Sys.stopping, releasePoller, Sys.mapWk] using hgo

/-- A worker whose poll failed exits, and aborts unless the runtime is stopping. -/
theorem leavePollError_ok {w : WorkerId} {s s' : Sys}
    (h : leavePollError w s = .ok s') :
    s.stopping = true ∧ s' = (releasePoller s).setPc w .exited := by
  unfold leavePollError at h
  dsimp only at h
  split at h
  · next hstop =>
    cases h
    exact ⟨hstop, rfl⟩
  · exact absurd h (by simp)

/-- An event of a batch wakes the tasks of its descriptor. -/
theorem applyPollEvent_ok {o : Oracle} {s s' : Sys} {e : PollEvent}
    (h : applyPollEvent o s e = .ok s') :
    ∃ n, wakeWaitingTasksLocked o s e.fd e.events true e.period = .ok (s', n) := by
  obtain ⟨⟨s1, n⟩, hs1, hret⟩ := Res.bind_ok.mp h
  cases Res.pure_ok.mp hret
  exact ⟨n, hs1⟩

/-- `worker_forget_fd` wakes every task of the descriptor and then owes a poller
wake if it woke one while a worker polls. -/
theorem workerForgetFd_ok {o : Oracle} {s s' : Sys} {θ : Thread} {fd : Int}
    (h : workerForgetFd o s θ fd = .ok s') :
    (fd < 0 ∧ s' = s) ∨
    (0 ≤ fd ∧ ∃ s1 n, wakeWaitingTasksLocked o s fd .all false 0 = .ok (s1, n) ∧
      s' = if 0 < n ∧ s1.wk.pollerWaiterActive then s1.mapWk (·.owe θ) else s1) := by
  unfold workerForgetFd at h
  split at h
  · next hneg =>
    cases h
    exact .inl ⟨hneg, rfl⟩
  · next hpos =>
    obtain ⟨⟨s1, n⟩, hs1, hret⟩ := Res.bind_ok.mp h
    exact .inr ⟨by omega, s1, n, hs1, (Res.pure_ok.mp hret).symm⟩

/-- A spawn that fails writes the lifecycle only, and that only for the main task. -/
theorem spawnFailed_eq (s : Sys) (isMain : Bool) :
    spawnFailed s isMain = { s with life := if isMain then .ranOut else s.life } := by
  cases isMain <;> rfl

/-- The allocations of `worker_spawn` fail, the struct of the task being free again if there
was one, or the task waits to be published. -/
theorem workerSpawnAlloc_cases (s : Sys) (θ : Thread) (r : SpawnRequest) :
    workerSpawnAlloc s θ r = spawnFailed s r.isMain ∨
    (∃ l : Ledger, (l = { structAllocs := 1 } ∨
        l = { structAllocs := 1, stackAllocs := 1, stackFrees := 1 }) ∧
      workerSpawnAlloc s θ r =
        spawnFailed ({ s with nextTask := s.nextTask + 1 }.freeStruct s.nextTask l) r.isMain) ∨
    workerSpawnAlloc s θ r =
      { { s with nextTask := s.nextTask + 1 }.setTask s.nextTask
          { isMain := r.isMain, hasStack := true, ownsArg := r.ownsArg, contextSaved := true } with
        ledger := Function.update s.ledger s.nextTask
          { structAllocs := 1, stackAllocs := 1, argAllocs := if r.ownsArg then 1 else 0 }
        spawns := (θ, s.nextTask) :: s.spawns } := by
  unfold workerSpawnAlloc
  dsimp only
  split
  · exact .inl rfl
  · split
    · exact .inr (.inl ⟨_, .inl rfl, rfl⟩)
    · split
      · exact .inr (.inl ⟨_, .inr rfl, rfl⟩)
      · exact .inr (.inr rfl)

/-- The critical section of `worker_spawn` frees the task, or has pushed it before the
shutdown was requested. -/
theorem workerSpawnPublish_cases (o : Oracle) (s : Sys) (θ : Thread) (t : TaskId) :
    workerSpawnPublish o s θ t =
      spawnFailed (cleanupTask { s with spawns := s.spawns.erase (θ, t) } t)
        (s.tasks t).isMain ∨
    s.shutdownRequested = false ∧
      ∃ s1, taskQueuePush o { s with spawns := s.spawns.erase (θ, t) } t = some s1 ∧
        workerSpawnPublish o s θ t = published s1 o θ t (s.tasks t).isMain := by
  unfold workerSpawnPublish
  dsimp only
  split
  · exact .inl rfl
  · next hgo =>
    simp only [Bool.or_eq_true, not_or, Bool.not_eq_true] at hgo
    split
    · next s1 hpush => exact .inr ⟨hgo.2, s1, hpush, rfl⟩
    · exact .inl rfl

/-- Publishing a task touches the workers only by a signal and a promised wake. -/
theorem published_fields (s : Sys) (o : Oracle) (θ : Thread) (t : TaskId) (isMain : Bool) :
    (published s o θ t isMain).wk.pc = (s.wk.condSignal o.pick).pc ∧
    (published s o θ t isMain).wk.count = s.wk.count ∧
    (published s o θ t isMain).wk.lock = s.wk.lock ∧
    (published s o θ t isMain).wk.idleWorkers = s.wk.idleWorkers ∧
    (published s o θ t isMain).wk.pollerWaiterActive = s.wk.pollerWaiterActive ∧
    (published s o θ t isMain).wk.wakePending = s.wk.wakePending := by
  obtain ⟨hcount, hlock, _, hidle, hactive, hpending⟩ := s.wk.condSignal_fields o.pick
  unfold published
  dsimp only
  split <;> exact ⟨rfl, hcount, hlock, hidle, hactive, hpending⟩

/-- Publishing a task moves no worker but by a signal. -/
theorem published_signals (s : Sys) (o : Oracle) (θ : Thread) (t : TaskId) (isMain : Bool) :
    Signals s.wk (published s o θ t isMain).wk := by
  intro v
  rw [(published_fields s o θ t isMain).1]
  exact Signals.condSignal o.pick s.wk v

/-- After the request a spawn frees its task. -/
theorem workerSpawnPublish_of_shutdown {o : Oracle} {s : Sys} {θ : Thread} {t : TaskId}
    (h : s.shutdownRequested = true) :
    workerSpawnPublish o s θ t =
      spawnFailed (cleanupTask { s with spawns := s.spawns.erase (θ, t) } t)
        (s.tasks t).isMain :=
  (workerSpawnPublish_cases o s θ t).resolve_right fun hgo =>
    absurd (hgo.1.symm.trans h) (by simp)

/-- `worker_park_current_on_io` writes the wait table and the poller only, or parks the task.
-/
theorem workerParkCurrentOnIo_form (o : Oracle) (s : Sys) (w : WorkerId) (t : TaskId) (fd : Int)
    (events : IoEvents) :
    (∃ io poller, workerParkCurrentOnIo o s w t fd events =
      { s with io := io, poller := poller }) ∨
    ∃ io i e poller, workerParkCurrentOnIo o s w t fd events =
      parkOnIo { s with io := io } w t fd events i e poller := by
  unfold workerParkCurrentOnIo
  split
  · exact .inl ⟨s.io, s.poller, rfl⟩
  · split
    · exact .inl ⟨_, s.poller, rfl⟩
    · dsimp only
      split
      · exact .inl ⟨_, s.poller, rfl⟩
      · split
        · exact .inr ⟨_, _, _, _, rfl⟩
        · exact .inl ⟨_, _, rfl⟩

/-- After its look at the flag a worker frees its task, puts it back, or has none. -/
theorem afterReread_cases (s : Sys) (t : TaskId) (st : TaskState) :
    afterReread s t st = .cleanup t ∨ afterReread s t st = .requeue t ∨
      afterReread s t st = .top false := by
  cases st with
  | runnable =>
      by_cases hs : s.shutdownRequested = true
      · exact .inl (by simp [afterReread, hs])
      · exact .inr (.inl (by simp [afterReread, hs]))
  | waitingIo | waitingChannel => exact .inr (.inr rfl)
  | finished => exact .inl rfl

/-- A task that yielded is pushed, and its worker is back at the top. -/
theorem requeueTask_ok {o : Oracle} {w : WorkerId} {t : TaskId} {s s' : Sys}
    (h : requeueTask o w t s = .ok s') :
    ∃ s1, taskQueuePush o s t = some s1 ∧
      s' = s1.mapWk fun wk => (wk.condSignal o.pick).setPc w (.top false) := by
  unfold requeueTask at h
  split at h
  · exact absurd h (by simp)
  · next s1 hs1 => exact ⟨s1, hs1, (Except.ok.inj h).symm⟩

/-! ## Teardown -/

/-- **Drain rule.**  What holds across a pop, across a cleanup and across the removal of a
wait entry, and composes, holds across the critical section of `worker_deinit`. -/
theorem workerDeinitDrain_induct {R : Sys → Sys → Prop} (hrefl : ∀ s, R s s)
    (htrans : ∀ {a b c : Sys}, R a b → R b c → R a c)
    (hpop : ∀ {s s1 : Sys} {t : TaskId}, taskQueuePop s = some (t, s1) → R s s1)
    (hclean : ∀ s t, R s (cleanupTask s t))
    (hremove : ∀ s i, R s { s with io := ioWaitTableRemoveEntry s.io i }) (s : Sys) :
    R s (workerDeinitDrain s) := by
  have hqueue : ∀ (l : List TaskId) (x : Sys), R x (drainRunQueue l x) := by
    intro l
    induction l with
    | nil => exact hrefl
    | cons _ rest ih =>
        intro x
        unfold drainRunQueue
        split
        · next t x1 hp => exact htrans (htrans (hpop hp) (hclean x1 t)) (ih _)
        · exact hrefl x
  have hoption : ∀ (x : Sys) (t : Option TaskId), R x (cleanupOption x t) := by
    intro x t
    cases t with
    | none => exact hrefl x
    | some t => exact hclean x t
  have hentry : ∀ (x : Sys) (i : Nat), R x (drainIoEntry x i) := by
    intro x i
    unfold drainIoEntry
    dsimp only
    split
    · exact hrefl x
    · split
      · exact htrans (htrans (hremove x i) (hoption _ _)) (hoption _ _)
      · exact htrans (hremove x i) (hoption _ _)
  have htable : ∀ (l : List Nat) (x : Sys), R x (l.foldl drainIoEntry x) := by
    intro l
    induction l with
    | nil => exact hrefl
    | cons i rest ih => exact fun x => htrans (hentry x i) (ih _)
  exact htrans (hqueue _ s) (htable _ _)

/-- What draining the run queue and the I/O wait table writes. -/
structure DrainFrame (s s' : Sys) : Prop where
  eq : s' = { s with
    tasks := s'.tasks, ledger := s'.ledger, freeLog := s'.freeLog, runq := s'.runq,
    io := s'.io }
  isMain : ∀ t, (s'.tasks t).isMain = true → (s.tasks t).isMain = true

namespace DrainFrame

theorem refl (s : Sys) : DrainFrame s s := ⟨rfl, fun _ => id⟩

theorem trans {s s1 s2 : Sys} (h : DrainFrame s s1) (h' : DrainFrame s1 s2) :
    DrainFrame s s2 := by
  refine ⟨?_, fun t ht => h.isMain t (h'.isMain t ht)⟩
  have h1 := h.eq
  have h2 := h'.eq
  rw [h1] at h2
  exact h2

/-- What `cleanup_task` writes, a drain may write. -/
theorem cleanup (s : Sys) (t : TaskId) : DrainFrame s (cleanupTask s t) := by
  refine ⟨rfl, fun u hu => ?_⟩
  by_cases hut : u = t
  · subst hut
    simp [cleanupTask, Sys.setTask] at hu
  · simpa [cleanupTask, Sys.setTask, Sys.freeStruct, hut] using hu

/-- What a pop writes, a drain may write. -/
theorem pop {s s1 : Sys} {t : TaskId} (h : taskQueuePop s = some (t, s1)) :
    DrainFrame s s1 := by
  unfold taskQueuePop at h
  split at h
  · exact absurd h (by simp)
  · next head rest _ =>
    obtain ⟨rfl, rfl⟩ := Prod.mk.inj (Option.some.inj h)
    refine ⟨rfl, fun u hu => ?_⟩
    by_cases hut : u = head
    · subst hut
      simpa [Sys.setTask] using hu
    · simpa [Sys.setTask, hut] using hu

/-- What `worker_deinit` writes before it closes the poller. -/
theorem deinit (s : Sys) : DrainFrame s (workerDeinitDrain s) :=
  workerDeinitDrain_induct refl trans pop cleanup (fun _ _ => ⟨rfl, fun _ => id⟩) s

end DrainFrame

end Croutine
