import Croutine.Sleep

/-!
# Lost wakeups

What the invariant of sleeping workers says about the runtime as a whole: a
runnable task has a worker that will find it, a request to stop reaches everybody,
and the exact condition under which one channel wake reaches a sleeping worker.
-/

namespace Croutine

/-- Blocked in `pthread_cond_wait` and not signalled, or inside
`croutine_poller_wait` without a timeout, a wake token or a ready descriptor. -/
def Sys.Asleep (s : Sys) (w : WorkerId) : Prop :=
  (s.wk.pc w).unsignalled = true ∨
    (s.wk.pc w = .polling .infinite ∧ s.wk.wakePending = false ∧
      ∀ fd, s.poller.reportable fd = .empty)

/-- A worker that sleeps is addressed by no wake. -/
theorem Sys.Asleep.unaddressed {s : Sys} {w : WorkerId} (h : s.Asleep w) :
    s.wk.Unaddressed w :=
  h.imp id fun hp => ⟨hp.1, hp.2.1⟩

/-- **No total stall.**  When no poller wake is still promised, a runnable task
and a worker that has not exited imply a worker that is not asleep, and a request
to stop leaves nobody asleep. -/
theorem no_total_stall {backend : Backend} {s : Sys}
    (h : (runtime backend).Reach s) (howes : s.wk.owes = []) :
    (s.runq.tasks ≠ [] → (∃ w, (s.wk.pc w).alive = true) →
      ∃ w, (s.wk.pc w).alive = true ∧ ¬s.Asleep w) ∧
    (s.shutdownRequested = true ∨ s.schedulerMainFinished = true → ∀ w, ¬s.Asleep w) := by
  have hinv := SleepInv.reach h
  refine ⟨fun hq hw => ?_, fun hstop w hw => ?_⟩
  · rcases hinv.responsive hq hw with ⟨v, halive, hawake⟩ | ⟨ho, _⟩
    · exact ⟨v, halive, fun hs => hawake hs.unaddressed⟩
    · exact absurd howes ho
  · have halert := hinv.alerted (by simpa [Sys.stopping] using hstop)
    rcases hw with hu | ⟨hp, hpend, _⟩
    · rw [halert.1 w] at hu
      exact absurd hu (by simp)
    · rcases halert.2 w hp with hpend' | ho
      · rw [hpend] at hpend'
        exact absurd hpend' (by simp)
      · exact ho howes

/-- A task is runnable while the main task is parked and one of three workers sleeps. -/
theorem no_total_stall_sleeper :
    ∃ s, (runtime .epoll).Reach s ∧ s.wk.owes = [] ∧ s.runq.tasks = [1] ∧
      (s.tasks 0).state = .waitingChannel ∧ s.Asleep 2 ∧
      ∃ w, (s.wk.pc w).alive = true ∧ ¬s.Asleep w := by
  have hreach : (runtime .epoll).Reach ((runtime .epoll).after (small 3) spawnBesideSleepers) :=
    Machine.reach_after (small_init 3 (by decide)) (by decide)
  have howes : ((runtime .epoll).after (small 3) spawnBesideSleepers).wk.owes = [] := by decide
  exact ⟨_, hreach, howes, by decide, by decide, .inl (by decide),
    (no_total_stall hreach howes).1 (by decide) ⟨0, by decide⟩⟩

/-- The main task spawns another task and returns before it ran. -/
def mainLeavesTask : List Action :=
  startUp 1 ++ dispatchOn 0 ++
    [.spawnAlloc (.worker 0) (.plain false), .spawnPublish (.worker 0) 1 .calm,
      .taskReturn 0, .finishMain 0, .finishSched 0, .pollerWake (.worker 0),
      .switchOut 0, .rereadShutdown 0, .cleanup 0, .loop 0]

/-- When main has finished every worker exits, whatever is still runnable. -/
theorem runnable_task_without_worker :
    ∃ s, (runtime .epoll).Reach s ∧ s.wk.owes = [] ∧ 0 < s.wk.count ∧
      s.runq.tasks = [1] ∧ ∀ w < s.wk.count, s.wk.pc w = .exited := by
  refine ⟨_, Machine.reach_after (l := mainLeavesTask) (small_init 1 (by decide)) (by decide),
    by decide, by decide, by decide, ?_⟩
  decide

/-! ## One channel wake -/

/-- If a worker is asleep with no wakeup addressed to it, the step from `wk` to
`wk'` addresses one such worker. -/
def Workers.WakeReaches (wk wk' : Workers) : Prop :=
  (∃ w, wk.Unaddressed w) → ∃ w, wk.Unaddressed w ∧ ¬wk'.Unaddressed w

/-- Every waiter was signalled already, one of them still counts as idle, and a
worker is blocked in the poller. -/
def Workers.Overlooked (wk : Workers) : Prop :=
  (∀ w, (wk.pc w).unsignalled = false) ∧ wk.idleWorkers ≠ 0 ∧ wk.wakePending = false ∧
    ∃ w, wk.pc w = .polling .infinite

/-- **Who a wake reaches.** A wake for a task reaches a sleeping worker, if there is one,
unless the workers are in the one arrangement that overlooks it. -/
theorem Workers.wakeForTask_reaches_iff {wk : Workers} (h : wk.Roles)
    (pick : List WorkerId → Nat) :
    wk.WakeReaches (wk.wakeForTask pick) ↔ ¬wk.Overlooked := by
  have hpc := (wk.wakeForTask_fields pick).2.2.2.2.2
  constructor
  · rintro hreach ⟨hsig, hidle, hpend, w, hw⟩
    -- the wake changes nothing at all
    have hsame : wk.wakeForTask pick = wk := by
      simp [wakeForTask, condSignal_eq h pick hsig, hidle]
    obtain ⟨v, hv, hnot⟩ := hreach ⟨w, .inr ⟨hw, hpend⟩⟩
    rw [hsame] at hnot
    exact hnot hv
  · rintro hover ⟨w, hw⟩
    by_cases hu : ∃ v, (wk.pc v).unsignalled = true
    · obtain ⟨v, hv, heq⟩ := condSignal_reaches h pick hu
      exact ⟨v, .inl hv, (awake_of_signalled hv (by rw [hpc]; exact heq)).2⟩
    · have hsig : ∀ v, (wk.pc v).unsignalled = false := by simpa using hu
      rcases hw with hw | ⟨hp, hpend⟩
      · exact absurd ⟨w, hw⟩ hu
      · have hidle : wk.idleWorkers = 0 := by
          by_contra hne
          exact hover ⟨hsig, hne, hpend, w, hp⟩
        have hactive : wk.pollerWaiterActive = true := h.active.mpr ⟨w, by rw [hp]; rfl⟩
        refine ⟨w, .inr ⟨hp, hpend⟩, ?_⟩
        rintro (hx | ⟨_, hx⟩)
        · rw [hpc, condSignal_eq h pick hsig, hsig w] at hx
          exact absurd hx (by simp)
        · simp [wakeForTask, condSignal_eq h pick hsig, hidle, hactive, pollerWake] at hx

/-- **When a channel wake reaches a sleeper.**  In any state inside a critical
section, after any channel updates and wakes of that section, a further
`worker_wake_task_locked` addresses a sleeping worker unless the only sleeper polls
while a worker that was signalled before still counts as idle. -/
theorem channel_wake_reaches_iff {backend : Backend} {s s1 s2 : Sys} {o : Oracle}
    {t : TaskId} {success : Bool} (h : (runtime backend).Reach s) (hwakes : Wakes s s1)
    (hwake : workerWakeTaskLocked o s1 t success = some s2) :
    s1.wk.WakeReaches s2.wk ↔ ¬s1.wk.Overlooked := by
  obtain ⟨_, cap, _, rfl⟩ := workerWakeTaskLocked_some hwake
  exact Workers.wakeForTask_reaches_iff ((SleepInv.reach h).wakes hwakes).roles o.pick

/-- Two tasks park on two channels; one worker polls and the other waits. -/
def bothParked : List Action :=
  startUp 2 ++
    [.channelCreate (.external 0) 8 0 true, .channelCreate (.external 0) 8 0 true] ++
    dispatchOn 0 ++
    [.spawnAlloc (.worker 0) (.plain false), .spawnPublish (.worker 0) 1 .calm,
      .channelRecv (.worker 0) 0 0 .calm] ++ handOver 0 ++
    dispatchOn 0 ++ [.channelRecv (.worker 0) 1 8 .calm] ++ handOver 0 ++
    [.loop 0, .loop 1]

theorem first_wake_reaches_waiter :
    ∃ s s2, (runtime .epoll).Reach s ∧ workerWakeTaskLocked .calm s 0 true = some s2 ∧
      s.wk.Unaddressed 1 ∧ s.wk.WakeReaches s2.wk := by
  have hreach : (runtime .epoll).Reach ((runtime .epoll).after (small 2) bothParked) :=
    Machine.reach_after (small_init 2 (by decide)) (by decide)
  have hwaits : (((runtime .epoll).after (small 2) bothParked).wk.pc 1).unsignalled = true := by
    decide
  obtain ⟨s2, hs2⟩ := Option.isSome_iff_exists.mp (show (workerWakeTaskLocked .calm
    ((runtime .epoll).after (small 2) bothParked) 0 true).isSome = true by decide)
  refine ⟨_, s2, hreach, hs2, .inl hwaits, (channel_wake_reaches_iff hreach .refl hs2).mpr ?_⟩
  rintro ⟨hsig, _⟩
  rw [hsig 1] at hwaits
  exact absurd hwaits (by simp)

/-- A send then signals the worker that waits. -/
def waiterSignalled : List Action :=
  bothParked ++ [.channelTrySend (.external 0) 0 16 .calm]

/-- The next wake reaches nobody although a worker is blocked in the poller. -/
theorem second_wake_overlooks_poller :
    ∃ s s2, (runtime .epoll).Reach s ∧ s.wk.lock = none ∧
      workerWakeTaskLocked .calm s 1 true = some s2 ∧
      s.wk.Unaddressed 0 ∧ ¬s.wk.WakeReaches s2.wk := by
  have hreach : (runtime .epoll).Reach
      ((runtime .epoll).after (small 2) waiterSignalled) :=
    Machine.reach_after (small_init 2 (by decide)) (by decide)
  have hpoll : ((runtime .epoll).after (small 2) waiterSignalled).wk.pc 0 =
      .polling .infinite := by decide
  have hpend : ((runtime .epoll).after (small 2) waiterSignalled).wk.wakePending = false := by
    decide
  have hroles := (SleepInv.reach hreach).roles
  obtain ⟨s2, hs2⟩ := Option.isSome_iff_exists.mp (show (workerWakeTaskLocked .calm
    ((runtime .epoll).after (small 2) waiterSignalled) 1 true).isSome = true by decide)
  refine ⟨_, s2, hreach, by decide, hs2, .inr ⟨hpoll, hpend⟩, ?_⟩
  obtain ⟨_, cap, _, rfl⟩ := workerWakeTaskLocked_some hs2
  rw [Workers.wakeForTask_reaches_iff hroles]
  refine not_not_intro ⟨fun w => ?_, by decide, hpend, 0, hpoll⟩
  by_cases hw : w < 2
  · revert w
    decide
  · by_contra hne
    refine hw (hroles.bounded w fun hns => ?_)
    rw [hns] at hne
    exact hne rfl

/-- **A single attended poller.**  At most one worker is between setting and clearing
`poller_waiter_active`, and the flag says whether one is; `idle_workers` counts the workers
inside `pthread_cond_wait`; and while one of them is not signalled, somebody polls. -/
theorem single_attended_poller {backend : Backend} {s : Sys} (h : (runtime backend).Reach s) :
    (∀ v w, (s.wk.pc v).polls = true → (s.wk.pc w).polls = true → v = w) ∧
    (s.wk.pollerWaiterActive = true ↔ ∃ w, (s.wk.pc w).polls = true) ∧
    s.wk.idleWorkers = s.wk.idleCount ∧
    ∀ w, (s.wk.pc w).unsignalled = true → s.wk.pollerWaiterActive = true := by
  have hroles := (SleepInv.reach h).roles
  exact ⟨hroles.single, hroles.active, hroles.idle, hroles.attended⟩

theorem single_attended_poller_both_parked :
    ∃ s, (runtime .epoll).Reach s ∧ (s.wk.pc 0).polls = true ∧
      (s.wk.pc 1).unsignalled = true ∧ s.wk.idleWorkers = 1 ∧ s.wk.pollerWaiterActive = true := by
  have hreach : (runtime .epoll).Reach ((runtime .epoll).after (small 2) bothParked) :=
    Machine.reach_after (small_init 2 (by decide)) (by decide)
  obtain ⟨_, _, _, hattended⟩ := single_attended_poller hreach
  exact ⟨_, hreach, by decide, by decide, by decide, hattended 1 (by decide)⟩

end Croutine
