import Croutine.TaskSteps

/-!
# What the scheduler leaves alone

A step of the scheduler changes neither the channels nor which tasks wait on them, and
moves no task into or out of a channel call.  With the inversion of the step function
this leaves one question for every invariant of parked tasks and waiters: whether the
steps on the channels keep it.
-/

namespace Croutine

structure Unchanged (s s' : Sys) : Prop where
  ch : s'.ch = s.ch
  tasks : KeepsChan s.tasks s'.tasks
  shutdown : s'.shutdownRequested = s.shutdownRequested

namespace Unchanged

variable {s s' s'' : Sys} {w : WorkerId} {t : TaskId}

theorem refl (s : Sys) : Unchanged s s := ⟨rfl, .refl _, rfl⟩

theorem trans (h : Unchanged s s') (h' : Unchanged s' s'') : Unchanged s s'' :=
  ⟨h'.ch.trans h.ch, h.tasks.trans h'.tasks, h'.shutdown.trans h.shutdown⟩

/-- Nothing that a channel can see is written. -/
theorem of_eq (hch : s'.ch = s.ch) (htasks : s'.tasks = s.tasks)
    (hshutdown : s'.shutdownRequested = s.shutdownRequested) : Unchanged s s' :=
  ⟨hch, htasks ▸ .refl _, hshutdown⟩

/-- Cleaning up a task that does not sleep on a channel is no channel matter. -/
theorem cleanup (h : (s.tasks t).state ≠ .waitingChannel) : Unchanged s (cleanupTask s t) :=
  ⟨rfl, KeepsChan.cleaned h, rfl⟩

/-- Pushing a task that does not sleep on a channel is no channel matter. -/
theorem push {o : Oracle} (h : (s.tasks t).state ≠ .waitingChannel)
    (hpush : taskQueuePush o s t = some s') : Unchanged s s' := by
  rcases taskQueuePush_some hpush with ⟨_, rfl⟩ | ⟨_, cap, _, rfl⟩
  · exact .refl _
  · exact ⟨rfl, .update h h (.inl rfl) fun _ hstack => ⟨hstack, rfl⟩, rfl⟩

/-- The failure path of a spawn is no channel matter. -/
theorem spawnFailed (h : Unchanged s s') (isMain : Bool) :
    Unchanged s (Croutine.spawnFailed s' isMain) := by
  unfold Croutine.spawnFailed
  split
  · exact h.trans (.of_eq rfl rfl rfl)
  · exact h

/-- The loop body is no channel matter. -/
theorem loopOutcome {checked : Bool} (h : TaskInv s) (hout : LoopOutcome w checked s s') :
    Unchanged s s' := by
  cases hout with
  | exit hstop => exact .of_eq rfl rfl rfl
  | poll hgo hidle htimeout => exact .of_eq rfl rfl rfl
  | @dispatch hgo t rest hqueue =>
      obtain ⟨loc, hloc⟩ := h.placed
      have hloct : loc t = .queue :=
        (hloc.queued.mem t).mp (by rw [hqueue]; exact List.mem_cons_self)
      have hat := hloc.taskAt t
      rw [hloct] at hat
      have hstate : (s.tasks t).state ≠ .waitingChannel := by rw [hat.1.state]; simp
      exact ⟨rfl, .update hstate hstate (.inl rfl) fun _ hstack => ⟨hstack, rfl⟩, rfl⟩
  | sleep hgo hactive hqueue => exact .of_eq rfl rfl rfl

/-- The tasks that an event wakes waited for I/O. -/
theorem wakeIo {o : Oracle} {fd : Int} {ready : IoEvents} {success : Bool} {period n : Nat}
    (h : IoAgree s.tasks s.io)
    (hw : wakeWaitingTasksLocked o s fd ready success period = .ok (s', n)) :
    Unchanged s s' := by
  have hwoke := wakeWaitingTasksLocked_woke hw
  refine ⟨hwoke.ch, ?_, hwoke.shutdownRequested⟩
  rcases wakeWaitingTasksLocked_ok hw with ⟨_, rfl, _⟩ |
    ⟨i, entry, tasks, rest, poller, s1, hfind, hentry, htake, hset, hfold, rfl, _⟩
  · exact .refl _
  · obtain ⟨e, hget, hused, hfd, hlook⟩ := ioWaitTableFind_some h.valid hfind
    have he : entry = e := by rw [hentry, List.getD_eq_getElem?_getD, hget]; rfl
    subst he
    have htasks : tasks = (takeReadyTasks entry ready).1 := by rw [htake]
    have hio : ∀ u ∈ tasks, (s.tasks u).state ≠ .waitingChannel := by
      intro u hu
      rw [htasks, takeReadyTasks_mem (h.distinct hlook)] at hu
      obtain ⟨d, _, hd⟩ := hu
      have hslot : s.io.slot fd d = some u := by
        unfold IoWaitTable.slot
        rw [hlook]; exact hd
      rw [((h.slots fd d u).mp hslot).1]
      simp
    have hkeep : KeepsChan s.tasks s1.tasks := by
      refine Res.foldlM_induct_mem (I := fun x => KeepsChan s.tasks x.tasks) tasks ?_
        (.refl _) hfold
      intro x u x' hu hx hstep
      obtain ⟨cap, _, rfl⟩ := wakeIoTask_ok hstep
      have hstate : (x.tasks u).state ≠ .waitingChannel :=
        fun habs => hio u hu ((hx.state u).mp habs)
      exact hx.trans (.update hstate (by simp [Task.requeued]) (.inl rfl)
        fun _ hstack => ⟨hstack, rfl⟩)
    split
    · exact hkeep
    · exact hkeep

/-- Handling a batch of poll events is no channel matter. -/
theorem pollBatch {o : Oracle} {events : List PollEvent} (h : TaskInv s)
    (hlock : s.wk.lock = none) (hbatch : events.foldlM (applyPollEvent o) s = .ok s') :
    Unchanged s s' := by
  refine (Res.foldlM_induct
    (I := fun x => TaskInv x ∧ x.wk.lock = none ∧ Unchanged s x) ?_ events
    ⟨h, hlock, .refl s⟩ hbatch).2.2
  intro x e x' hx hstep
  obtain ⟨hinv, hl, hsame⟩ := hx
  obtain ⟨n, hwake⟩ := applyPollEvent_ok hstep
  have hone : [e].foldlM (applyPollEvent o) x = .ok x' := by
    rw [List.foldlM_cons, hstep]
    rfl
  obtain ⟨hinv', hl', _⟩ := hinv.pollBatch hl hone
  exact ⟨hinv', hl', hsame.trans (wakeIo hinv.agree hwake)⟩

/-- The task in a worker's hands changes and does not wait on channels. -/
theorem held {τ : Task} (h : (s.tasks t).state ≠ .waitingChannel)
    (hτ : τ.state ≠ .waitingChannel)
    (hframe : τ.frame = (s.tasks t).frame ∨
      τ.frame.call = none ∧ (s.tasks t).frame.call = none)
    (hwake : (s.tasks t).KeepsWake τ) : Unchanged s (s.setTask t τ) :=
  ⟨rfl, .update h hτ hframe hwake, rfl⟩

end Unchanged

/-- A task that a worker holds sleeps on a channel only while it parks. -/
theorem Pc.Fits.not_parked {tasks : TaskId → Task} {pc : Pc} {t : TaskId} (h : pc.Fits tasks)
    (ht : pc.holds = some t) (hpark : pc.parking = false) :
    (tasks t).state ≠ .waitingChannel := by
  intro habs
  have hwait := h.not_waiting ht hpark
  rw [habs] at hwait
  exact absurd hwait (by simp [TaskState.waiting])

/-- **Scheduler steps.** No scheduler step touches the channels or who sleeps on them. -/
theorem SchedStep.unchanged {a : Action} {s s' : Sys} (h : TaskInv s) (hlife : LifeInv s)
    (hstep : SchedStep s a s') : Unchanged s s' := by
  have hheld : ∀ {w t p}, s.wk.pc w = p → p.holds = some t → p.parking = false →
      (s.tasks t).state ≠ .waitingChannel := by
    intro w t p hpc hholds hpark
    exact (h.fits hpc).not_parked hholds hpark
  cases hstep with
  | @spawnAlloc θ r hspawn hdown =>
      obtain ⟨loc, hloc⟩ := h.placed
      have hat := hloc.next_unborn.2
      have hfreed : ∀ l : Ledger,
          Unchanged s ({ s with nextTask := s.nextTask + 1 }.freeStruct s.nextTask l) :=
        fun l => .of_eq rfl rfl rfl
      rcases workerSpawnAlloc_cases s θ r with heq | ⟨l, _, heq⟩ | heq <;> rw [heq]
      · exact (Unchanged.refl s).spawnFailed _
      · exact (hfreed l).spawnFailed _
      · have hcall : (s.tasks s.nextTask).frame.call = none := by rw [hat.1]; rfl
        refine ⟨rfl, KeepsChan.update ?_ ?_ (.inr ⟨rfl, hcall⟩) fun habs => ?_, rfl⟩
        · show (s.tasks s.nextTask).state ≠ _
          rw [hat.1]; simp
        · simp
        · exact absurd hcall habs
  | @spawnPublish hlock o θ t hmem =>
      obtain ⟨loc, hloc⟩ := h.placed
      have hat := (hloc.spawned hmem).2
      have hstate : (s.tasks t).state ≠ .waitingChannel := by rw [hat.1.state]; simp
      have herase : Unchanged s { s with spawns := s.spawns.erase (θ, t) } := .of_eq rfl rfl rfl
      have hclean := herase.trans (.cleanup (t := t) hstate)
      rcases workerSpawnPublish_cases o s θ t with heq | ⟨_, s1, hpush, heq⟩ <;> rw [heq]
      · exact hclean.spawnFailed _
      · exact (herase.trans (.push hstate hpush)).trans (.of_eq rfl rfl rfl)
  | forgetFd hlock hint hforget =>
      rcases workerForgetFd_ok hforget with ⟨_, rfl⟩ | ⟨_, s1, n, hwake, rfl⟩
      · exact .refl _
      · have h1 := Unchanged.wakeIo h.agree hwake
        split
        · exact h1.trans (.of_eq rfl rfl rfl)
        · exact h1
  | pollerWake hmem => exact .of_eq rfl rfl rfl
  | @waitIo hlock o w t fd direction hint hpc hframe =>
      have hpark := workerParkCurrentOnIo_cases h.agree o w t fd direction
      generalize workerParkCurrentOnIo o s w t fd (IoEvents.none.put direction true) = x
        at hpark ⊢
      cases hpark with
      | refused hvalid hlook hpoller => exact .of_eq rfl rfl rfl
      | parked hrun hins hfree hset =>
          have hcall : (s.tasks t).frame.call = none := by rw [hframe]; rfl
          exact ⟨rfl, .update (hheld hpc rfl rfl) (by simp) (.inr ⟨rfl, hcall⟩)
            fun habs => absurd hcall habs, rfl⟩
  | yield hpc hframe => exact .of_eq rfl rfl rfl
  | returnIo hpc hframe =>
      exact .held (hheld hpc rfl rfl) (hheld hpc rfl rfl) (.inr ⟨rfl, by rw [hframe]; rfl⟩)
        fun _ hstack => ⟨hstack, rfl⟩
  | @taskReturn w t hpc hframe =>
      have hset := Unchanged.held (τ := { s.tasks t with state := .finished })
        (hheld hpc rfl rfl) (by simp) (.inl rfl) fun _ hstack => ⟨hstack, rfl⟩
      exact hset.trans (.of_eq rfl rfl rfl)
  | finishMain hpc => exact .of_eq rfl rfl rfl
  | finishSched hlock hpc => exact .of_eq rfl rfl rfl
  | @switchOut w t st hpc =>
      -- a parking task keeps its state, so this update is not one of `held`
      refine ⟨rfl, ⟨fun u => ?_, fun u => ?_, fun u => ?_⟩, rfl⟩ <;> by_cases hu : u = t
      · subst hu; simp [Sys.setPc, Sys.setTask]
      · simp [Sys.setPc, Sys.setTask, hu]
      · subst hu; simp [Sys.setPc, Sys.setTask]
      · simp [Sys.setPc, Sys.setTask, hu]
      · subst hu; simp [Sys.setPc, Sys.setTask, Task.KeepsWake]
      · simp [Sys.setPc, Sys.setTask, Task.KeepsWake, hu]
  | release hpc => exact .of_eq rfl rfl rfl
  | reread hlock hpc => exact .of_eq rfl rfl rfl
  | requeue hlock hpc hrequeue =>
      obtain ⟨s2, hpush, rfl⟩ := requeueTask_ok hrequeue
      exact (Unchanged.push (hheld hpc rfl rfl) hpush).trans (.of_eq rfl rfl rfl)
  | cleanup hpc => exact (Unchanged.cleanup (hheld hpc rfl rfl)).trans (.of_eq rfl rfl rfl)
  | @loop hlock w checked hpc => exact .loopOutcome h (loopBody_outcome w checked s)
  | @condReturn hlock w signalled checked hpc =>
      have h1 : TaskInv (s.mapWk fun wk => { wk with idleWorkers := wk.idleWorkers - 1 }) :=
        h.signals _ rfl fun _ => .inl rfl
      have hidle : Unchanged s
          (s.mapWk fun wk => { wk with idleWorkers := wk.idleWorkers - 1 }) := .of_eq rfl rfl rfl
      exact hidle.trans (.loopOutcome h1 (loopBody_outcome w checked _))
  | kernelReturn hpc hbatch => exact .of_eq rfl rfl rfl
  | kernelError hpc => exact .of_eq rfl rfl rfl
  | filterBatch hpc => exact .of_eq rfl rfl rfl
  | @pollReturn hlock o w events s1 hpc hpoll =>
      have hrelease : TaskInv (releasePoller s) := h.signals _ rfl (Signals.condBroadcast s.wk)
      have hquiet : Unchanged s (releasePoller s) := .of_eq rfl rfl rfl
      rcases leavePoll_ok hpoll with ⟨_, rfl⟩ | ⟨_, s2, hbatch, hout⟩
      · exact hquiet.trans (.of_eq rfl rfl rfl)
      · obtain ⟨h2, _, _⟩ := hrelease.pollBatch hlock hbatch
        exact (hquiet.trans (.pollBatch hrelease hlock hbatch)).trans (.loopOutcome h2 hout)
  | pollFailed hlock hpc hpoll =>
      obtain ⟨_, rfl⟩ := leavePollError_ok hpoll
      exact .of_eq rfl rfl rfl
  | resume hpc =>
      have hset := Unchanged.held (τ := { s.tasks _ with contextSaved := false })
        (hheld hpc rfl rfl) (hheld hpc rfl rfl) (.inl rfl) fun _ hstack => ⟨hstack, rfl⟩
      exact hset.trans (.of_eq rfl rfl rfl)
  | setReady fd mask => exact .of_eq rfl rfl rfl
  | runtimeInit hlock hpre =>
      have hfresh := hlife.fresh hpre
      simp only [Sys.stopping, Bool.or_eq_false_iff] at hfresh
      exact .of_eq rfl rfl hfresh.1.symm
  | runCall hl | createWorker hl | waitForMain hl | joinWorkers hl => exact .of_eq rfl rfl rfl
  | deinitDrain hlock hl =>
      obtain ⟨hdrain, _, _⟩ := workerDeinitDrain_inv h hlock
      have heq := (DrainFrame.deinit s).eq
      refine ⟨hdrain.ch, hdrain.chan, ?_⟩
      show (workerDeinitDrain s).shutdownRequested = _
      rw [heq]
  | deinitClose hl => exact .of_eq rfl rfl rfl

/-! ## Every step of a run -/

/-- A task that a `worker_spawn` call has in its hands waits nowhere, even when the
scheduler is gone. -/
theorem spawning_runnable {backend : Backend} {allowed : Sys → Action → Prop} {s : Sys}
    (h : (runtime backend).ReachVia allowed s) :
    ∀ p ∈ s.spawns, (s.tasks p.2).state = .runnable := by
  have hplaced : ∀ x, TaskInv x → ∀ p ∈ x.spawns, (x.tasks p.2).state = .runnable := by
    intro x hx p hp
    obtain ⟨loc, hloc⟩ := hx.placed
    exact (hloc.spawned hp).2.1.state
  refine Machine.ReachVia.invariant
    (I := fun x => ∀ p ∈ x.spawns, (x.tasks p.2).state = .runnable) ?_ ?_ h
  · intro x hx
    obtain ⟨wakeFd, workers, runCapacity, ioCapacity, _, _, rfl⟩ := hx
    intro p hp
    simp [initial] at hp
  · intro x a x' hreach hx ha hstep
    by_cases hdown' : x'.life = .down
    · by_cases hdown : x.life = .down
      · have hgone := (IoInv.reach hreach).gone hdown
        cases hgone.step (LifeInv.reach hreach) hdown hstep with
        | chans κ | owed θ | ready r => exact hx
        | @publish θ t hmem =>
            intro p hp
            have hmem' : p ∈ x.spawns := List.mem_of_mem_erase hp
            rw [cleanupTask_eq]
            by_cases ht : p.2 = t
            · simp [ht, cleanedTask]
            · simpa [ht] using hx p hmem'
      · obtain ⟨_, rfl⟩ := step_ends hstep hdown hdown'
        exact hx
    · exact hplaced x' (TaskInv.reach (.step hreach ha hstep) hdown')

/-- A step of the scheduler leaves the channels alone, also when the scheduler is gone. -/
theorem SchedStep.unchanged_of_reach {backend : Backend} {allowed : Sys → Action → Prop}
    {s s' : Sys} {a : Action} (hreach : (runtime backend).ReachVia allowed s)
    (hs : SchedStep s a s') : Unchanged s s' := by
  by_cases hdown : s.life = .down
  · obtain ⟨hgone, hch⟩ := ((IoInv.reach hreach).gone hdown).schedStep (LifeInv.reach hreach)
      hdown hs
    cases hgone with
    | chans κ | owed θ | ready r => exact .of_eq hch rfl rfl
    | @publish θ t hmem =>
        have hstate : (s.tasks t).state ≠ .waitingChannel := by
          rw [spawning_runnable hreach _ hmem]; simp
        have herase : Unchanged s { s with spawns := s.spawns.erase (θ, t) } := .of_eq rfl rfl rfl
        exact herase.trans (.cleanup hstate)
  · exact hs.unchanged (TaskInv.reach hreach hdown) (LifeInv.reach hreach)

/-- **Every step of a run works on the channels or leaves them alone.** -/
theorem chanStep_or_unchanged {backend : Backend} {allowed : Sys → Action → Prop}
    {P : List SelectCase → Prop} {s s' : Sys} {a : Action}
    (hreach : (runtime backend).ReachVia allowed s)
    (hP : ∀ θ cases hasDefault choice o, a = .select θ cases hasDefault choice o → P cases)
    (hstep : step s a = .ok s') : ChanStep P s a s' ∨ Unchanged s s' :=
  (step_cases hP hstep).imp_right fun hs => hs.unchanged_of_reach hreach

/-- The same, where nothing is asked of the selects. -/
theorem step_chan {backend : Backend} {allowed : Sys → Action → Prop} {s s' : Sys} {a : Action}
    (hreach : (runtime backend).ReachVia allowed s) (hstep : step s a = .ok s') :
    ChanStep (fun _ => True) s a s' ∨ Unchanged s s' :=
  chanStep_or_unchanged hreach (fun _ _ _ _ _ _ => trivial) hstep

/-- A task that runs is runnable, and then the scheduler exists. -/
theorem running_runnable {backend : Backend} {allowed : Sys → Action → Prop} {s : Sys}
    (hreach : (runtime backend).ReachVia allowed s) {w : WorkerId} {t : TaskId}
    (hpc : s.wk.pc w = .running t) : (s.tasks t).state = .runnable := by
  by_cases hdown : s.life = .down
  · exact ((LifeInv.reach hreach).down_dead hdown hpc rfl).elim
  · exact ((TaskInv.reach hreach hdown).running hpc).1

/-- A task that runs has its stack. -/
theorem running_hasStack {backend : Backend} {allowed : Sys → Action → Prop} {s : Sys}
    (hreach : (runtime backend).ReachVia allowed s) {w : WorkerId} {t : TaskId}
    (hpc : s.wk.pc w = .running t) : (s.tasks t).hasStack = true := by
  by_cases hdown : s.life = .down
  · exact ((LifeInv.reach hreach).down_dead hdown hpc rfl).elim
  · obtain ⟨loc, hloc⟩ := (TaskInv.reach hreach hdown).placed
    obtain ⟨_, howned, _⟩ := hloc.taskHeld (w := w) (t := t) (by rw [hpc]; rfl)
    exact howned.hasStack

end Croutine
