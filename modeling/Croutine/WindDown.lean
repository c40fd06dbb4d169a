import Croutine.Lib.Progress
import Croutine.Dispatch
import Croutine.Sleep

/-!
# Stopping comes to an end

After main has finished or shutdown was requested, `croutine_runtime_run` returns: the
workers that wait are woken, every worker leaves its loop, and the joins that follow find no
thread left.  The tasks in the hands of the workers have to return or yield, and nothing is
assumed about the order in which the threads go on.

Every step towards the end lowers `Sys.work`, the number of steps the threads can still
make.  A worker that polls without a timeout is the one that could wait for ever; what
`SleepInv` says about it is that a wake is pending or promised.
-/

namespace Croutine

/-! ## The work that is left -/

/-- A blocking call that has not returned. -/
def Frame.pending : Frame → Nat
  | .user => 0
  | .single _ _ _ _ | .select _ _ _ | .ioWait => 1

/-- A task is in one blocking call at most. -/
theorem Frame.pending_le (f : Frame) : f.pending ≤ 1 := by
  cases f <;> simp [Frame.pending]

/-- The steps a worker has before it can exit, counting its start.  A finished main task is
charged for the wake it still has to make. -/
def Pc.work (tasks : TaskId → Task) : Pc → Nat
  | .exited => 0
  | .top _ | .condWait _ _ | .filtered _ | .pollError => 1
  | .notStarted | .polled _ | .requeue _ | .cleanup _ => 2
  | .polling _ | .reread _ _ => 3
  | .returned _ _ => 4
  | .switching _ _ => 5
  | .finishSched _ => 7
  | .finishMain _ => 8
  | .running t => 9 + (tasks t).frame.pending
  | .dispatched _ => 11

/-- What `croutine_runtime_run` has left to do besides starting workers, once the main task is
allocated. -/
def Lifecycle.work : Lifecycle → Nat
  | .runSpawn => 3
  | .creating _ => 2
  | .joining => 1
  | .preInit | .inited | .ranOut | .shutJoin | .drained | .down => 0

def Sys.workers (s : Sys) : Nat :=
  ∑ w ∈ Finset.range s.wk.count, (s.wk.pc w).work s.tasks

/-- The main task is allocated and not yet published. -/
def Sys.mainPending (s : Sys) : Bool := s.spawns.any fun p => (s.tasks p.2).isMain

/-- What `croutine_runtime_run` has left to do, the allocation of the main task included. -/
def Sys.control (s : Sys) : Nat :=
  if s.life = .runSpawn ∧ s.mainPending = false then 6 else s.life.work

/-- An allocated task may be published with a wake. -/
def Sys.work (s : Sys) : Nat :=
  s.workers + s.wk.owes.length + 2 * s.spawns.length + s.control

/-- The steps by which the runtime stops: those of the worker loops, of the kernel wait, of
the thread inside `croutine_runtime_run`, the end of calls that were under way, and tasks
that yield or return. -/
def Action.winds : Action → Bool
  | .spawnAlloc _ r => r.isMain
  | .pollerWake _ | .spawnPublish _ _ _ | .callReturn _ | .yield _ | .taskReturn _
  | .finishMain _ | .finishSched _ | .switchOut _ | .release _ | .rereadShutdown _
  | .requeue _ _ | .cleanup _ | .loop _ | .condReturn _ | .kernelReturn _ _ | .filterBatch _
  | .pollReturn _ _ | .resume _ | .createWorker | .waitForMain | .joinWorkers => true
  | _ => false

/-- No worker is alive, no thread is inside a call, and `croutine_runtime_run` has no main task
to spawn and no worker to start or to join. -/
structure Sys.Stopped (s : Sys) : Prop where
  workers : ∀ w, (s.wk.pc w).alive = false
  owes : s.wk.owes = []
  spawns : s.spawns = []
  life : s.life.work = 0

/-- A signal takes no work off a worker. -/
@[simp] theorem Pc.work_signal (tasks : TaskId → Task) (pc : Pc) :
    pc.signal.work tasks = pc.work tasks := by
  cases pc <;> rfl

/-- No task gets deeper into a call. -/
def Unwinds (tasks tasks' : TaskId → Task) : Prop :=
  ∀ t, (tasks' t).frame.pending ≤ (tasks t).frame.pending

theorem Unwinds.refl (tasks : TaskId → Task) : Unwinds tasks tasks := fun _ => Nat.le_refl _

/-- One task more that gets no deeper into a call. -/
theorem Unwinds.update {tasks tasks' : TaskId → Task} {t : TaskId} {τ : Task}
    (h : Unwinds tasks tasks') (hτ : τ.frame.pending ≤ (tasks t).frame.pending) :
    Unwinds tasks (Function.update tasks' t τ) := by
  intro u
  by_cases hu : u = t
  · rw [hu, Function.update_self]
    exact hτ
  · rw [Function.update_of_ne hu]
    exact h u

/-- A worker has no more to do when its task gets no deeper into a call. -/
theorem Pc.work_le {tasks tasks' : TaskId → Task} (h : Unwinds tasks tasks') (pc : Pc) :
    pc.work tasks' ≤ pc.work tasks := by
  cases pc with
  | running t => exact Nat.add_le_add_left (h t) 9
  | _ => exact Nat.le_refl _

/-- Every worker but one is where it was, perhaps with a signal. -/
def Others (w : WorkerId) (wk wk' : Workers) : Prop :=
  ∀ v, v ≠ w → wk'.pc v = wk.pc v ∨ wk'.pc v = (wk.pc v).signal

/-- A worker that signals the others and moves itself. -/
theorem Signals.others {wk wk' : Workers} (h : Signals wk wk') (w : WorkerId) (p : Pc) :
    Others w wk (wk'.setPc w p) := by
  intro v hv
  show Function.update wk'.pc w p v = wk.pc v ∨ Function.update wk'.pc w p v = (wk.pc v).signal
  rw [Function.update_of_ne hv]
  exact h v

/-- One worker moves on, and nobody else has more to do. -/
structure Moves (w : WorkerId) (p p' : Pc) (s s' : Sys) : Prop where
  here : s.wk.pc w = p
  there : s'.wk.pc w = p'
  others : Others w s.wk s'.wk
  count : s'.wk.count = s.wk.count
  tasks : Unwinds s.tasks s'.tasks
  spawns : s'.spawns = s.spawns
  life : s'.life = s.life

/-- A worker moves on without a signal. -/
theorem Moves.setPc {s x : Sys} {w : WorkerId} {p p' : Pc} (hpc : s.wk.pc w = p)
    (hwk : x.wk = s.wk) (htasks : Unwinds s.tasks x.tasks) (hspawns : x.spawns = s.spawns)
    (hlife : x.life = s.life) : Moves w p p' s (x.setPc w p') where
  here := hpc
  there := Function.update_self ..
  others v hv := .inl (by
    show Function.update x.wk.pc w p' v = _
    rw [Function.update_of_ne hv, hwk])
  count := by
    show x.wk.count = _
    rw [hwk]
  tasks := htasks
  spawns := hspawns
  life := hlife

/-- A worker that moves on with `k` steps to spare. -/
theorem Sys.workers_lt {s s' : Sys} {w : WorkerId} {k : Nat} (hw : w < s.wk.count)
    (hcount : s'.wk.count = s.wk.count) (hothers : Others w s.wk s'.wk)
    (htasks : Unwinds s.tasks s'.tasks)
    (hk : (s'.wk.pc w).work s'.tasks + k < (s.wk.pc w).work s.tasks) :
    s'.workers + (k + 1) ≤ s.workers := by
  unfold Sys.workers
  rw [hcount]
  refine Finset.sum_range_add_le hw (fun v _ => ?_) hk
  by_cases hvw : v = w
  · rw [hvw]
    omega
  · refine Nat.le_trans (Pc.work_le htasks _) ?_
    rcases hothers v hvw with heq | heq
    · rw [heq]
    · rw [heq, Pc.work_signal]

/-- Outside the spawn of the main task only the stage counts. -/
theorem Sys.control_of_life {s : Sys} (h : s.life ≠ .runSpawn) : s.control = s.life.work :=
  if_neg fun habs => h habs.1

/-- With its main task allocated `croutine_runtime_run` has three stages left. -/
theorem Sys.control_of_pending {s : Sys} (h : s.life = .runSpawn) (hm : s.mainPending = true) :
    s.control = 3 := by
  unfold Sys.control
  rw [hm, h]
  rfl

/-! ## Every step lowers the work -/

/-- A push takes no task deeper into a call. -/
theorem taskQueuePush_unwinds {o : Oracle} {s s' : Sys} {t : TaskId}
    (h : taskQueuePush o s t = some s') :
    Unwinds s.tasks s'.tasks ∧ s'.wk = s.wk ∧ s'.spawns = s.spawns ∧ s'.life = s.life := by
  rcases taskQueuePush_some h with ⟨_, rfl⟩ | ⟨_, cap, _, rfl⟩
  · exact ⟨.refl _, rfl, rfl, rfl⟩
  · exact ⟨(Unwinds.refl _).update (Nat.le_refl _), rfl, rfl, rfl⟩

/-- A worker that looks at the flags in a state that is stopping exits. -/
theorem LoopOutcome.of_stopping {w : WorkerId} {checked : Bool} {s s' : Sys}
    (h : LoopOutcome w checked s s') (hstop : s.stopping = true) : s' = s.setPc w .exited := by
  cases h with
  | exit _ => rfl
  | poll hgo _ _ | dispatch hgo _ | sleep hgo _ _ =>
      rw [hstop] at hgo
      exact absurd hgo (by simp)

/-- After its look at the flag a worker has at most two steps left. -/
theorem afterReread_work (s : Sys) (t : TaskId) (st : TaskState) (tasks : TaskId → Task) :
    (afterReread s t st).work tasks ≤ 2 := by
  cases st with
  | runnable =>
      show (if s.shutdownRequested then Pc.cleanup t else .requeue t).work tasks ≤ 2
      split <;> exact Nat.le_refl _
  | waitingIo | waitingChannel => exact Nat.le_succ 1
  | finished => exact Nat.le_refl _

/-- The workers have been told to stop. -/
structure Stopping (backend : Backend) (s : Sys) : Prop where
  reach : (runtime backend).Reach s
  flag : s.stopping = true

namespace Stopping

variable {backend : Backend} {s s' : Sys} {w : WorkerId} {t : TaskId} {p p' : Pc}

/-- The lifecycle of a run that is stopping. -/
theorem alive (h : Stopping backend s) : LifeInv s := LifeInv.reach h.reach

/-- The workers of a run that is stopping. -/
theorem roles (h : Stopping backend s) : s.wk.Roles := (SleepInv.reach h.reach).roles

/-- The step is paid for by the worker that makes it, with the wakes it promises. -/
theorem lowers {k : Nat} (hs : Stopping backend s) (h : Moves w p p' s s')
    (halive : p.alive = true) (howes : s'.wk.owes.length ≤ s.wk.owes.length + k)
    (hk : p'.work s'.tasks + k < p.work s.tasks) : s'.work < s.work := by
  have hw : w < s.wk.count := hs.roles.bounded w (by
    rw [h.here]
    rintro rfl
    exact absurd halive (by simp [Pc.alive]))
  -- a worker is alive only after the main task was spawned
  have hup : s.life ≠ .runSpawn := by
    intro hlife
    have hwork := hs.alive.working_of_alive (w := w) (by rw [h.here]; exact halive)
    rw [hlife] at hwork
    exact absurd hwork (by simp [Lifecycle.working])
  have hsum := Sys.workers_lt hw h.count h.others h.tasks (k := k)
    (by rw [h.here, h.there]; exact hk)
  unfold Sys.work
  rw [h.spawns, Sys.control_of_life hup, Sys.control_of_life (h.life ▸ hup), h.life]
  omega

/-- A step that promises no wake. -/
theorem lowersAlone (hs : Stopping backend s) (h : Moves w p p' s s') (halive : p.alive = true)
    (howes : s'.wk.owes = s.wk.owes) (hlt : p'.work s'.tasks < p.work s.tasks) :
    s'.work < s.work :=
  hs.lowers (k := 0) h halive (Nat.le_of_eq (congrArg List.length howes)) hlt

/-! ### Steps of the running task -/

/-- A yield is one step less. -/
theorem yield_lowers (hs : Stopping backend s) (hpc : s.wk.pc w = .running t) :
    (s.setPc w (.switching t .runnable)).work < s.work := by
  have hmoves : Moves w _ (.switching t .runnable) s _ := .setPc hpc rfl (.refl _) rfl rfl
  exact hs.lowersAlone hmoves rfl rfl (by simp only [Pc.work]; omega)

/-- The return from a wait for a descriptor is one step less. -/
theorem returnIo_lowers (hs : Stopping backend s) (hpc : s.wk.pc w = .running t)
    (hframe : (s.tasks t).frame = .ioWait) :
    (s.setTask t { s.tasks t with frame := .user }).work < s.work := by
  have hmoves : Moves w _ (.running t) s (s.setTask t { s.tasks t with frame := .user }) :=
    ⟨hpc, hpc, fun v _ => .inl rfl, rfl, (Unwinds.refl _).update (Nat.zero_le _), rfl, rfl⟩
  refine hs.lowersAlone hmoves rfl rfl ?_
  simp [Pc.work, Sys.setTask, Frame.pending, hframe]

/-- The end of a task's function is one step less. -/
theorem taskReturn_lowers (hs : Stopping backend s) (hpc : s.wk.pc w = .running t) :
    (taskReturn s w t).work < s.work := by
  have hmoves : Moves w _ (if (s.tasks t).isMain then .finishMain t else .switching t .finished)
      s (taskReturn s w t) :=
    .setPc (x := s.setTask t { s.tasks t with state := .finished }) hpc rfl
      ((Unwinds.refl _).update (Nat.le_refl _)) rfl rfl
  refine hs.lowersAlone hmoves rfl rfl ?_
  split <;> simp only [Pc.work] <;> omega

/-- The first critical section of `task_finished` is one step less. -/
theorem finishMain_lowers (hs : Stopping backend s) (hpc : s.wk.pc w = .finishMain t) :
    ({ s with mainFinished := true }.setPc w (.finishSched t)).work < s.work := by
  have hmoves : Moves w _ (.finishSched t) s _ :=
    .setPc (x := { s with mainFinished := true }) hpc rfl (.refl _) rfl rfl
  exact hs.lowersAlone hmoves rfl rfl (by simp only [Pc.work]; omega)

/-- The second critical section of `task_finished` promises a wake. -/
theorem finishSched_lowers (hs : Stopping backend s) (hpc : s.wk.pc w = .finishSched t) :
    ({ s with schedulerMainFinished := true }.mapWk fun wk =>
      (wk.condBroadcast.setPc w (.switching t .finished)).owe (.worker w)).work < s.work := by
  have hmoves : Moves w _ (.switching t .finished) s
      ({ s with schedulerMainFinished := true }.mapWk fun wk =>
        (wk.condBroadcast.setPc w (.switching t .finished)).owe (.worker w)) :=
    ⟨hpc, Function.update_self .., (Signals.condBroadcast s.wk).others w _, rfl, .refl _, rfl, rfl⟩
  exact hs.lowers (k := 1) hmoves rfl (Nat.le_refl _) (by simp only [Pc.work]; omega)

/-- The resume of a task is one step less. -/
theorem resume_lowers (hs : Stopping backend s) (hpc : s.wk.pc w = .dispatched t) :
    ((s.setTask t { s.tasks t with contextSaved := false }).setPc w (.running t)).work <
      s.work := by
  have hmoves : Moves w _ (.running t) s _ :=
    .setPc (x := s.setTask t { s.tasks t with contextSaved := false }) hpc rfl
      ((Unwinds.refl _).update (Nat.le_refl _)) rfl rfl
  have hpending := (s.tasks t).frame.pending_le
  refine hs.lowersAlone hmoves rfl rfl ?_
  show 9 + (Function.update s.tasks t { s.tasks t with contextSaved := false } t).frame.pending
    < 11
  rw [Function.update_self]
  dsimp only
  omega

/-! ### What becomes of a task that switched out -/

/-- The switch back to the worker is one step less. -/
theorem switchOut_lowers {st : TaskState} (hs : Stopping backend s)
    (hpc : s.wk.pc w = .switching t st) :
    ((s.setTask t { s.tasks t with contextSaved := true }).setPc w
      (if st.waiting then .returned t st else .reread t st)).work < s.work := by
  have hmoves : Moves w _ (if st.waiting then .returned t st else .reread t st) s _ :=
    .setPc (x := s.setTask t { s.tasks t with contextSaved := true }) hpc rfl
      ((Unwinds.refl _).update (Nat.le_refl _)) rfl rfl
  refine hs.lowersAlone hmoves rfl rfl ?_
  split <;> simp only [Pc.work] <;> omega

/-- The release of the lock after a park is one step less. -/
theorem release_lowers {st : TaskState} (hs : Stopping backend s)
    (hpc : s.wk.pc w = .returned t st) :
    (s.mapWk fun wk => { wk.setPc w (.reread t st) with lock := none }).work < s.work := by
  have hmoves : Moves w _ (.reread t st) s (s.mapWk fun wk =>
      { wk.setPc w (.reread t st) with lock := none }) :=
    ⟨hpc, Function.update_self .., (Signals.refl s.wk).others w _, rfl, .refl _, rfl, rfl⟩
  exact hs.lowersAlone hmoves rfl rfl (by simp only [Pc.work]; omega)

/-- The look at the flag after a switch is one step less. -/
theorem reread_lowers {st : TaskState} (hs : Stopping backend s)
    (hpc : s.wk.pc w = .reread t st) : (s.setPc w (afterReread s t st)).work < s.work := by
  have hmoves : Moves w _ (afterReread s t st) s _ := .setPc hpc rfl (.refl _) rfl rfl
  have hafter := afterReread_work s t st s.tasks
  exact hs.lowersAlone hmoves rfl rfl (Nat.lt_succ_of_le hafter)

/-- Putting a task back is one step less. -/
theorem requeue_lowers {o : Oracle} (hs : Stopping backend s) (hpc : s.wk.pc w = .requeue t)
    (h : requeueTask o w t s = .ok s') : s'.work < s.work := by
  obtain ⟨s2, hpush, rfl⟩ := requeueTask_ok h
  obtain ⟨htasks, hwk, hspawns, hlife⟩ := taskQueuePush_unwinds hpush
  obtain ⟨hcount, _, howes, _⟩ := s2.wk.condSignal_fields o.pick
  have hsig := Signals.condSignal o.pick s2.wk
  rw [hwk] at hsig hcount howes
  have hmoves : Moves w _ (.top false) s
      (s2.mapWk fun wk => (wk.condSignal o.pick).setPc w (.top false)) :=
    ⟨hpc, Function.update_self .., by
        show Others w s.wk ((s2.wk.condSignal o.pick).setPc w _)
        rw [hwk]
        exact hsig.others w _, by
        show (s2.wk.condSignal o.pick).count = _
        rw [hwk, hcount], htasks, hspawns, hlife⟩
  refine hs.lowersAlone hmoves rfl ?_ (by simp only [Pc.work]; omega)
  show (s2.wk.condSignal o.pick).owes = _
  rw [hwk, howes]

/-- Freeing a task is one step less. -/
theorem cleanup_lowers (hs : Stopping backend s) (hpc : s.wk.pc w = .cleanup t) :
    ((cleanupTask s t).setPc w (.top false)).work < s.work := by
  have hmoves : Moves w _ (.top false) s _ :=
    .setPc (x := cleanupTask s t) hpc rfl ((Unwinds.refl _).update (Nat.le_refl _)) rfl rfl
  exact hs.lowersAlone hmoves rfl rfl (by simp only [Pc.work]; omega)

/-! ### Workers at the top of their loop and in the poller -/

/-- The look at the loop's conditions is one step less: the worker exits. -/
theorem loop_lowers {checked : Bool} (hs : Stopping backend s) (hpc : s.wk.pc w = .top checked) :
    (loopBody w checked s).work < s.work := by
  have hmoves : Moves w _ .exited s _ := .setPc hpc rfl (.refl _) rfl rfl
  rw [(loopBody_outcome w checked s).of_stopping hs.flag]
  exact hs.lowersAlone hmoves rfl rfl (by simp only [Pc.work]; omega)

/-- The return from the condition wait is one step less: the worker exits. -/
theorem condReturn_lowers {signalled checked : Bool} (hs : Stopping backend s)
    (hpc : s.wk.pc w = .condWait signalled checked) :
    (leaveCondWait w checked s).work < s.work := by
  have hout := (loopBody_outcome w checked (s.mapWk fun wk =>
    { wk with idleWorkers := wk.idleWorkers - 1 })).of_stopping hs.flag
  have hmoves : Moves w (.condWait signalled checked) .exited s (leaveCondWait w checked s) := by
    unfold leaveCondWait
    rw [hout]
    exact ⟨hpc, Function.update_self .., (Signals.refl s.wk).others w .exited, rfl, .refl _, rfl,
      rfl⟩
  refine hs.lowersAlone hmoves rfl ?_ (by simp only [Pc.work]; omega)
  unfold leaveCondWait
  rw [hout]
  rfl

/-- The return from the kernel wait is one step less. -/
theorem kernelReturn_lowers {timeout : Timeout} {raw : List RawEvent} (hs : Stopping backend s)
    (hpc : s.wk.pc w = .polling timeout) : (s.setPc w (.polled raw)).work < s.work := by
  have hmoves : Moves w _ (.polled raw) s _ := .setPc hpc rfl (.refl _) rfl rfl
  exact hs.lowersAlone hmoves rfl rfl (by simp only [Pc.work]; omega)

/-- The translation of a batch is one step less. -/
theorem filterBatch_lowers {raw : List RawEvent} (hs : Stopping backend s)
    (hpc : s.wk.pc w = .polled raw) :
    (s.mapWk fun wk => { wk.setPc w (.filtered (pollerTranslate s.poller [] raw)) with
      wakePending := wk.wakePending && !raw.any s.poller.isWake }).work < s.work := by
  have hmoves : Moves w _ (.filtered (pollerTranslate s.poller [] raw)) s (s.mapWk fun wk =>
      { wk.setPc w (.filtered (pollerTranslate s.poller [] raw)) with
        wakePending := wk.wakePending && !raw.any s.poller.isWake }) :=
    ⟨hpc, Function.update_self .., (Signals.refl s.wk).others w _, rfl, .refl _, rfl, rfl⟩
  exact hs.lowersAlone hmoves rfl rfl (by simp only [Pc.work]; omega)

/-- A worker that comes back from the poller exits. -/
theorem leavesPoller_lowers (hs : Stopping backend s) (hpc : s.wk.pc w = p)
    (halive : p.alive = true) (hpos : 0 < p.work s.tasks) :
    ((releasePoller s).setPc w .exited).work < s.work := by
  have hmoves : Moves w p .exited s ((releasePoller s).setPc w .exited) :=
    ⟨hpc, Function.update_self .., (Signals.condBroadcast s.wk).others w _, rfl, .refl _, rfl, rfl⟩
  exact hs.lowersAlone hmoves halive rfl hpos

/-! ### Calls of other threads -/

/-- A wake that was promised is one step less. -/
theorem pollerWake_lowers {θ : Thread} (hmem : θ ∈ s.wk.owes) :
    (s.mapWk fun wk => { wk.pollerWake with owes := wk.owes.erase θ }).work < s.work := by
  have hlen := List.length_erase_of_mem hmem
  have hpos := List.length_pos_of_mem hmem
  show s.workers + (s.wk.owes.erase θ).length + 2 * s.spawns.length + s.control < s.work
  unfold Sys.work
  omega

end Stopping

/-- Threads that end their calls leave the workers with no more to do. -/
theorem Sys.workers_le {s s' : Sys} (hcount : s'.wk.count = s.wk.count)
    (hsig : Signals s.wk s'.wk) (htasks : Unwinds s.tasks s'.tasks) : s'.workers ≤ s.workers := by
  unfold Sys.workers
  rw [hcount]
  refine Finset.sum_le_sum fun v _ => Nat.le_trans (Pc.work_le htasks _) ?_
  rcases hsig v with heq | heq
  · rw [heq]
  · rw [heq, Pc.work_signal]

/-- What the publication of a task leaves behind: at most one more wake, no task deeper in a
call, and `croutine_runtime_run` past its spawn if it was the main task. -/
structure Publishes (s : Sys) (θ : Thread) (t : TaskId) (s' : Sys) : Prop where
  spawns : s'.spawns = s.spawns.erase (θ, t)
  count : s'.wk.count = s.wk.count
  owes : s'.wk.owes.length ≤ s.wk.owes.length + 1
  tasks : Unwinds s.tasks s'.tasks
  main : (s.tasks t).isMain = true → s'.life.work ≤ 2 ∧ s'.life ≠ .runSpawn
  other : (s.tasks t).isMain = false →
    s'.life = s.life ∧ ∀ u, (s'.tasks u).isMain = (s.tasks u).isMain

/-- The task is freed. -/
theorem Publishes.failed (s : Sys) (θ : Thread) (t : TaskId) :
    Publishes s θ t (spawnFailed (cleanupTask { s with spawns := s.spawns.erase (θ, t) } t)
      (s.tasks t).isMain) := by
  have htasks : Unwinds s.tasks (cleanupTask { s with spawns := s.spawns.erase (θ, t) } t).tasks :=
    (Unwinds.refl s.tasks).update (Nat.le_refl _)
  cases hmain : (s.tasks t).isMain with
  | true =>
      exact ⟨rfl, rfl, Nat.le_succ _, htasks, fun _ => ⟨Nat.zero_le _, by simp [spawnFailed]⟩,
        fun habs => absurd (hmain.symm.trans habs) (by simp)⟩
  | false =>
      refine ⟨rfl, rfl, Nat.le_succ _, htasks, fun habs => absurd (hmain.symm.trans habs) (by simp),
        fun _ => ⟨rfl, fun u => ?_⟩⟩
      by_cases hu : u = t
      · subst hu
        simp [spawnFailed, cleanupTask, Sys.setTask, hmain]
      · simp [spawnFailed, cleanupTask, Sys.setTask, Sys.freeStruct, hu]

/-- The task is pushed. -/
theorem Publishes.pushed {o : Oracle} {s s1 : Sys} {θ : Thread} {t : TaskId}
    (hpush : taskQueuePush o { s with spawns := s.spawns.erase (θ, t) } t = some s1) :
    Publishes s θ t (published s1 o θ t (s.tasks t).isMain) := by
  obtain ⟨htasks, hwk, hspawns, hlife⟩ := taskQueuePush_unwinds hpush
  obtain ⟨_, _, howes, _⟩ := s1.wk.condSignal_fields o.pick
  have hcount := (published_fields s1 o θ t (s.tasks t).isMain).2.1
  have hlen : (s1.wk.condSignal o.pick).owes.length = s.wk.owes.length := by rw [howes, hwk]
  refine ⟨hspawns, hcount.trans (congrArg Workers.count hwk), ?_, htasks, fun hm => ?_,
    fun hm => ⟨?_, fun u => ?_⟩⟩
  · unfold published
    dsimp only
    split
    · exact Nat.le_of_eq (congrArg (· + 1) hlen)
    · exact Nat.le_trans (Nat.le_of_eq hlen) (Nat.le_succ _)
  · rw [hm]
    exact ⟨Nat.le_refl 2, by simp [published]⟩
  · rw [hm]
    exact hlife
  · show (s1.tasks u).isMain = _
    rcases taskQueuePush_some hpush with ⟨_, rfl⟩ | ⟨_, cap, _, rfl⟩
    · rfl
    · by_cases hu : u = t
      · subst hu
        simp [taskQueueAppend, Sys.setTask]
      · simp [taskQueueAppend, Sys.setTask, hu]

/-- **What the publication of a task leaves behind**, whether it succeeds or fails. -/
theorem workerSpawnPublish_publishes (o : Oracle) (s : Sys) (θ : Thread) (t : TaskId) :
    Publishes s θ t (workerSpawnPublish o s θ t) := by
  rcases workerSpawnPublish_cases o s θ t with heq | ⟨_, s1, hpush, heq⟩ <;> rw [heq]
  · exact .failed s θ t
  · exact .pushed hpush

/-- Another task than the main one makes no difference to `croutine_runtime_run`. -/
theorem Publishes.control {s s' : Sys} {θ : Thread} {t : TaskId} (h : Publishes s θ t s')
    (hmain : (s.tasks t).isMain = false) : s'.control = s.control := by
  obtain ⟨hlife, hsame⟩ := h.other hmain
  have hpending : s'.mainPending = s.mainPending := by
    unfold Sys.mainPending
    rw [h.spawns, Bool.eq_iff_iff, List.any_eq_true, List.any_eq_true]
    constructor
    · rintro ⟨p, hp, hm⟩
      exact ⟨p, List.mem_of_mem_erase hp, (hsame _).symm.trans hm⟩
    · rintro ⟨p, hp, hm⟩
      refine ⟨p, (List.mem_erase_of_ne ?_).mpr hp, (hsame _).trans hm⟩
      rintro rfl
      exact absurd (hmain.symm.trans hm) (by simp)
  unfold Sys.control
  rw [hlife, hpending]

namespace Stopping

variable {backend : Backend} {s : Sys} {θ : Thread}

/-- The publication of a task is one step less, with the wake it may promise. -/
theorem spawnPublish_lowers {o : Oracle} {t : TaskId} (hs : Stopping backend s)
    (hmem : (θ, t) ∈ s.spawns) : (workerSpawnPublish o s θ t).work < s.work := by
  have hpub := workerSpawnPublish_publishes o s θ t
  have hworkers := Sys.workers_le hpub.count (workerSpawnPublish_signals o s θ t) hpub.tasks
  have hlen := List.length_erase_of_mem hmem
  have hpos := List.length_pos_of_mem hmem
  have howes := hpub.owes
  have hcontrol : (workerSpawnPublish o s θ t).control ≤ s.control := by
    cases hmain : (s.tasks t).isMain with
    | false => exact Nat.le_of_eq (hpub.control hmain)
    | true =>
        obtain ⟨hle, hpast⟩ := hpub.main hmain
        obtain ⟨_, hlife⟩ := hs.alive.mainSpawn _ hmem hmain
        have hpending : s.mainPending = true := List.any_eq_true.mpr ⟨_, hmem, hmain⟩
        rw [Sys.control_of_life hpast, Sys.control_of_pending hlife hpending]
        exact Nat.le_succ_of_le hle
  unfold Sys.work
  rw [hpub.spawns]
  omega

/-- `croutine_runtime_run` allocates its main task, or gives up. -/
theorem spawnAlloc_lowers {r : SpawnRequest} (hs : Stopping backend s)
    (hspawn : canSpawn s θ r.isMain = true) (hmain : r.isMain = true) :
    (workerSpawnAlloc s θ r).work < s.work := by
  unfold canSpawn at hspawn
  rw [if_pos hmain] at hspawn
  simp only [Bool.and_eq_true, decide_eq_true_eq, Bool.not_eq_true', List.any_eq_false] at hspawn
  obtain ⟨⟨hθ, hlife⟩, hnone⟩ := hspawn
  have hpending : s.mainPending = false := by
    refine List.any_eq_false.mpr fun p hp hm => ?_
    exact hnone p hp ((hs.alive.mainSpawn p hp hm).1.trans hθ.symm)
  have hsix : s.control = 6 := if_pos ⟨hlife, hpending⟩
  have hpays : ∀ x : Sys, x.wk = s.wk → Unwinds s.tasks x.tasks → ∀ n c,
      x.spawns.length = n → x.control = c → 2 * n + c < 2 * s.spawns.length + 6 →
      x.work < s.work := by
    intro x hwk htasks n c hn hc hlt
    have hworkers : x.workers ≤ s.workers :=
      Sys.workers_le (congrArg Workers.count hwk) (by rw [hwk]; exact .refl _) htasks
    unfold Sys.work
    rw [hwk, hsix, hn, hc]
    omega
  have hgiveUp : ∀ x : Sys, x.wk = s.wk → x.spawns = s.spawns → Unwinds s.tasks x.tasks →
      (spawnFailed x true).work < s.work := fun x hwk hspawns htasks =>
    hpays _ hwk htasks _ 0 (congrArg List.length hspawns) rfl (by omega)
  rcases workerSpawnAlloc_cases s θ r with heq | ⟨l, _, heq⟩ | heq <;> rw [heq, hmain]
  · exact hgiveUp s rfl rfl (.refl _)
  · exact hgiveUp _ rfl rfl (.refl _)
  · exact hpays _ rfl ((Unwinds.refl _).update (Nat.zero_le _)) (s.spawns.length + 1) 3 rfl
      (Sys.control_of_pending hlife (by simp [Sys.mainPending, Sys.setTask])) (by omega)

/-! ### The control thread -/

/-- The start of a worker is one step less. -/
theorem createWorker_lowers {k : Nat} (hs : Stopping backend s) (hlife : s.life = .creating k)
    (hk : k < s.wk.count) :
    Sys.work { s.setPc k (.top false) with life := .creating (k + 1) } < s.work := by
  have hpc : s.wk.pc k = .notStarted := by
    by_contra hne
    have hlt := hs.alive.started k hne
    rw [hlife] at hlt
    exact absurd hlt (Nat.lt_irrefl k)
  have hworkers : Sys.workers { s.setPc k (.top false) with life := .creating (k + 1) } + (0 + 1) ≤
      s.workers := by
    refine Sys.workers_lt hk rfl ((Signals.refl s.wk).others k (.top false)) (.refl _) ?_
    show (Function.update s.wk.pc k (.top false) k).work s.tasks + 0 < _
    rw [Function.update_self, hpc]
    exact Nat.lt_succ_self 1
  have hcontrol : s.control = 2 := by
    rw [Sys.control_of_life (by rw [hlife]; simp), hlife]
    rfl
  show Sys.workers _ + s.wk.owes.length + 2 * s.spawns.length + 2 < s.work
  unfold Sys.work
  omega

/-- The end of `worker_wait_for_main` is one step less. -/
theorem waitForMain_lowers (hlife : s.life = .creating s.wk.count) :
    Sys.work { s with life := .joining } < s.work := by
  show s.workers + s.wk.owes.length + 2 * s.spawns.length + 1 < s.work
  unfold Sys.work
  rw [Sys.control_of_life (by rw [hlife]; simp), hlife]
  exact Nat.lt_succ_self _

/-- The end of the joins is one step less. -/
theorem joinWorkers_lowers (hlife : s.life = .joining) :
    Sys.work { s with life := .ranOut } < s.work := by
  show s.workers + s.wk.owes.length + 2 * s.spawns.length + 0 < s.work
  unfold Sys.work
  rw [Sys.control_of_life (by rw [hlife]; simp), hlife]
  exact Nat.lt_succ_self _

end Stopping

/-- **Every winding step of the scheduler lowers the work.** -/
theorem SchedStep.lowers {backend : Backend} {a : Action} {s s' : Sys} (h : SchedStep s a s')
    (hs : Stopping backend s) (ha : a.winds = true) : s'.work < s.work := by
  cases h with
  | spawnAlloc hspawn hlife => exact hs.spawnAlloc_lowers hspawn ha
  | spawnPublish hlock hmem => exact hs.spawnPublish_lowers hmem
  | pollerWake hmem => exact Stopping.pollerWake_lowers hmem
  | yield hpc hframe => exact hs.yield_lowers hpc
  | returnIo hpc hframe => exact hs.returnIo_lowers hpc hframe
  | taskReturn hpc hframe => exact hs.taskReturn_lowers hpc
  | finishMain hpc => exact hs.finishMain_lowers hpc
  | finishSched hlock hpc => exact hs.finishSched_lowers hpc
  | switchOut hpc => exact hs.switchOut_lowers hpc
  | release hpc => exact hs.release_lowers hpc
  | reread hlock hpc => exact hs.reread_lowers hpc
  | requeue hlock hpc hrequeue => exact hs.requeue_lowers hpc hrequeue
  | cleanup hpc => exact hs.cleanup_lowers hpc
  | loop hlock hpc => exact hs.loop_lowers hpc
  | condReturn hlock hpc => exact hs.condReturn_lowers hpc
  | kernelReturn hpc hbatch => exact hs.kernelReturn_lowers hpc
  | filterBatch hpc => exact hs.filterBatch_lowers hpc
  | pollReturn hlock hpc hpoll =>
      rcases leavePoll_ok hpoll with ⟨_, rfl⟩ | ⟨hgo, _⟩
      · exact hs.leavesPoller_lowers hpc rfl (by simp only [Pc.work]; omega)
      · rw [hs.flag] at hgo
        exact absurd hgo (by simp)
  | pollFailed hlock hpc hpoll =>
      obtain ⟨_, rfl⟩ := leavePollError_ok hpoll
      exact hs.leavesPoller_lowers hpc rfl (by simp only [Pc.work]; omega)
  | resume hpc => exact hs.resume_lowers hpc
  | createWorker hlife hk howes => exact hs.createWorker_lowers hlife hk
  | waitForMain hlife => exact Stopping.waitForMain_lowers hlife
  | joinWorkers hlife hall => exact Stopping.joinWorkers_lowers hlife
  | _ => exact absurd ha (by simp [Action.winds])

/-! ## The flags -/

/-- `shutdown_requested`, `scheduler_main_finished` and `main_finished` are as they were. -/
structure SameFlags (s s' : Sys) : Prop where
  shut : s'.shutdownRequested = s.shutdownRequested
  sched : s'.schedulerMainFinished = s.schedulerMainFinished
  main : s'.mainFinished = s.mainFinished

namespace SameFlags

theorem refl (s : Sys) : SameFlags s s := ⟨rfl, rfl, rfl⟩

theorem trans {s s1 s' : Sys} (h : SameFlags s s1) (h' : SameFlags s1 s') : SameFlags s s' :=
  ⟨h'.shut.trans h.shut, h'.sched.trans h.sched, h'.main.trans h.main⟩

/-- The workers are told to stop before if and only if after. -/
theorem stopping {s s' : Sys} (h : SameFlags s s') : s'.stopping = s.stopping := by
  unfold Sys.stopping
  rw [h.shut, h.sched]

/-- Waking tasks leaves the flags alone. -/
theorem wakes {s s' : Sys} (h : Wakes s s') : SameFlags s s' :=
  ⟨h.sameCore.shutdownRequested, h.sameCore.schedulerMainFinished, h.sameCore.mainFinished⟩

/-- Waking the tasks of a descriptor leaves the flags alone. -/
theorem wakeIo {o : Oracle} {s s' : Sys} {fd : Int} {ready : IoEvents} {success : Bool}
    {period n : Nat} (h : wakeWaitingTasksLocked o s fd ready success period = .ok (s', n)) :
    SameFlags s s' := by
  rcases wakeWaitingTasksLocked_ok h with ⟨_, rfl, _⟩ |
    ⟨i, entry, tasks, rest, poller, s1, _, _, _, _, hfold, rfl, _⟩
  · exact .refl _
  · obtain ⟨tasks', runq, log, rfl, _⟩ := wakeIoTasks_frame tasks hfold
    split <;> exact ⟨rfl, rfl, rfl⟩

/-- Waking the tasks of a batch leaves the flags alone. -/
theorem pollBatch {o : Oracle} {events : List PollEvent} {s s' : Sys}
    (h : events.foldlM (applyPollEvent o) s = .ok s') : SameFlags s s' := by
  refine Res.foldlM_induct (I := fun x => SameFlags s x) ?_ events (.refl s) h
  intro x e x' hx hstep
  obtain ⟨n, hwake⟩ := applyPollEvent_ok hstep
  exact hx.trans (wakeIo hwake)

/-- A look at the loop's conditions leaves the flags alone. -/
theorem loopOutcome {w : WorkerId} {checked : Bool} {s s' : Sys}
    (h : LoopOutcome w checked s s') : SameFlags s s' := by
  cases h <;> exact ⟨rfl, rfl, rfl⟩

/-- A push leaves the flags alone. -/
theorem push {o : Oracle} {s s' : Sys} {t : TaskId} (h : taskQueuePush o s t = some s') :
    SameFlags s s' := by
  rcases taskQueuePush_some h with ⟨_, rfl⟩ | ⟨_, cap, _, rfl⟩ <;> exact ⟨rfl, rfl, rfl⟩

/-- A spawn that fails leaves the flags alone. -/
theorem spawnFailed {s x : Sys} (h : SameFlags s x) (isMain : Bool) :
    SameFlags s (Croutine.spawnFailed x isMain) := by
  rw [spawnFailed_eq]
  exact ⟨h.shut, h.sched, h.main⟩

/-- The first half of a spawn leaves the flags alone. -/
theorem spawnAlloc (s : Sys) (θ : Thread) (r : SpawnRequest) :
    SameFlags s (workerSpawnAlloc s θ r) := by
  rcases workerSpawnAlloc_cases s θ r with heq | ⟨l, _, heq⟩ | heq <;> rw [heq]
  · exact .spawnFailed (.refl s) _
  · refine .spawnFailed ?_ _
    exact ⟨rfl, rfl, rfl⟩
  · exact ⟨rfl, rfl, rfl⟩

/-- The second half of a spawn leaves the flags alone. -/
theorem spawnPublish (o : Oracle) (s : Sys) (θ : Thread) (t : TaskId) :
    SameFlags s (workerSpawnPublish o s θ t) := by
  rcases workerSpawnPublish_cases o s θ t with heq | ⟨_, s1, hpush, heq⟩ <;> rw [heq]
  · refine .spawnFailed ?_ _
    exact ⟨rfl, rfl, rfl⟩
  · have h1 := push hpush
    exact ⟨h1.shut, h1.sched, h1.main⟩

end SameFlags

/-- What a step does to the flags. -/
inductive FlagMove (s : Sys) (s' : Sys) : Prop
  | kept (h : SameFlags s s')
  | finishMain (hstop : s'.stopping = s.stopping) (hmain : s'.mainFinished = true)
  | finishSched {w : WorkerId} {t : TaskId} (hpc : s.wk.pc w = .finishSched t)
      (hstop : s'.stopping = true) (hmain : s'.mainFinished = s.mainFinished)
  | requested (hstop : s'.stopping = true) (hmain : s'.mainFinished = true)
  | reset (hlife : s.life = .preInit) (hlife' : s'.life = .inited) (hstop : s'.stopping = false)

/-- What a step of the scheduler does to the flags. -/
theorem SchedStep.flagMove {a : Action} {s s' : Sys} (h : SchedStep s a s')
    (hagree : IoAgree s.tasks s.io) : FlagMove s s' := by
  cases h with
  | @spawnAlloc θ r hspawn hlife => exact .kept (.spawnAlloc s θ r)
  | @spawnPublish hlock o θ t hmem => exact .kept (.spawnPublish o s θ t)
  | forgetFd hlock hint hforget =>
      rcases workerForgetFd_ok hforget with ⟨_, rfl⟩ | ⟨_, s1, n, hwake, rfl⟩
      · exact .kept (.refl _)
      · have h1 := SameFlags.wakeIo hwake
        split
        · exact .kept ⟨h1.shut, h1.sched, h1.main⟩
        · exact .kept h1
  | @waitIo hlock o v t fd direction hint hpc hframe =>
      rcases workerParkCurrentOnIo_outcome hagree o v t fd (IoEvents.none.put direction true) with
        ⟨io, poller, heq, _⟩ | ⟨_, io, i, e, poller, _, _, _, heq⟩
      · rw [heq]
        exact .kept ⟨rfl, rfl, rfl⟩
      · rw [heq]
        exact .kept ⟨rfl, rfl, rfl⟩
  | finishMain hpc => exact .finishMain rfl rfl
  | finishSched hlock hpc => exact .finishSched hpc (Bool.or_true _) rfl
  | @requeue hlock o w t s1 hpc hrequeue =>
      obtain ⟨s2, hpush, rfl⟩ := requeueTask_ok hrequeue
      have h2 := SameFlags.push hpush
      exact .kept ⟨h2.shut, h2.sched, h2.main⟩
  | loop hlock hpc => exact .kept (.loopOutcome (loopBody_outcome ..))
  | @condReturn hlock v signalled checked hpc =>
      have hout := SameFlags.loopOutcome (loopBody_outcome v checked
        (s.mapWk fun wk => { wk with idleWorkers := wk.idleWorkers - 1 }))
      exact .kept ⟨hout.shut, hout.sched, hout.main⟩
  | pollReturn hlock hpc hpoll =>
      rcases leavePoll_ok hpoll with ⟨_, rfl⟩ | ⟨_, s2, hbatch, hout⟩
      · exact .kept ⟨rfl, rfl, rfl⟩
      · have h2 := (SameFlags.pollBatch hbatch).trans (.loopOutcome hout)
        exact .kept ⟨h2.shut, h2.sched, h2.main⟩
  | pollFailed hlock hpc hpoll =>
      obtain ⟨_, rfl⟩ := leavePollError_ok hpoll
      exact .kept ⟨rfl, rfl, rfl⟩
  | runtimeInit hlock hlife => exact .reset hlife rfl rfl
  | deinitDrain hlock hlife =>
      have hsame : SameFlags s (workerDeinitDrain s) := by
        rw [(DrainFrame.deinit s).eq]
        exact ⟨rfl, rfl, rfl⟩
      exact .kept ⟨hsame.shut, hsame.sched, hsame.main⟩
  | _ => exact .kept ⟨rfl, rfl, rfl⟩

/-- What a channel step does to the flags. -/
theorem ChanView.flagMove {s s' : Sys} (h : ChanView s s') : FlagMove s s' := by
  cases h with
  | memory κ => exact .kept ⟨rfl, rfl, rfl⟩
  | wakes hlock hw => exact .kept (.wakes hw)
  | park hlock hw hpc hframe frame =>
      have h1 := SameFlags.wakes hw
      unfold workerParkCurrentOnChannelLocked
      split <;> exact .kept ⟨h1.shut, h1.sched, h1.main⟩
  | @shutdown hlock o θ s1 life hlife hclose =>
      have h1 := SameFlags.wakes (croutineChannelShutdownAllLocked_wakes hclose)
      refine .requested ?_ rfl
      show (s1.shutdownRequested || s1.schedulerMainFinished) = true
      rw [h1.shut]
      rfl
  | returned hpc κ => exact .kept ⟨rfl, rfl, rfl⟩

/-- What a step does to the flags. -/
theorem step_flagMove {a : Action} {s s' : Sys} (h : step s a = .ok s')
    (hagree : IoAgree s.tasks s.io) : FlagMove s s' := by
  rcases step_kind h with hc | hs
  · exact hc.view.flagMove
  · exact hs.flagMove hagree

/-- `worker_wait_for_main` returns once the workers have been told to stop. -/
structure MainDone (s : Sys) : Prop where
  stopping : s.stopping = true → s.mainFinished = true
  finishing : ∀ w t, s.wk.pc w = .finishSched t → s.mainFinished = true

/-- A worker comes to its second critical section of `task_finished` from the first. -/
theorem Moved.finishing {a : Action} {s s' : Sys} {w : WorkerId} {t : TaskId}
    (h : Moved s a s' w) (ht : s'.wk.pc w = .finishSched t) :
    s.wk.pc w = .finishSched t ∨ a = .finishMain w := by
  rcases h with heq | heq | hmove
  · exact .inl (heq.symm.trans ht)
  · exact .inl (Pc.eq_of_signal (heq.symm.trans ht) (by simp))
  · refine .inr ?_
    generalize s'.wk.pc w = p' at hmove ht
    generalize s.wk.pc w = p at hmove
    cases hmove with
    | finishMain => rfl
    | loop hsched | wakeUp hsched | pollReturn hsched =>
        rw [ht] at hsched
        cases hsched
    | @switchOut u st => split at ht <;> exact absurd ht (by simp)
    | @reread u st =>
        rcases afterReread_cases s u st with heq | heq | heq <;> rw [heq] at ht <;>
          exact absurd ht (by simp)
    | _ => exact absurd ht (by simp)

/-- The first critical section of `task_finished` lets `worker_wait_for_main` return. -/
theorem step_finishMain {s s' : Sys} {w : WorkerId} (h : step s (.finishMain w) = .ok s') :
    s'.mainFinished = true := by
  unfold step at h
  dsimp only at h
  split at h
  · cases h
    rfl
  · exact absurd h (by simp)

/-- In every state `worker_wait_for_main` returns once the workers have been told to stop. -/
theorem MainDone.reach {backend : Backend} {s : Sys} (h : (runtime backend).Reach s) :
    MainDone s := by
  refine Machine.ReachVia.invariant (I := MainDone) ?_ ?_ h
  · intro x hx
    obtain ⟨wakeFd, workers, runCapacity, ioCapacity, _, _, rfl⟩ := hx
    exact ⟨fun habs => absurd habs (by simp [Sys.stopping, initial]),
      fun w t habs => absurd habs (by simp [initial])⟩
  · intro x a x' hreach hx _ hstep
    have hmoved := step_moved hstep (IoInv.reach hreach).agree
    have hfinishing : (x.mainFinished = true → x'.mainFinished = true) →
        ∀ w t, x'.wk.pc w = .finishSched t → x'.mainFinished = true := by
      intro hmono w t ht
      rcases (hmoved w).finishing ht with hpc | rfl
      · exact hmono (hx.finishing w t hpc)
      · exact step_finishMain hstep
    cases step_flagMove hstep (IoInv.reach hreach).agree with
    | kept hsame =>
        refine ⟨fun hstop => ?_, hfinishing fun hm => hsame.main.trans hm⟩
        rw [hsame.stopping] at hstop
        exact hsame.main.trans (hx.stopping hstop)
    | finishMain hstop hmain | requested hstop hmain => exact ⟨fun _ => hmain, fun _ _ _ => hmain⟩
    | finishSched hpc hstop hmain =>
        have hdone := hmain.trans (hx.finishing _ _ hpc)
        exact ⟨fun _ => hdone, fun _ _ _ => hdone⟩
    | reset hlife hlife' hstop =>
        refine ⟨fun habs => ?_, fun w t ht => ?_⟩
        · rw [hstop] at habs
          exact absurd habs (by simp)
        · have hquiet := (LifeInv.reach (.step hreach trivial hstep)).quiet
            (by rw [hlife']; rfl) w
          rw [ht] at hquiet
          exact absurd hquiet (by simp [Pc.alive])

/-! ## One step of stopping -/

/-- The end of a channel call is the only winding step on the channels. -/
theorem ChanStep.winds {P : List SelectCase → Prop} {a : Action} {s s' : Sys}
    (h : ChanStep P s a s') (ha : a.winds = true) :
    ∃ w t κ, s.wk.pc w = .running t ∧ (s.tasks t).frame.pending = 1 ∧
      s' = { s.setTask t { s.tasks t with frame := .user } with ch := κ } := by
  cases h with
  | returnSingle hpc hframe hlock => exact ⟨_, _, _, hpc, by rw [hframe]; rfl, rfl⟩
  | returnSelect hpc hframe hlock => exact ⟨_, _, _, hpc, by rw [hframe]; rfl, rfl⟩
  | shutdown hlock hreq hlife hclose =>
      cases a <;> first | exact absurd hreq Bool.false_ne_true | exact absurd ha Bool.false_ne_true
  | _ => exact absurd ha (by simp [Action.winds])

/-- **A winding step** keeps the runtime stopping and lowers the work. -/
theorem Stopping.winds {backend : Backend} {a : Action} {s s' : Sys} (h : Stopping backend s)
    (ha : a.winds = true) (hstep : step s a = .ok s') :
    Stopping backend s' ∧ s'.work < s.work := by
  have hflag : s'.stopping = true := by
    cases step_flagMove hstep (IoInv.reach h.reach).agree with
    | kept hsame => exact hsame.stopping.trans h.flag
    | finishMain hstop hmain => exact hstop.trans h.flag
    | finishSched hpc hstop hmain => exact hstop
    | requested hstop hmain => exact hstop
    | reset hlife hlife' hstop =>
        have hfresh := h.alive.fresh hlife
        rw [h.flag] at hfresh
        exact absurd hfresh (by simp)
  have hreach : (runtime backend).Reach s' := .step h.reach trivial hstep
  rcases step_kind hstep with hc | hs
  · obtain ⟨w, t, κ, hpc, hframe, rfl⟩ := hc.winds ha
    refine ⟨⟨hreach, hflag⟩, ?_⟩
    have hmoves : Moves w (.running t) (.running t) s
        { s.setTask t { s.tasks t with frame := .user } with ch := κ } :=
      ⟨hpc, hpc, fun v _ => .inl rfl, rfl, (Unwinds.refl _).update (Nat.zero_le _), rfl, rfl⟩
    refine h.lowersAlone hmoves rfl rfl ?_
    simp [Pc.work, Sys.setTask, Frame.pending] at hframe ⊢
    omega
  · exact ⟨⟨hreach, hflag⟩, hs.lowers h ha⟩

/-! ## Some step is always possible -/

/-- A winding step is possible. -/
def Sys.GoesOn (s : Sys) : Prop := ∃ a s', a.winds = true ∧ step s a = .ok s'

/-- A winding step that returns lets the run go on. -/
theorem Sys.GoesOn.of_isOk {s : Sys} (a : Action) (ha : a.winds = true)
    (h : (step s a).isOk = true) : s.GoesOn := by
  cases hs : step s a with
  | ok s' => exact ⟨a, s', ha, hs⟩
  | error e =>
      rw [hs] at h
      exact absurd h (by simp [Except.isOk, Except.toBool])

/-- The kernel wait of a worker that was told to stop returns: without a timeout the wake
descriptor is readable. -/
theorem kernelBatch_wakes {s : Sys} {timeout : Timeout}
    (h : timeout = .infinite → s.wk.wakePending = true) :
    ∃ batch raw, kernelBatch s timeout batch = some raw := by
  cases timeout with
  | zero => exact ⟨[], [], by simp [kernelBatch, MAX_POLLER_EVENTS]⟩
  | infinite =>
      have hpending := h rfl
      cases hb : s.poller.backend with
      | epoll =>
          exact ⟨[.wake], _, by
            simp [kernelBatch, MAX_POLLER_EVENTS, Poller.report, hpending, hb]; rfl⟩
      | kqueue =>
          exact ⟨[.wake], _, by
            simp [kernelBatch, MAX_POLLER_EVENTS, Poller.report, hpending, hb]; rfl⟩

/-- With a ring the push of a task returns. -/
theorem requeueTask_returns {s : Sys} (hring : 0 < s.runq.capacity) (w : WorkerId) (t : TaskId) :
    (requeueTask .calm w t s).isOk = true := by
  obtain ⟨s1, hs1⟩ := taskQueuePush_total (o := .calm) hring (fun _ => rfl) t
  unfold requeueTask
  rw [hs1]
  rfl

/-- A worker that comes back from the poller of a stopping run exits. -/
theorem leavePoll_stopping {o : Oracle} {w : WorkerId} {events : List PollEvent} {s : Sys}
    (h : s.stopping = true) : (leavePoll o w events s).isOk = true := by
  have hstop : ((releasePoller s).shutdownRequested || (releasePoller s).schedulerMainFinished) =
    true := h
  unfold leavePoll
  dsimp only
  rw [if_pos hstop]
  rfl

/-- A worker whose poll failed in a stopping run exits. -/
theorem leavePollError_stopping {w : WorkerId} {s : Sys} (h : s.stopping = true) :
    (leavePollError w s).isOk = true := by
  have hstop : ((releasePoller s).shutdownRequested || (releasePoller s).schedulerMainFinished) =
    true := h
  unfold leavePollError
  dsimp only
  rw [if_pos hstop]
  rfl

/-- A worker that is alive can go on when nobody holds the lock or has a call to end. -/
theorem Stopping.worker_goesOn {backend : Backend} {s : Sys} (h : Stopping backend s)
    (howes : s.wk.owes = []) (hlock : s.wk.lock = none) (hspawns : s.spawns = []) {w : WorkerId}
    (hw : (s.wk.pc w).alive = true) : s.GoesOn := by
  have hfree : s.lockFree = true := Sys.lockFree_iff.mpr hlock
  cases hpc : s.wk.pc w with
  | notStarted | exited =>
      rw [hpc] at hw
      exact absurd hw (by simp [Pc.alive])
  | top checked => exact .of_isOk (.loop w) rfl (by simp [step, hfree, hpc, Res.require]; rfl)
  | condWait signalled checked =>
      exact .of_isOk (.condReturn w) rfl (by simp [step, hfree, hpc, Res.require]; rfl)
  | polling timeout =>
      have hpending : timeout = .infinite → s.wk.wakePending = true := by
        intro heq
        rw [heq] at hpc
        exact (((SleepInv.reach h.reach).alerted h.flag).2 w hpc).resolve_right (by simp [howes])
      obtain ⟨batch, raw, hbatch⟩ := kernelBatch_wakes hpending
      exact .of_isOk (.kernelReturn w batch) rfl (by simp [step, hpc, hbatch]; rfl)
  | polled raw => exact .of_isOk (.filterBatch w) rfl (by simp [step, hpc]; rfl)
  | filtered events =>
      refine .of_isOk (.pollReturn w .calm) rfl ?_
      simp only [step, hfree, hpc, Res.require, if_true]
      exact leavePoll_stopping h.flag
  | pollError =>
      refine .of_isOk (.pollReturn w .calm) rfl ?_
      simp only [step, hfree, hpc, Res.require, if_true]
      exact leavePollError_stopping h.flag
  | dispatched t => exact .of_isOk (.resume w) rfl (by simp [step, hpc]; rfl)
  | running t =>
      -- the task returns from the call it is in, or from its function
      cases hframe : (s.tasks t).frame with
      | user =>
          exact .of_isOk (.taskReturn w) rfl (by
            simp [step, Sys.canAct, howes, hspawns, hpc, hframe, Res.require]; rfl)
      | ioWait =>
          exact .of_isOk (.callReturn w) rfl (by simp [step, hpc, callReturn, hframe]; rfl)
      | single op call c parked =>
          exact .of_isOk (.callReturn w) rfl (by
            simp [step, hpc, callReturn, hframe, hfree, Res.require]; rfl)
      | select call cases parked =>
          exact .of_isOk (.callReturn w) rfl (by
            simp [step, hpc, callReturn, hframe, hfree, Res.require]; rfl)
  | finishMain t => exact .of_isOk (.finishMain w) rfl (by simp [step, hpc]; rfl)
  | finishSched t =>
      exact .of_isOk (.finishSched w) rfl (by simp [step, hfree, hpc, Res.require]; rfl)
  | switching t st =>
      exact .of_isOk (.switchOut w) rfl (by simp [step, howes, hpc, Res.require]; rfl)
  | returned t st => exact .of_isOk (.release w) rfl (by simp [step, hpc]; rfl)
  | reread t st =>
      exact .of_isOk (.rereadShutdown w) rfl (by simp [step, hfree, hpc, Res.require]; rfl)
  | requeue t =>
      have hdown : s.life ≠ .down := by
        intro hdown
        exact h.alive.down_dead hdown hpc rfl
      refine .of_isOk (.requeue w .calm) rfl ?_
      simp only [step, hfree, hpc, Res.require, if_true]
      exact requeueTask_returns (ring_reach h.reach hdown) w t
  | cleanup t => exact .of_isOk (.cleanup w) rfl (by simp [step, hpc]; rfl)

/-- The lock is held by a worker whose task is parking, and once the workers are gone by
nobody. -/
theorem lock_parking {backend : Backend} {s : Sys} {v : WorkerId} (h : (runtime backend).Reach s)
    (hlock : s.wk.lock = some v) : (s.wk.pc v).parking = true := by
  have hheld : ∀ {x : Sys}, (runtime backend).Reach x → x.life ≠ .down →
      x.wk.lock = some v → (x.wk.pc v).parking = true := by
    intro x hx hdown hl
    obtain ⟨loc, hloc⟩ := (TaskInv.reach hx hdown).placed
    exact (hloc.locked v).mp hl
  refine Machine.ReachVia.invariant
    (I := fun x => x.wk.lock = some v → (x.wk.pc v).parking = true) ?_ ?_ h hlock
  · intro x hx
    obtain ⟨wakeFd, workers, runCapacity, ioCapacity, _, _, rfl⟩ := hx
    exact fun habs => absurd habs (by simp [initial])
  · intro x a x' hreach hx _ hstep hl
    by_cases hdown' : x'.life = .down
    · by_cases hdown : x.life = .down
      · have hgone := ((IoInv.reach hreach).gone hdown).step (LifeInv.reach hreach) hdown hstep
        cases hgone <;> exact hx hl
      · obtain ⟨_, rfl⟩ := step_ends hstep hdown hdown'
        exact hx hl
    · exact hheld (.step hreach trivial hstep) hdown' hl

/-- The worker that holds the lock for its task can hand it on. -/
theorem Stopping.holder_goesOn {backend : Backend} {s : Sys} (h : Stopping backend s)
    (howes : s.wk.owes = []) {v : WorkerId} (hlock : s.wk.lock = some v) : s.GoesOn := by
  have hpark := lock_parking h.reach hlock
  cases hpc : s.wk.pc v with
  | switching t st =>
      exact .of_isOk (.switchOut v) rfl (by simp [step, howes, hpc, Res.require]; rfl)
  | returned t st => exact .of_isOk (.release v) rfl (by simp [step, hpc]; rfl)
  | _ =>
      rw [hpc] at hpark
      exact absurd hpark (by simp [Pc.parking])

/-- **Until everything has stopped, some thread can go on.** -/
theorem Stopping.goesOn {backend : Backend} {s : Sys} (h : Stopping backend s)
    (hnot : ¬s.Stopped) : s.GoesOn := by
  by_cases howes : s.wk.owes = []
  · cases hlock : s.wk.lock with
    | some v => exact h.holder_goesOn howes hlock
    | none =>
        have hfree : s.lockFree = true := Sys.lockFree_iff.mpr hlock
        by_cases hspawns : s.spawns = []
        · by_cases halive : ∃ w, (s.wk.pc w).alive = true
          · obtain ⟨w, hw⟩ := halive
            exact h.worker_goesOn howes hlock hspawns hw
          · have hdead : ∀ w, (s.wk.pc w).alive = false := by simpa using halive
            cases hlife : s.life with
            | creating k =>
                by_cases hk : k < s.wk.count
                · exact .of_isOk .createWorker rfl (by
                    simp [step, hlife, hk, howes, Res.require]; rfl)
                · have hcount : k = s.wk.count :=
                    Nat.le_antisymm (h.alive.creating k hlife) (Nat.le_of_not_lt hk)
                  have hmain := (MainDone.reach h.reach).stopping h.flag
                  exact .of_isOk .waitForMain rfl (by
                    simp [step, hlife, hcount, hmain, Res.require]; rfl)
            | joining =>
                have hgone : ∀ w, s.wk.pc w = .exited ∨ s.wk.pc w = .notStarted := by
                  intro w
                  have hw := hdead w
                  cases hpc : s.wk.pc w <;> rw [hpc] at hw <;>
                    first | exact .inl rfl | exact .inr rfl | exact absurd hw (by simp [Pc.alive])
                exact .of_isOk .joinWorkers rfl (by
                  simp [step, hlife, howes, hgone, Res.require]; rfl)
            | runSpawn =>
                exact .of_isOk (.spawnAlloc .runtime (.plain true)) rfl (by
                  simp [step, canSpawn, SpawnRequest.plain, hlife, hspawns, Res.require]; rfl)
            | _ => exact absurd ⟨hdead, howes, hspawns, by rw [hlife]; rfl⟩ hnot
        · obtain ⟨⟨θ, t⟩, hmem⟩ := List.exists_mem_of_ne_nil _ hspawns
          exact .of_isOk (.spawnPublish θ t .calm) rfl (by
            simp [step, hfree, hmem, Res.require]; rfl)
  · obtain ⟨θ, hθ⟩ := List.exists_mem_of_ne_nil _ howes
    exact .of_isOk (.pollerWake θ) rfl (by simp [step, hθ, Res.require]; rfl)

/-- **The winding steps of a stopping run end in a stopped state**, at most as many as its
work. -/
theorem stopping_windsDown (backend : Backend) :
    (runtime backend).WindsDown (Stopping backend) (fun _ a => a.winds = true) Sys.Stopped
      Sys.work where
  keeps h ha hstep := (h.winds ha hstep).1
  lowers h ha hstep := (h.winds ha hstep).2
  goesOn h hnot := h.goesOn hnot

/-- **Stopping comes to an end.**  Once main has finished or shutdown was requested, in every
run and with any number of workers, the steps by which the threads go on can be made in any
order: there are at most as many as `Sys.work` counts, and the threads get stuck only when no
worker is left, no thread owes a wake or is inside a spawn, and `croutine_runtime_run` has
spawned its main task and joined its workers, or given up.  It may have been called after the
request: then the spawn of its main task is among these steps. -/
theorem stopping_ends {backend : Backend} {s s' : Sys} {l : List Action}
    (h : (runtime backend).Reach s)
    (hstop : s.shutdownRequested = true ∨ s.schedulerMainFinished = true)
    (hrun : (runtime backend).RunVia (fun _ a => a.winds = true) s l s') :
    l.length ≤ s.work ∧
    ((∀ a, a.winds = true → ∀ s'', step s' a ≠ .ok s'') → s'.Stopped) ∧
    ∃ l' s'', (runtime backend).RunVia (fun _ a => a.winds = true) s' l' s'' ∧ s''.Stopped := by
  have hs : Stopping backend s := ⟨h, by simpa [Sys.stopping] using hstop⟩
  obtain ⟨hs', hbound⟩ := (stopping_windsDown backend).bounded hs hrun
  refine ⟨Nat.le_trans (Nat.le_add_right _ _) hbound, fun hstuck => ?_,
    (stopping_windsDown backend).completes hs'⟩
  by_contra hnot
  obtain ⟨a, s'', ha, hstep⟩ := hs'.goesOn hnot
  exact hstuck a ha s'' hstep

/-- One worker runs the main task, the other one polls, and shutdown is requested. -/
def stopRequested : List Action :=
  startUp 2 ++ dispatchOn 0 ++ [.loop 1, .requestShutdown (.external 0) .calm]

/-- The main task yields and is freed, and the worker in the poller is woken. -/
def stopOrder : List Action :=
  [.pollerWake (.external 0), .kernelReturn 1 [.wake], .yield 0, .switchOut 0, .filterBatch 1,
    .rereadShutdown 0, .pollReturn 1 .calm, .cleanup 0, .loop 0, .waitForMain, .joinWorkers]

theorem stopping_ends_two_workers :
    ∃ s s', (runtime .epoll).Reach s ∧ s.shutdownRequested = true ∧
      s.wk.pc 1 = .polling .infinite ∧
      (runtime .epoll).RunVia (fun _ a => a.winds = true) s stopOrder s' ∧
      stopOrder.length ≤ s.work ∧ s'.life = .ranOut := by
  have hreach : (runtime .epoll).Reach ((runtime .epoll).after (small 2) stopRequested) :=
    Machine.reach_after (small_init 2 (by decide)) (by decide)
  have hrun : (runtime .epoll).RunVia (fun _ a => a.winds = true)
      ((runtime .epoll).after (small 2) stopRequested) stopOrder
      ((runtime .epoll).after ((runtime .epoll).after (small 2) stopRequested) stopOrder) :=
    Machine.RunVia.of_run stopOrder
      (by
        intro a ha _
        have hall : stopOrder.all Action.winds = true := by decide
        exact List.all_eq_true.mp hall a ha)
      (Machine.run_eq_after (by decide))
  exact ⟨_, _, hreach, by decide, by decide, hrun,
    (stopping_ends hreach (.inl (by decide)) hrun).1, by decide⟩

end Croutine
