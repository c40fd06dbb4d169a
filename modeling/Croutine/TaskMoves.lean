import Croutine.WorkerMoves

/-!
# The transitions of a task

The record of a task says which call the task is inside and, for a wait on a descriptor, what
it waits for and how the wait ended.  `TaskMove` is the graph of these records: a step either
leaves them alone or takes one of a few edges, each with the action that takes it.
-/

namespace Croutine

/-- Everything that a wait on a descriptor depends on is as before. -/
structure Task.Kept (τ τ' : Task) : Prop where
  frame : τ'.frame = τ.frame
  hasStack : τ'.hasStack = τ.hasStack
  waits : ∀ fd d, τ'.WaitsFor fd d ↔ τ.WaitsFor fd d
  outcome : τ'.ioWakeSuccess = τ.ioWakeSuccess

/-- One move of task `t` in a state. -/
inductive TaskMove (s : Sys) (t : TaskId) : Action → Task → Task → Prop
  | kept {a : Action} {τ τ' : Task} (h : τ.Kept τ') : TaskMove s t a τ τ'
  | born {θ : Thread} {r : SpawnRequest} {τ τ' : Task} (hnew : t = s.nextTask)
      (hframe : τ'.frame = .user) : TaskMove s t (.spawnAlloc θ r) τ τ'
  | parkIo {w : WorkerId} {fd : Int} {d : Filter} {o : Oracle} {τ τ' : Task}
      (hpc : s.wk.pc w = .running t) (hframe : τ.frame = .user) (hcall : τ'.frame = .ioWait)
      (hwaits : τ'.WaitsFor fd d) : TaskMove s t (.waitIo w fd d o) τ τ'
  | enters {a : Action} {w : WorkerId} {τ τ' : Task} (hpc : s.wk.pc w = .running t)
      (ha : a.caller = some (.worker w)) (hframe : τ.frame = .user)
      (hcall : τ'.frame.call ≠ none) : TaskMove s t a τ τ'
  | returns {w : WorkerId} {τ τ' : Task} (hpc : s.wk.pc w = .running t)
      (hframe : τ'.frame = .user) : TaskMove s t (.callReturn w) τ τ'
  | ready {w : WorkerId} {o : Oracle} {events : List PollEvent} {fd : Int} {d : Filter}
      {τ τ' : Task} (hpc : s.wk.pc w = .filtered events) (hann : Announces events fd d)
      (hwaits : τ.WaitsFor fd d) (h : Task.Kept { τ.requeued with ioWakeSuccess := true } τ') :
      TaskMove s t (.pollReturn w o) τ τ'
  | forgotten {θ : Thread} {fd : Int} {d : Filter} {o : Oracle} {τ τ' : Task}
      (hwaits : τ.WaitsFor fd d) (h : Task.Kept { τ.requeued with ioWakeSuccess := false } τ') :
      TaskMove s t (.forgetFd θ fd o) τ τ'
  | freed {a : Action} {τ τ' : Task} (h : τ'.hasStack = false) : TaskMove s t a τ τ'

namespace Task.Kept

variable {τ τ' τ'' : Task}

/-- A task is kept by a step that does not write it. -/
theorem refl (τ : Task) : τ.Kept τ := ⟨rfl, rfl, fun _ _ => Iff.rfl, rfl⟩

theorem trans (h : τ.Kept τ') (h' : τ'.Kept τ'') : τ.Kept τ'' where
  frame := h'.frame.trans h.frame
  hasStack := h'.hasStack.trans h.hasStack
  waits fd d := (h'.waits fd d).trans (h.waits fd d)
  outcome := h'.outcome.trans h.outcome

/-- A task outside an I/O wait changes its scheduling state to another such state. -/
theorem awake (hframe : τ'.frame = τ.frame) (hstack : τ'.hasStack = τ.hasStack)
    (hout : τ'.ioWakeSuccess = τ.ioWakeSuccess) (hold : τ.state ≠ .waitingIo)
    (hnew : τ'.state ≠ .waitingIo) : τ.Kept τ' where
  frame := hframe
  hasStack := hstack
  waits _ _ := ⟨fun hw => absurd hw.1 hnew, fun hw => absurd hw.1 hold⟩
  outcome := hout

/-- One record changes. -/
theorem update {tasks : TaskId → Task} {u : TaskId} (h : (tasks u).Kept τ) (t : TaskId) :
    (tasks t).Kept (Function.update tasks u τ t) := by
  by_cases ht : t = u
  · subst ht
    rw [Function.update_self]
    exact h
  · rw [Function.update_of_ne ht]
    exact refl _

end Task.Kept

/-! ## The scheduler -/

/-- Pushing a task keeps every task. -/
theorem taskQueuePush_kept {o : Oracle} {s s' : Sys} {u : TaskId}
    (h : taskQueuePush o s u = some s') (t : TaskId) : (s.tasks t).Kept (s'.tasks t) := by
  rcases taskQueuePush_some h with ⟨_, rfl⟩ | ⟨_, cap, _, rfl⟩
  · exact .refl _
  · refine .update ?_ t
    exact ⟨rfl, rfl, fun _ _ => Iff.rfl, rfl⟩

/-- The loop body keeps every task. -/
theorem LoopOutcome.kept {w : WorkerId} {checked : Bool} {s s' : Sys}
    (h : LoopOutcome w checked s s') (t : TaskId) : (s.tasks t).Kept (s'.tasks t) := by
  cases h with
  | exit hstop => exact .refl _
  | poll hgo hidle htimeout => exact .refl _
  | dispatch hgo hqueue =>
      refine .update ?_ t
      exact ⟨rfl, rfl, fun _ _ => Iff.rfl, rfl⟩
  | sleep hgo hactive hqueue => exact .refl _

/-- Cleaning a task up keeps all tasks but that one, which loses its stack. -/
theorem cleanupTask_moved {s x : Sys} {a : Action} (hx : x.tasks = s.tasks) (u t : TaskId) :
    TaskMove s t a (s.tasks t) ((cleanupTask x u).tasks t) := by
  by_cases ht : t = u
  · subst ht
    exact .freed (by simp [cleanupTask, Sys.setTask])
  · refine .kept ?_
    have hsame : (cleanupTask x u).tasks t = s.tasks t := by
      rw [← hx]
      exact Function.update_of_ne ht _ _
    rw [hsame]
    exact .refl _

/-- Allocating a task bears the new task and keeps the others. -/
theorem workerSpawnAlloc_moved (s : Sys) (θ : Thread) (r : SpawnRequest) (t : TaskId) :
    TaskMove s t (.spawnAlloc θ r) (s.tasks t) ((workerSpawnAlloc s θ r).tasks t) := by
  rcases workerSpawnAlloc_cases s θ r with heq | ⟨l, _, heq⟩ | heq <;> rw [heq]
  · rw [spawnFailed_eq]
    exact .kept (.refl _)
  · rw [spawnFailed_eq]
    exact .kept (.refl _)
  · by_cases ht : t = s.nextTask
    · refine .born ht ?_
      simp [Sys.setTask, ht]
    · refine .kept ?_
      simp only [Sys.setTask, Function.update_of_ne ht]
      exact .refl _

/-- Publishing a task keeps every task, or cleans up the one that could not be pushed. -/
theorem workerSpawnPublish_moved (o : Oracle) (s : Sys) (θ : Thread) (u t : TaskId) :
    TaskMove s t (.spawnPublish θ u o) (s.tasks t) ((workerSpawnPublish o s θ u).tasks t) := by
  rcases workerSpawnPublish_cases o s θ u with heq | ⟨_, s1, hpush, heq⟩ <;> rw [heq]
  · rw [spawnFailed_eq]
    exact cleanupTask_moved rfl u t
  · exact .kept (taskQueuePush_kept hpush t)

/-- The drain of the scheduler cleans tasks up. -/
theorem workerDeinitDrain_moved {a : Action} (s : Sys) (t : TaskId) :
    TaskMove s t a (s.tasks t) ((workerDeinitDrain s).tasks t) := by
  have hdrain := workerDeinitDrain_induct (R := fun x y =>
    (x.tasks t).Kept (y.tasks t) ∨ (y.tasks t).hasStack = false) (fun x => .inl (.refl _))
    ?_ ?_ ?_ (fun x i => .inl (.refl _)) s
  · rcases hdrain with hk | hf
    · exact .kept hk
    · exact .freed hf
  · intro x y z hxy hyz
    rcases hyz with hk | hf
    · rcases hxy with hk' | hf'
      · exact .inl (hk'.trans hk)
      · exact .inr (hk.hasStack.trans hf')
    · exact .inr hf
  · intro x x1 u hpop
    unfold taskQueuePop at hpop
    split at hpop
    · exact absurd hpop (by simp)
    · obtain ⟨rfl, rfl⟩ := Prod.mk.inj (Option.some.inj hpop)
      refine .inl (.update ?_ t)
      exact ⟨rfl, rfl, fun _ _ => Iff.rfl, rfl⟩
  · intro x u
    by_cases ht : t = u
    · subst ht
      exact .inr (by simp [cleanupTask, Sys.setTask])
    · refine .inl ?_
      have hsame : (cleanupTask x u).tasks t = x.tasks t := Function.update_of_ne ht _ _
      rw [hsame]
      exact .refl _

/-- A delivery ends the wait of the tasks it reports and of no other. -/
theorem Delivered.ends {s s' : Sys} {reported : Int → Filter → Prop} {success : Bool}
    {woken : List TaskId} (h : Delivered s reported success woken s')
    (hagree : IoAgree s.tasks s.io) (t : TaskId) :
    s'.tasks t = s.tasks t ∨ ∃ fd d, reported fd d ∧ (s.tasks t).WaitsFor fd d ∧
      s'.tasks t = { (s.tasks t).requeued with ioWakeSuccess := success } := by
  by_cases ht : t ∈ woken
  · obtain ⟨fd, d, hr, hslot⟩ := (h.mem t).mp ht
    exact .inr ⟨fd, d, hr, (hagree.slots fd d t).mp hslot, h.awake t ht⟩
  · exact .inl (h.kept t ht)

/-- **Scheduler steps.** A scheduler step makes one of the moves on every task. -/
theorem SchedStep.taskMoved {a : Action} {s s' : Sys} (h : SchedStep s a s') (htask : TaskInv s)
    (t : TaskId) : TaskMove s t a (s.tasks t) (s'.tasks t) := by
  cases h with
  | @spawnAlloc θ r hspawn hlife => exact workerSpawnAlloc_moved s θ r t
  | @spawnPublish hlock o θ u hmem => exact workerSpawnPublish_moved o s θ u t
  | @forgetFd hlock o θ fd s1 hint hforget =>
      rcases workerForgetFd_ok hforget with ⟨_, rfl⟩ | ⟨_, s1, n, hwake, rfl⟩
      · exact .kept (.refl _)
      · obtain ⟨_, woken, _, hdel⟩ := htask.wakeIo_delivers hlock hwake
        have hends := hdel.ends htask.agree t
        have hmoved : TaskMove s t (.forgetFd θ fd o) (s.tasks t) (s1.tasks t) := by
          rcases hends with heq | ⟨g, d, ⟨rfl, _⟩, hwaits, heq⟩
          · rw [heq]
            exact .kept (.refl _)
          · rw [heq]
            exact .forgotten hwaits (.refl _)
        split
        · exact hmoved
        · exact hmoved
  | @waitIo hlock o v u fd direction hint hpc hframe =>
      rcases workerParkCurrentOnIo_outcome htask.agree o v u fd (IoEvents.none.put direction true)
        with ⟨io, poller, heq, _⟩ | ⟨_, io, i, e, poller, _, _, _, heq⟩
      · rw [heq]
        exact .kept (.refl _)
      · rw [heq]
        by_cases ht : t = u
        · subst ht
          refine .parkIo hpc hframe ?_ ?_
          · simp [parkOnIo, Sys.setTask, Sys.mapWk]
          · simp [parkOnIo, Sys.setTask, Sys.mapWk, Task.WaitsFor, IoEvents.has_put_none]
        · refine .kept ?_
          simp only [parkOnIo, Sys.setTask, Sys.mapWk, Function.update_of_ne ht]
          exact .refl _
  | @returnIo w u hpc hframe =>
      by_cases ht : t = u
      · subst ht
        exact .returns hpc (by simp [Sys.setTask])
      · refine .kept ?_
        simp only [Sys.setTask, Function.update_of_ne ht]
        exact .refl _
  | @taskReturn w u hpc hframe =>
      have hrun : (s.tasks u).state = .runnable := (htask.fits hpc).1
      refine .kept (.update ?_ t)
      exact .awake rfl rfl rfl (by simp [hrun]) (by simp)
  | switchOut hpc | resume hpc =>
      refine .kept (.update ?_ t)
      exact ⟨rfl, rfl, fun _ _ => Iff.rfl, rfl⟩
  | requeue hlock hpc hrequeue =>
      obtain ⟨s2, hpush, rfl⟩ := requeueTask_ok hrequeue
      exact .kept (taskQueuePush_kept hpush t)
  | @cleanup w u hpc => exact cleanupTask_moved rfl u t
  | loop hlock hpc => exact .kept ((loopBody_outcome _ _ s).kept t)
  | @condReturn hlock v signalled checked hpc =>
      have hout : LoopOutcome v checked _ (leaveCondWait v checked s) := loopBody_outcome ..
      exact .kept (hout.kept t)
  | @pollReturn hlock o w events s1 hpc hpoll =>
      rcases leavePoll_ok hpoll with ⟨_, rfl⟩ | ⟨_, s2, hbatch, hout⟩
      · exact .kept (.refl _)
      · obtain ⟨woken, hdel⟩ := TaskInv.deliver_batch events htask.releasePoller hlock hbatch
        rcases hdel.ends htask.agree t with heq | ⟨fd, d, hann, hwaits, heq⟩
        · refine .kept ?_
          have hkept := hout.kept t
          rw [heq] at hkept
          exact hkept
        · refine .ready hpc hann hwaits ?_
          have hkept := hout.kept t
          rw [heq] at hkept
          exact hkept
  | pollFailed hlock hpc hpoll =>
      obtain ⟨_, rfl⟩ := leavePollError_ok hpoll
      exact .kept (.refl _)
  | deinitDrain hlock hlife => exact workerDeinitDrain_moved s t
  | _ => exact .kept (.refl _)

/-! ## Channel operations -/

/-- A channel operation wakes tasks that wait on channels. -/
theorem Wakes.kept {s s' : Sys} (h : Wakes s s') (t : TaskId) :
    (s.tasks t).Kept (s'.tasks t) := by
  refine Wakes.invariant (I := fun x => (s.tasks t).Kept (x.tasks t)) (fun _ _ hx => hx) ?_ h
    (.refl _)
  intro o x u success x' hx hwake
  obtain ⟨hstate, cap, _, rfl⟩ := workerWakeTaskLocked_some hwake
  refine hx.trans (.update ?_ t)
  exact .awake rfl rfl rfl (by simp [hstate]) (by simp [Task.requeued])

/-- **Channel steps.** A channel step makes one of the moves on every task. -/
theorem ChanEffect.taskMoved {a : Action} {s s' : Sys} (h : ChanEffect s a s') (t : TaskId) :
    TaskMove s t a (s.tasks t) (s'.tasks t) := by
  cases h with
  | wakes hw => exact .kept (hw.kept t)
  | @enters s1 hw w u hpc hframe ha frame hcall =>
      by_cases ht : t = u
      · subst ht
        refine .enters hpc (Action.caller_of_acts ha) hframe ?_
        unfold workerParkCurrentOnChannelLocked
        split
        · simpa [Sys.setTask] using hcall false
        · simpa [Sys.setTask, Sys.mapWk] using hcall true
      · refine .kept ?_
        have hsame : (workerParkCurrentOnChannelLocked s1 w u frame).tasks t = s1.tasks t := by
          unfold workerParkCurrentOnChannelLocked
          split
          · exact Function.update_of_ne ht _ _
          · exact Function.update_of_ne ht _ _
        rw [hsame]
        exact hw.kept t
  | shutdown ha hclose => exact .kept ((croutineChannelShutdownAllLocked_wakes hclose).kept t)
  | @returned w u hpc ha hframe κ =>
      subst ha
      by_cases ht : t = u
      · subst ht
        exact .returns hpc (by simp [Sys.setTask])
      · refine .kept ?_
        simp only [Sys.setTask, Function.update_of_ne ht]
        exact .refl _

/-- **Steps after the end.** What still happens once the scheduler is gone makes one of the
moves on every task. -/
theorem GoneStep.taskMoved {a : Action} {s s' : Sys} (h : GoneStep s s') (t : TaskId) :
    TaskMove s t a (s.tasks t) (s'.tasks t) := by
  cases h with
  | chans κ => exact .kept (.refl _)
  | @publish θ u hmem => exact cleanupTask_moved rfl u t
  | owed θ => exact .kept (.refl _)
  | ready r => exact .kept (.refl _)

/-- **A step moves a task along its graph.** -/
theorem step_taskMoved {backend : Backend} {a : Action} {s s' : Sys}
    (hreach : (runtime backend).Reach s) (h : step s a = .ok s') (t : TaskId) :
    TaskMove s t a (s.tasks t) (s'.tasks t) := by
  by_cases hdown : s.life = .down
  · exact (((IoInv.reach hreach).gone hdown).step (LifeInv.reach hreach) hdown h).taskMoved t
  · rcases step_kind h with hc | hs
    · exact hc.effect.taskMoved t
    · exact hs.taskMoved (TaskInv.reach hreach hdown) t

/-- A worker is not started twice. -/
theorem LifeInv.not_creating {s : Sys} {w : WorkerId} (h : LifeInv s)
    (hw : s.wk.pc w ≠ .notStarted) : s.life ≠ .creating w := by
  intro hl
  have hlt := h.started w hw
  rw [hl] at hlt
  exact Nat.lt_irrefl w hlt

/-- **A task runs on.**  Nothing but its own calls takes a task from its worker. -/
theorem step_running {backend : Backend} {a : Action} {s s' : Sys} {w : WorkerId} {t : TaskId}
    (hreach : (runtime backend).Reach s) (h : step s a = .ok s')
    (hpc : s.wk.pc w = .running t) (ha : a.acts ≠ some (.worker w)) :
    s'.wk.pc w = .running t := by
  have hmoved := step_moved h (IoInv.reach hreach).agree w
  unfold Moved at hmoved
  rw [hpc] at hmoved
  rcases hmoved with heq | heq | hmove
  · exact heq
  · exact heq
  · generalize s'.wk.pc w = p at hmove ⊢
    cases hmove with
    | start hlife => exact absurd hlife ((LifeInv.reach hreach).not_creating (by simp [hpc]))
    | parkIo | yield | returns | returnsMain => exact absurd rfl ha
    | parkChannel hacts => exact absurd hacts ha

/-- The task that worker 0 parked on descriptor 5 is woken and resumed by worker 1. -/
def resumedElsewhere : List Action :=
  handOver 0 ++ [.setReady 5 { EpollMask.empty with input := true }, .loop 1,
    .kernelReturn 1 [.epoll 5 { EpollMask.empty with input := true }], .filterBatch 1,
    .pollReturn 1 .calm, .resume 1]

end Croutine
