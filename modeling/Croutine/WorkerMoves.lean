import Croutine.PollerRuns

/-!
# The transitions of a worker

A step of the runtime moves at most one worker.  Every other worker stays where it is, apart
from a signal that unblocks it.  `WorkerMove` is the graph of the points a worker goes
through, each edge with the action that takes it.
-/

namespace Croutine

/-- The thread whose call an action is a step of. -/
def Action.caller : Action → Option Thread
  | .channelCreate θ _ _ _ | .channelDestroy θ _ | .channelSend θ _ _ _ | .channelTrySend θ _ _ _
  | .channelRecv θ _ _ _ | .channelTryRecv θ _ _ _ | .channelClose θ _ _ | .select θ _ _ _ _
  | .userWrite θ _ _ | .spawnAlloc θ _ | .spawnPublish θ _ _ | .forgetFd θ _ _
  | .requestShutdown θ _ | .pollerWake θ => some θ
  | .waitIo w _ _ _ | .yield w | .callReturn w | .taskReturn w => some (.worker w)
  | _ => none

/-- The thread that begins a call with the action, out of user code. -/
def Action.acts : Action → Option Thread
  | .channelCreate θ _ _ _ | .channelDestroy θ _ | .channelSend θ _ _ _ | .channelTrySend θ _ _ _
  | .channelRecv θ _ _ _ | .channelTryRecv θ _ _ _ | .channelClose θ _ _ | .select θ _ _ _ _
  | .userWrite θ _ _ | .forgetFd θ _ _ | .requestShutdown θ _ => some θ
  | .spawnAlloc θ r => if r.isMain then none else some θ
  | .waitIo w _ _ _ | .yield w | .taskReturn w => some (.worker w)
  | _ => none

/-- Who acts in an action is its caller. -/
theorem Action.caller_of_acts {a : Action} {θ : Thread} (h : a.acts = some θ) :
    a.caller = some θ := by
  cases a with
  | spawnAlloc θ' r =>
      simp only [Action.acts] at h
      split at h
      · exact absurd h (by simp)
      · exact h
  | _ => first | exact h | exact absurd h (by simp [Action.acts])

/-- Where the scheduling loop leaves a worker. -/
inductive Scheduled (checked : Bool) : Pc → Prop
  | exits : Scheduled checked .exited
  | polls (timeout : Timeout) : Scheduled checked (.polling timeout)
  | dispatches (t : TaskId) : Scheduled checked (.dispatched t)
  | sleeps : Scheduled checked (.condWait false checked)

/-- One move of worker `w` in a state. -/
inductive WorkerMove (s : Sys) (w : WorkerId) : Action → Pc → Pc → Prop
  | start (hlife : s.life = .creating w) {p : Pc} : WorkerMove s w .createWorker p (.top false)
  | loop {checked : Bool} {p : Pc} (h : Scheduled checked p) :
      WorkerMove s w (.loop w) (.top checked) p
  | wakeUp {signalled checked : Bool} {p : Pc} (h : Scheduled checked p) :
      WorkerMove s w (.condReturn w) (.condWait signalled checked) p
  | kernelReturn {timeout : Timeout} {batch : List Reported} {raw : List RawEvent} :
      WorkerMove s w (.kernelReturn w batch) (.polling timeout) (.polled raw)
  | kernelError {timeout : Timeout} : WorkerMove s w (.kernelError w) (.polling timeout) .pollError
  | filterBatch {raw : List RawEvent} {events : List PollEvent} :
      WorkerMove s w (.filterBatch w) (.polled raw) (.filtered events)
  | pollReturn {o : Oracle} {events : List PollEvent} {p : Pc} (h : Scheduled true p) :
      WorkerMove s w (.pollReturn w o) (.filtered events) p
  | pollFailed {o : Oracle} : WorkerMove s w (.pollReturn w o) .pollError .exited
  | resume {t : TaskId} : WorkerMove s w (.resume w) (.dispatched t) (.running t)
  | parkIo {o : Oracle} {t : TaskId} {fd : Int} {direction : Filter} :
      WorkerMove s w (.waitIo w fd direction o) (.running t) (.switching t .waitingIo)
  | parkChannel {a : Action} {t : TaskId} (ha : a.acts = some (.worker w)) :
      WorkerMove s w a (.running t) (.switching t .waitingChannel)
  | yield {t : TaskId} : WorkerMove s w (.yield w) (.running t) (.switching t .runnable)
  | returns {t : TaskId} : WorkerMove s w (.taskReturn w) (.running t) (.switching t .finished)
  | returnsMain {t : TaskId} : WorkerMove s w (.taskReturn w) (.running t) (.finishMain t)
  | finishMain {t : TaskId} : WorkerMove s w (.finishMain w) (.finishMain t) (.finishSched t)
  | finishSched {t : TaskId} :
      WorkerMove s w (.finishSched w) (.finishSched t) (.switching t .finished)
  | switchOut {t : TaskId} {st : TaskState} :
      WorkerMove s w (.switchOut w) (.switching t st)
        (if st.waiting then .returned t st else .reread t st)
  | release {t : TaskId} {st : TaskState} :
      WorkerMove s w (.release w) (.returned t st) (.reread t st)
  | reread {t : TaskId} {st : TaskState} :
      WorkerMove s w (.rereadShutdown w) (.reread t st) (afterReread s t st)
  | requeue {o : Oracle} {t : TaskId} : WorkerMove s w (.requeue w o) (.requeue t) (.top false)
  | cleanup {t : TaskId} : WorkerMove s w (.cleanup w) (.cleanup t) (.top false)

/-- What a step does to a worker. -/
def Moved (s : Sys) (a : Action) (s' : Sys) (w : WorkerId) : Prop :=
  s'.wk.pc w = s.wk.pc w ∨ s'.wk.pc w = (s.wk.pc w).signal ∨
    WorkerMove s w a (s.wk.pc w) (s'.wk.pc w)

/-! ## The scheduler -/

/-- A step that leaves the workers alone moves none of them. -/
theorem Moved.same {s s' : Sys} {a : Action} (h : s'.wk = s.wk) (w : WorkerId) :
    Moved s a s' w :=
  .inl (by rw [h])

/-- A step that only signals moves no worker but out of the condition wait. -/
theorem Moved.of_signals {s s' : Sys} {a : Action} (h : Signals s.wk s'.wk) (w : WorkerId) :
    Moved s a s' w :=
  (h w).imp id .inl

/-- One worker goes on, after signals. -/
theorem Moved.update {s s' : Sys} {a : Action} {wk : Workers} {v : WorkerId} {p p' : Pc}
    (hsig : Signals s.wk wk) (hpc' : s'.wk.pc = Function.update wk.pc v p')
    (hpc : s.wk.pc v = p) (hmove : WorkerMove s v a p p') (w : WorkerId) : Moved s a s' w := by
  unfold Moved
  rw [hpc']
  by_cases hw : w = v
  · subst hw
    rw [Function.update_self, hpc]
    exact .inr (.inr hmove)
  · rw [Function.update_of_ne hw]
    exact (hsig w).imp id .inl

theorem Signals.refl (wk : Workers) : Signals wk wk := fun _ => .inl rfl

/-- An iteration of the scheduling loop after signals. -/
theorem LoopOutcome.moved {s s1 s' : Sys} {a : Action} {v : WorkerId} {checked : Bool} {p : Pc}
    (h : LoopOutcome v checked s1 s') (hsig : Signals s.wk s1.wk) (hpc : s.wk.pc v = p)
    (hmove : ∀ {p'}, Scheduled checked p' → WorkerMove s v a p p') (w : WorkerId) :
    Moved s a s' w := by
  cases h with
  | exit hstop => exact .update hsig rfl hpc (hmove .exits) w
  | poll hgo hidle htimeout => exact .update hsig rfl hpc (hmove (.polls _)) w
  | dispatch hgo hqueue => exact .update hsig rfl hpc (hmove (.dispatches _)) w
  | sleep hgo hactive hqueue => exact .update hsig rfl hpc (hmove .sleeps) w

/-- The first half of a spawn leaves the workers alone. -/
theorem workerSpawnAlloc_wk (s : Sys) (θ : Thread) (r : SpawnRequest) :
    (workerSpawnAlloc s θ r).wk = s.wk := by
  rcases workerSpawnAlloc_cases s θ r with heq | ⟨l, _, heq⟩ | heq <;> rw [heq]
  · rw [spawnFailed_eq]
  · rw [spawnFailed_eq]; rfl
  · rfl

/-- Queueing a task leaves the workers alone. -/
theorem taskQueuePush_wk {o : Oracle} {s s' : Sys} {t : TaskId}
    (h : taskQueuePush o s t = some s') : s'.wk = s.wk := by
  rcases taskQueuePush_some h with ⟨_, rfl⟩ | ⟨_, cap, _, rfl⟩ <;> rfl

/-- The second half of a spawn only signals. -/
theorem workerSpawnPublish_signals (o : Oracle) (s : Sys) (θ : Thread) (t : TaskId) :
    Signals s.wk (workerSpawnPublish o s θ t).wk := by
  rcases workerSpawnPublish_cases o s θ t with heq | ⟨_, s1, hpush, heq⟩ <;> rw [heq]
  · rw [spawnFailed_eq]
    exact .refl _
  · have hsig := published_signals s1 o θ t (s.tasks t).isMain
    rwa [taskQueuePush_wk hpush] at hsig

/-- Waking the tasks of a batch of events only signals. -/
theorem pollBatch_signals {o : Oracle} {events : List PollEvent} {s s' : Sys}
    (h : events.foldlM (applyPollEvent o) s = .ok s') : Signals s.wk s'.wk := by
  refine Res.foldlM_induct (I := fun x => Signals s.wk x.wk) ?_ events (.refl _) h
  intro x e x' hx hstep
  obtain ⟨n, hwake⟩ := applyPollEvent_ok hstep
  exact hx.trans (wakeWaitingTasksLocked_woke hwake).signals

/-- **A step of the scheduler moves the worker it is a step of**, and signals the others at
most. -/
theorem SchedStep.moved {a : Action} {s s' : Sys} (h : SchedStep s a s')
    (hagree : IoAgree s.tasks s.io) (w : WorkerId) : Moved s a s' w := by
  cases h with
  | @spawnAlloc θ r hspawn hlife => exact .same (workerSpawnAlloc_wk s θ r) w
  | @spawnPublish hlock o θ t hmem => exact .of_signals (workerSpawnPublish_signals o s θ t) w
  | forgetFd hlock hint hforget =>
      rcases workerForgetFd_ok hforget with ⟨_, rfl⟩ | ⟨_, s1, n, hwake, rfl⟩
      · exact .same rfl w
      · have hsig := (wakeWaitingTasksLocked_woke hwake).signals
        split
        · exact .of_signals hsig w
        · exact .of_signals hsig w
  | @waitIo hlock o v t fd direction hint hpc hframe =>
      rcases workerParkCurrentOnIo_outcome hagree o v t fd (IoEvents.none.put direction true) with
        ⟨io, poller, heq, _⟩ | ⟨_, io, i, e, poller, _, _, _, heq⟩
      · rw [heq]
        exact .inl rfl
      · rw [heq]
        exact .update (.refl s.wk) rfl hpc .parkIo w
  | yield hpc hframe => exact .update (.refl s.wk) rfl hpc .yield w
  | taskReturn hpc hframe =>
      refine .update (.refl s.wk) rfl hpc ?_ w
      split
      · exact .returnsMain
      · exact .returns
  | finishMain hpc => exact .update (.refl s.wk) rfl hpc .finishMain w
  | finishSched hlock hpc => exact .update (.condBroadcast s.wk) rfl hpc .finishSched w
  | switchOut hpc => exact .update (.refl s.wk) rfl hpc .switchOut w
  | release hpc => exact .update (.refl s.wk) rfl hpc .release w
  | reread hlock hpc => exact .update (.refl s.wk) rfl hpc .reread w
  | @requeue hlock o v t s1 hpc hrequeue =>
      obtain ⟨s2, hpush, rfl⟩ := requeueTask_ok hrequeue
      have hsig : Signals s.wk (s2.wk.condSignal o.pick) := by
        rw [taskQueuePush_wk hpush]
        exact .condSignal o.pick s.wk
      exact .update hsig rfl hpc .requeue w
  | cleanup hpc => exact .update (.refl s.wk) rfl hpc .cleanup w
  | loop hlock hpc => exact (loopBody_outcome _ _ s).moved (.refl s.wk) hpc .loop w
  | @condReturn hlock v signalled checked hpc =>
      have hout : LoopOutcome v checked _ (leaveCondWait v checked s) := loopBody_outcome ..
      exact hout.moved (s := s) (fun _ => .inl rfl) hpc .wakeUp w
  | kernelReturn hpc hbatch => exact .update (.refl s.wk) rfl hpc .kernelReturn w
  | kernelError hpc => exact .update (.refl s.wk) rfl hpc .kernelError w
  | filterBatch hpc => exact .update (.refl s.wk) rfl hpc .filterBatch w
  | pollReturn hlock hpc hpoll =>
      have hrelease := Signals.condBroadcast s.wk
      rcases leavePoll_ok hpoll with ⟨_, rfl⟩ | ⟨_, s2, hbatch, hout⟩
      · exact .update hrelease rfl hpc (.pollReturn .exits) w
      · exact hout.moved (hrelease.trans (pollBatch_signals hbatch)) hpc .pollReturn w
  | pollFailed hlock hpc hpoll =>
      obtain ⟨_, rfl⟩ := leavePollError_ok hpoll
      exact .update (.condBroadcast s.wk) rfl hpc .pollFailed w
  | resume hpc => exact .update (.refl s.wk) rfl hpc .resume w
  | createWorker hlife hk howes => exact .update (.refl s.wk) rfl rfl (.start hlife) w
  | deinitDrain hlock hlife =>
      refine .same ?_ w
      show (workerDeinitDrain s).wk = s.wk
      rw [(DrainFrame.deinit s).eq]
  | _ => exact .inl rfl

/-! ## Channel operations -/

/-- A channel step as the scheduler sees it, with the worker that makes it. -/
inductive ChanEffect (s : Sys) (a : Action) : Sys → Prop
  | wakes {s' : Sys} (h : Wakes s s') : ChanEffect s a s'
  | enters {s1 : Sys} (h : Wakes s s1) {w : WorkerId} {t : TaskId}
      (hpc : s.wk.pc w = .running t) (hframe : (s.tasks t).frame = .user)
      (ha : a.acts = some (.worker w)) {frame : Bool → Frame}
      (hcall : ∀ parked, (frame parked).call ≠ none) :
      ChanEffect s a (workerParkCurrentOnChannelLocked s1 w t frame)
  | shutdown (ha : a.requestsShutdown = true) {o : Oracle} {θ : Thread} {s1 : Sys}
      {life : Lifecycle}
      (h : croutineChannelShutdownAllLocked o { s with shutdownRequested := true } = .ok s1) :
      ChanEffect s a { s1 with
        wk := s1.wk.condBroadcast.owe θ, mainFinished := true, life := life }
  | returned {w : WorkerId} {t : TaskId} (hpc : s.wk.pc w = .running t)
      (ha : a = .callReturn w) (hframe : (s.tasks t).frame.call ≠ none) (κ : Chans) :
      ChanEffect s a { s.setTask t { s.tasks t with frame := .user } with ch := κ }

/-- What a channel step does to the workers. -/
theorem ChanStep.effect {P : List SelectCase → Prop} {a : Action} {s s' : Sys}
    (h : ChanStep P s a s') : ChanEffect s a s' := by
  cases h with
  | userWrite a bs => exact .wakes (.chans s _)
  | create hlock => exact .wakes (.chans s _)
  | destroy hlock hc => exact .wakes (.chans s _)
  | selectEmpty hlock => exact .wakes (.chans s _)
  | trySend hlock hc h => exact .wakes (s.wakes_ticked.trans h.wakes)
  | tryRecv hlock hc h => exact .wakes (s.wakes_ticked.trans h.wakes)
  | sendReturn hlock hc h htask => exact .wakes (Wakes.thenChans (s.wakes_ticked.trans h.wakes) _)
  | recvReturn hlock hc h htask => exact .wakes (Wakes.thenChans (s.wakes_ticked.trans h.wakes) _)
  | close hlock hc h => exact .wakes (channelCloseLocked_wakes h)
  | shutdown hlock ha hlife h => exact .shutdown ha h
  | selectFired hlock hP hreg h | selectDefault hlock hP hreg h hwhy =>
      exact .wakes (Wakes.thenChans (s.wakes_ticked.trans (selectTryCases_wakes h)) _)
  | sendPark hlock hc h hpc hframe | recvPark hlock hc h hpc hframe =>
      exact .enters (Wakes.thenChans (s.wakes_ticked.trans h.wakes) _) hpc hframe rfl
        fun parked => by simp [Frame.call]
  | @selectPark hlock hasDefault o choice cases s1 w t hP hreg h hsome hpc hact =>
      have hwakes : Wakes s s1 := s.wakes_ticked.trans (selectTryCases_wakes h)
      obtain ⟨hpc', hframe⟩ := Sys.canAct_running hact hwakes hpc
      exact .enters (hwakes.thenChans _) hpc' hframe rfl fun parked => by simp [Frame.call]
  | returnSingle hpc hframe hlock | returnSelect hpc hframe hlock =>
      exact .returned hpc rfl (by simp [hframe, Frame.call]) _

/-- A channel step moves the worker that parks, and signals the others at most. -/
theorem ChanEffect.moved {a : Action} {s s' : Sys} (h : ChanEffect s a s') (w : WorkerId) :
    Moved s a s' w := by
  cases h with
  | wakes hw => exact .of_signals hw.signals w
  | enters hw hpc hframe ha hcall =>
      unfold workerParkCurrentOnChannelLocked
      split
      · exact .of_signals hw.signals w
      · exact .update hw.signals rfl hpc (.parkChannel ha) w
  | @shutdown ha o θ s1 life hclose =>
      have hsig : Signals s.wk s1.wk.condBroadcast :=
        (croutineChannelShutdownAllLocked_wakes hclose).signals.trans (.condBroadcast s1.wk)
      exact (hsig w).imp id .inl
  | returned hpc ha hframe κ => exact .inl rfl

/-- **A step moves one worker along its graph** and leaves the others where they are. -/
theorem step_moved {a : Action} {s s' : Sys} (h : step s a = .ok s')
    (hagree : IoAgree s.tasks s.io) (w : WorkerId) : Moved s a s' w := by
  rcases step_kind h with hc | hs
  · exact hc.effect.moved w
  · exact hs.moved hagree w

end Croutine
