import Croutine.NoSpin
import Croutine.KqueueBatch

/-!
# Why the runtime aborts

`worker_fail` is called where a function cannot undo what it has begun: a task that was taken
out of a wait structure and does not fit into the run queue, a poller that does not take a
change of interest, a wait that fails.  In no run does the runtime bring itself into such a
state.  When the environment grants the memory and the changes of interest that a step asks
for, the step aborts only if the kernel's wait failed or a select has no case and no default.
-/

namespace Croutine

/-! ## The poller takes every change that is not refused -/

/-- What the two back ends keep about their registrations. -/
def Poller.Kept : Backend → Poller → Prop
  | .epoll, p => pollerCalls.Reach p
  | .kqueue, p => p.backend = .kqueue

/-- A change of the poller keeps what its back end says about registrations. -/
theorem Poller.Kept.change {backend : Backend} {p q : Poller} (hchange : PollerChange p q)
    (h : p.Kept backend) : q.Kept backend := by
  cases backend with
  | epoll => exact hchange.calls h
  | kqueue => exact hchange.backend.trans h

/-- As long as the scheduler exists its poller keeps what its back end says. -/
theorem Poller.Kept.reach {backend : Backend} {allowed : Sys → Action → Prop} {s : Sys}
    (h : (runtime backend).ReachVia allowed s) (hlife : s.life ≠ .down) :
    s.poller.Kept backend := by
  cases backend with
  | epoll => exact pollerCalls_reach h hlife
  | kqueue => exact backend_reach h hlife

/-- The requests of a step that the environment can turn down, each with its answer: memory
for the run queue, at its present size or after some doublings, and a change of the interest
in a descriptor on which a task waits, in the words of the back end. -/
inductive Refuses (s : Sys) (o : Oracle) : Backend → Prop
  | memory {backend : Backend} (k : Nat) (hno : o.grow (s.runq.capacity * 2 ^ k) = false) :
      Refuses s o backend
  | ctl {fd : Int} (hwaits : ∃ t d, (s.tasks t).WaitsFor fd d) {old new : IoEvents}
      (hno : o.poller.ctlOk fd old new = false) : Refuses s o .epoll
  | filter {fd : Int} (hwaits : ∃ t d, (s.tasks t).WaitsFor fd d) {d : Filter} {enable : Bool}
      (hno : o.poller.filterOk fd d enable = false) : Refuses s o .kqueue

namespace Refuses

variable {backend : Backend} {s s' : Sys} {o : Oracle}

/-- What is refused after some wakes could be refused before them. -/
theorem before (hcap : Doubled s.runq.capacity s'.runq.capacity)
    (hwaits : ∀ t fd d, (s'.tasks t).WaitsFor fd d → (s.tasks t).WaitsFor fd d)
    (h : Refuses s' o backend) : Refuses s o backend := by
  cases h with
  | memory k hno =>
      obtain ⟨i, hi⟩ := hcap
      rw [hi, Nat.mul_assoc, ← Nat.pow_add] at hno
      exact .memory (i + k) hno
  | ctl hw hno =>
      obtain ⟨t, d, hw⟩ := hw
      exact .ctl ⟨t, d, hwaits t _ d hw⟩ hno
  | filter hw hno =>
      obtain ⟨t, d, hw⟩ := hw
      exact .filter ⟨t, d, hwaits t _ d hw⟩ hno

/-- If nothing was refused the run queue may grow. -/
theorem growsFrom (h : ¬Refuses s o backend) : o.GrowsFrom s.runq.capacity :=
  fun k => Bool.eq_true_of_not_eq_false fun hno => h (.memory k hno)

/-- The poller takes the changes of an awaited descriptor. -/
theorem adjusts {p : Poller} {fd : Int} (h : ¬Refuses s o backend) (hkept : p.Kept backend)
    (hwaits : ∃ t d, (s.tasks t).WaitsFor fd d) : Adjusts o.poller p fd := by
  cases backend with
  | epoll =>
      exact (Filed.reach hkept).adjusts fun _ _ =>
        Bool.eq_true_of_not_eq_false fun hno => h (.ctl hwaits hno)
  | kqueue =>
      exact kqueue_adjusts hkept fun _ _ =>
        Bool.eq_true_of_not_eq_false fun hno => h (.filter hwaits hno)

end Refuses

/-- What a wake of the tasks of a descriptor needs to get through. -/
structure Serves (backend : Backend) (o : Oracle) (s : Sys) : Prop where
  tasks : TaskInv s
  lock : s.wk.lock = none
  ring : 0 < s.runq.capacity
  poller : s.poller.Kept backend
  granted : ¬Refuses s o backend

/-- A wake gets through, and so does the next one. -/
theorem Serves.wakeIo {backend : Backend} {o : Oracle} {s : Sys} (h : Serves backend o s)
    (fd : Int) (ready : IoEvents) (success : Bool) (period : Nat) :
    ∃ s' n, wakeWaitingTasksLocked o s fd ready success period = .ok (s', n) ∧
      Serves backend o s' := by
  obtain ⟨s', n, hwake⟩ : ∃ s' n,
      wakeWaitingTasksLocked o s fd ready success period = .ok (s', n) :=
    h.tasks.wakeIo_returns (Refuses.growsFrom h.granted) h.ring
      (Refuses.adjusts h.granted h.poller) ready success period
  have hdoubled := wakeWaitingTasksLocked_doubled hwake
  obtain ⟨htasks, woken, _, hdelivered⟩ := h.tasks.wakeIo_delivers h.lock hwake
  refine ⟨s', n, hwake, htasks, (wakeWaitingTasksLocked_woke hwake).fields.2.1.trans h.lock,
    hdoubled.pos h.ring, ?_, fun hno =>
      h.granted (hno.before hdoubled fun _ _ _ => hdelivered.waits)⟩
  exact PollerChanges.invariant (fun _ _ hchange => Poller.Kept.change hchange)
    (h.tasks.wakeIo_changes hwake) h.poller

/-- The wakes of a batch get through. -/
theorem Serves.batch {backend : Backend} {o : Oracle} {s : Sys} (h : Serves backend o s)
    (events : List PollEvent) : ∃ s', events.foldlM (applyPollEvent o) s = .ok s' := by
  have hstep : ∀ (x : Sys) (e : PollEvent), Serves backend o x →
      ∃ x', applyPollEvent o x e = .ok x' ∧ Serves backend o x' := by
    intro x e hx
    obtain ⟨x', n, hwake, hx'⟩ := hx.wakeIo e.fd e.events true e.period
    exact ⟨x', Res.bind_ok.mpr ⟨_, hwake, rfl⟩, hx'⟩
  obtain ⟨s', hs', _⟩ := Res.foldlM_returns hstep events h
  exact ⟨s', hs'⟩

/-! ## Every step -/

/-- The two aborts that no grant prevents. -/
inductive Fatal (s : Sys) : Action → String → Prop
  | poll {w : WorkerId} {o : Oracle} (hpc : s.wk.pc w = .pollError) (hgo : s.stopping = false) :
      Fatal s (.pollReturn w o) "Poller wait failed"
  | select {θ : Thread} {choice : SelectChoice} {o : Oracle} :
      Fatal s (.select θ [] false choice o) "croutine_select: no cases and no default arm"

variable {backend : Backend} {s : Sys} {a : Action} {m : String}

/-- `worker_forget_fd` does not abort unless something was refused. -/
theorem workerForgetFd_avoids {o : Oracle} {θ : Thread} {fd : Int}
    (h : (runtime backend).Reach s) (hlock : s.wk.lock = none) (ho : ¬Refuses s o backend) :
    (workerForgetFd o s θ fd).Avoids [m] := by
  by_cases hdown : s.life = .down
  · -- the table is gone
    have hgone := (IoInv.reach h).gone hdown
    unfold workerForgetFd wakeWaitingTasksLocked
    rw [hgone.io]
    split
    · exact .ok _
    · exact .ok _
  · have hserves : Serves backend o s := ⟨TaskInv.reach h hdown, hlock, ring_reach h hdown,
      .reach h hdown, ho⟩
    unfold workerForgetFd
    split
    · exact .ok _
    · obtain ⟨s1, n, hwake, _⟩ := hserves.wakeIo fd .all false 0
      exact .bind (.of_returns ⟨_, hwake⟩) fun _ _ => .ok _

/-- A worker that comes back from its poll does not abort unless something was refused. -/
theorem leavePoll_avoids {o : Oracle} {w : WorkerId} {events : List PollEvent}
    (h : (runtime backend).Reach s) (hpc : s.wk.pc w = .filtered events)
    (hlock : s.wk.lock = none) (ho : ¬Refuses s o backend) :
    (leavePoll o w events s).Avoids [m] := by
  have hdown : s.life ≠ .down := fun hdown => (LifeInv.reach h).down_dead hdown hpc rfl
  have hsame : Refuses (releasePoller s) o backend → Refuses s o backend :=
    Refuses.before (.refl _) fun _ _ _ hw => hw
  have hserves : Serves backend o (releasePoller s) :=
    ⟨(TaskInv.reach h hdown).releasePoller, hlock, ring_reach (s := s) h hdown,
      Poller.Kept.reach (s := s) h hdown, fun hno => ho (hsame hno)⟩
  unfold leavePoll
  dsimp only
  split
  · exact .ok _
  · exact .bind (.of_returns (hserves.batch events)) fun _ _ => .ok _

/-- A worker whose poll failed aborts only with the message of a failed poll. -/
theorem leavePollError_avoids {o : Oracle} {w : WorkerId} (hpc : s.wk.pc w = .pollError)
    (hnot : ¬Fatal s (.pollReturn w o) m) : (leavePollError w s).Avoids [m] := by
  unfold leavePollError
  dsimp only
  split
  · exact .ok _
  · next hgo =>
    refine .abort fun hm => hnot ?_
    rw [← List.mem_singleton.mp hm]
    exact .poll hpc (Bool.eq_false_of_not_eq_true hgo)

/-- Putting a task back does not abort unless memory was refused. -/
theorem requeueTask_avoids {o : Oracle} {w : WorkerId} {t : TaskId}
    (h : (runtime backend).Reach s) (hpc : s.wk.pc w = .requeue t) (ho : ¬Refuses s o backend) :
    (requeueTask o w t s).Avoids [m] := by
  have hdown : s.life ≠ .down := fun hdown => (LifeInv.reach h).down_dead hdown hpc rfl
  obtain ⟨s1, hs1⟩ := taskQueuePush_total (ring_reach h hdown) (Refuses.growsFrom ho) t
  unfold requeueTask
  rw [hs1]
  exact .ok _

/-- A select aborts only when it has no case and no default, with its own message. -/
theorem Wakeable.select_avoids {o : Oracle} (h : Wakeable o s) {choice : SelectChoice} {θ : Thread}
    {cases : List SelectCase} {hasDefault : Bool}
    (hnot : ¬Fatal s (.select θ cases hasDefault choice o) m) :
    (Croutine.croutineSelect o choice s θ cases hasDefault).Avoids [m] := by
  unfold Croutine.croutineSelect
  dsimp only
  split
  · next hempty =>
    split
    · exact .ok _
    · next hdefault =>
      refine .abort fun hm => hnot ?_
      rw [← List.mem_singleton.mp hm, List.isEmpty_iff.mp hempty,
        Bool.eq_false_of_not_eq_true hdefault]
      exact .select
  · obtain ⟨⟨s1, fired⟩, hs1⟩ := h.ticked.selectTryCases s.ch.clock cases
      (selectOrder choice cases.length)
    rw [show s.mapCh Chans.tick = s.ticked from rfl, hs1]
    simp only [bind, Except.bind]
    split
    · exact .ok _
    · split
      · exact .ok _
      · exact .ok _
    · exact .ok _

/-- **An abort has a cause.**  In every run, a step that stops in `worker_fail` was refused
memory for the run queue or a change of the interest in a descriptor on which a task waits,
or it comes back from a wait that failed, or it is a select without cases and without a
default. -/
theorem abort_has_cause (h : ThoroughRun backend s) (habort : step s a = .error (.abort m)) :
    (∃ o, a.oracle = some o ∧ Refuses s o backend) ∨ Fatal s a m := by
  have hreach : (runtime backend).Reach s := h.reach
  by_contra hnot
  rw [not_or] at hnot
  have hgrants : ∀ o, a.oracle = some o → ¬Refuses s o backend :=
    fun o ho hrefuses => hnot.1 ⟨o, ho, hrefuses⟩
  have hwake : ∀ o, a.oracle = some o → Wakeable o s :=
    fun o ho => h.wakeable (Refuses.growsFrom (hgrants o ho))
  have hguard : ∀ {α : Type} (b : Bool) {f : Unit → Res α}, (b = true → (f ()).Avoids [m]) →
      (Res.require b >>= f).Avoids [m] := by
    intro α b f hf
    refine .bind (.require b) fun u hu => hf ?_
    simpa using hu
  have hdown : ∀ {o : Oracle} {θ : Thread} {f : Sys → Sys}, a.oracle = some o →
      (do let x ← workerRequestShutdown o s θ; return f x : Res Sys).Avoids [m] :=
    fun ho => .bind (.of_returns ((hwake _ ho).workerRequestShutdown _)) fun _ _ => .ok _
  suffices havoids : (step s a).Avoids [m] from havoids m (List.mem_singleton_self m) habort
  cases a with
  | channelSend θ c value o =>
      exact hguard _ fun _ => .of_returns ((hwake o rfl).croutineChannelSend _ _ _)
  | channelTrySend θ c value o =>
      exact hguard _ fun _ => .of_returns ((hwake o rfl).croutineChannelTrySend _ _)
  | channelRecv θ c out o =>
      exact hguard _ fun _ => .of_returns ((hwake o rfl).croutineChannelRecv _ _ _)
  | channelTryRecv θ c out o =>
      exact hguard _ fun _ => .of_returns ((hwake o rfl).croutineChannelTryRecv _ _)
  | channelClose θ c o =>
      exact hguard _ fun _ => .of_returns ((hwake o rfl).channelCloseLocked _)
  | select θ cases hasDefault choice o =>
      exact hguard _ fun _ => (hwake o rfl).select_avoids hnot.2
  | requestShutdown θ o =>
      exact hguard _ fun _ => .of_returns ((hwake o rfl).workerRequestShutdown _)
  | workersAllocFail o | shutdownCall o => exact hguard _ fun _ => hdown rfl
  | createWorkerFail o =>
      unfold step
      dsimp only
      split
      · exact hguard _ fun _ => hdown rfl
      · exact .disabled
  | forgetFd θ fd o =>
      refine hguard _ fun hguards => ?_
      simp only [Bool.and_eq_true, Sys.lockFree_iff] at hguards
      exact workerForgetFd_avoids hreach hguards.1.2 (hgrants o rfl)
  | pollReturn w o =>
      refine hguard _ fun hfree => ?_
      rw [Sys.lockFree_iff] at hfree
      cases hpc : s.wk.pc w with
      | filtered events => exact leavePoll_avoids hreach hpc hfree (hgrants o rfl)
      | pollError => exact leavePollError_avoids hpc hnot.2
      | _ => exact .disabled
  | requeue w o =>
      refine hguard _ fun _ => ?_
      cases hpc : s.wk.pc w with
      | requeue t => exact requeueTask_avoids hreach hpc (hgrants o rfl)
      | _ => exact .disabled
  | channelCreate θ elemSize capacity allocOk | channelDestroy θ c | userWrite θ a bs
  | spawnAlloc θ r | spawnPublish θ t o | pollerWake θ | runtimeInit | runCall | waitForMain
  | joinWorkers | deinitDrain | deinitClose => exact hguard _ fun _ => .ok _
  | waitIo w fd direction o | yield w | taskReturn w | finishSched w | switchOut w
  | rereadShutdown w | loop w | condReturn w =>
      refine hguard _ fun _ => ?_
      split
      · exact .ok _
      · exact .disabled
  | finishMain w | release w | cleanup w | kernelError w | filterBatch w | resume w =>
      unfold step
      dsimp only
      split
      · exact .ok _
      · exact .disabled
  | setReady fd mask => exact .ok _
  | createWorker =>
      unfold step
      dsimp only
      split
      · exact hguard _ fun _ => .ok _
      · exact .disabled
  | kernelReturn w batch =>
      unfold step
      dsimp only
      split
      · split
        · exact .ok _
        · exact .disabled
      · exact .disabled
  | callReturn w =>
      unfold step
      dsimp only
      split
      · unfold callReturn
        dsimp only
        split
        · exact .disabled
        · exact .ok _
        · exact hguard _ fun _ => .ok _
        · exact hguard _ fun _ => .ok _
      · exact .disabled

/-- A worker polls, and its wait fails. -/
def waitFails : List Action :=
  startUp 1 ++ dispatchOn 0 ++
    [.yield 0, .switchOut 0, .rereadShutdown 0, .requeue 0 .calm, .loop 0, .kernelError 0]

theorem abort_has_cause_wait :
    ∃ s, ThoroughRun .epoll s ∧
      step s (.pollReturn 0 .calm) = .error (.abort "Poller wait failed") ∧
      s.wk.pc 0 = .pollError ∧ Fatal s (.pollReturn 0 .calm) "Poller wait failed" := by
  have hrun : ThoroughRun .epoll ((runtime .epoll).after (small 1) waitFails) :=
    .after (small_init 1 (by decide)) (by decide) (by decide)
  have habort : step ((runtime .epoll).after (small 1) waitFails) (.pollReturn 0 .calm) =
      .error (.abort "Poller wait failed") := by rfl
  refine ⟨_, hrun, habort, by decide, (abort_has_cause hrun habort).resolve_left ?_⟩
  rintro ⟨o, ⟨⟩, ⟨k, hno⟩ | ⟨_, hno⟩⟩
  · exact Bool.noConfusion hno
  · exact Bool.noConfusion hno

end Croutine
