import Croutine.Calls
import Croutine.WideSelect

/-!
# Parked tasks and live waiters

Every live waiter belongs to a task that waits, so whoever pops one can wake its task: as
long as the ring of the run queue can grow, no channel operation stops the program.  The
ring exists until `worker_deinit` gives it up, and then no waiter is left.
-/

namespace Croutine

/-! ## The ring of the run queue -/

/-- Wakes double the ring, if they change its size. -/
theorem Wakes.doubled {s s' : Sys} (h : Wakes s s') :
    Doubled s.runq.capacity s'.runq.capacity := by
  refine Wakes.invariant (I := fun x => Doubled s.runq.capacity x.runq.capacity)
    (fun _ _ hx => hx) ?_ h (.refl _)
  intro o x t success x' hx hwake
  obtain ⟨_, cap, hcap, rfl⟩ := workerWakeTaskLocked_some hwake
  exact hx.trans hcap

/-- Waking tasks leaves the ring of the run queue allocated. -/
theorem Wakes.ring {s s' : Sys} (h : Wakes s s') (hs : 0 < s.runq.capacity) :
    0 < s'.runq.capacity :=
  h.doubled.pos hs

/-- Channel operations leave the ring of the run queue allocated. -/
theorem ChanView.ring {s s' : Sys} (h : ChanView s s') (hs : 0 < s.runq.capacity) :
    0 < s'.runq.capacity := by
  cases h with
  | memory κ => exact hs
  | wakes hlock hw => exact hw.ring hs
  | park hlock hw hpc hframe frame =>
      unfold workerParkCurrentOnChannelLocked
      split
      · exact hw.ring hs
      · exact hw.ring hs
  | shutdown hlock hlife hclose =>
      have h1 := (croutineChannelShutdownAllLocked_wakes hclose).ring hs
      exact h1
  | returned hpc κ => exact hs

/-- A push leaves the ring of the run queue allocated. -/
theorem taskQueuePush_ring {o : Oracle} {s s' : Sys} {t : TaskId}
    (h : taskQueuePush o s t = some s') (hs : 0 < s.runq.capacity) : 0 < s'.runq.capacity := by
  rcases taskQueuePush_some h with ⟨_, rfl⟩ | ⟨_, cap, hcap, rfl⟩
  · exact hs
  · exact hcap.pos hs

/-- The environment has the memory for a ring of capacity `n` to grow, as often as a step
may need it. -/
def Oracle.GrowsFrom (o : Oracle) (n : Nat) : Prop := ∀ k, o.grow (n * 2 ^ k) = true

/-- Memory that is granted from one capacity on is granted from each of its doublings on. -/
theorem Oracle.GrowsFrom.doubled {o : Oracle} {n cap : Nat} (h : o.GrowsFrom n)
    (hcap : Doubled n cap) : o.GrowsFrom cap := by
  obtain ⟨i, rfl⟩ := hcap
  intro k
  rw [Nat.mul_assoc, ← Nat.pow_add]
  exact h (i + k)

/-- A ring that can grow takes every task. -/
theorem taskQueuePush_total {o : Oracle} {s : Sys} (hring : 0 < s.runq.capacity)
    (hgrow : o.GrowsFrom s.runq.capacity) (t : TaskId) :
    ∃ s', taskQueuePush o s t = some s' := by
  have hcap : s.runq.capacity ≠ 0 := Nat.ne_of_gt hring
  have hone : o.grow s.runq.capacity = true := by simpa using hgrow 0
  unfold taskQueuePush taskQueueGrow
  simp only [hcap, hone, if_false, if_true, Option.map_some]
  split
  · exact ⟨_, rfl⟩
  · split
    · exact ⟨_, rfl⟩
    · exact ⟨_, rfl⟩

/-- An I/O wake doubles the ring, if it changes its size. -/
theorem wakeWaitingTasksLocked_doubled {o : Oracle} {s s' : Sys} {fd : Int} {ready : IoEvents}
    {success : Bool} {period n : Nat}
    (h : wakeWaitingTasksLocked o s fd ready success period = .ok (s', n)) :
    Doubled s.runq.capacity s'.runq.capacity := by
  rcases wakeWaitingTasksLocked_ok h with ⟨_, rfl, _⟩ |
    ⟨i, entry, tasks, rest, poller, s1, _, _, _, _, hfold, rfl, _⟩
  · exact .refl _
  · have h1 : Doubled s.runq.capacity s1.runq.capacity := by
      refine Res.foldlM_induct (I := fun x => Doubled s.runq.capacity x.runq.capacity) ?_ tasks
        (Doubled.refl _) hfold
      intro x t x' hx hstep
      obtain ⟨cap, hcap, rfl⟩ := wakeIoTask_ok hstep
      exact hx.trans hcap
    split
    · exact h1
    · exact h1

/-- A look at the loop's conditions leaves the ring of the run queue alone. -/
theorem LoopOutcome.ring {w : WorkerId} {checked : Bool} {s s' : Sys}
    (h : LoopOutcome w checked s s') : s'.runq.capacity = s.runq.capacity := by
  cases h <;> rfl

/-- The drain leaves the ring of the run queue alone. -/
theorem workerDeinitDrain_ring (s : Sys) :
    (workerDeinitDrain s).runq.capacity = s.runq.capacity := by
  refine workerDeinitDrain_induct (R := fun x y => y.runq.capacity = x.runq.capacity)
    (fun _ => rfl) (fun h h' => h'.trans h) ?_ (fun _ _ => rfl) (fun _ _ => rfl) s
  intro x x1 t hpop
  unfold taskQueuePop at hpop
  split at hpop
  · exact absurd hpop (by simp)
  · obtain ⟨rfl, rfl⟩ := Prod.mk.inj (Option.some.inj hpop)
    rfl

/-- Until the scheduler is gone its run queue has a ring. -/
theorem SchedStep.ring {a : Action} {s s' : Sys} (h : SchedStep s a s')
    (hs : 0 < s.runq.capacity) : s'.life = .down ∨ 0 < s'.runq.capacity := by
  cases h with
  | @spawnAlloc θ r hspawn hlife =>
      refine .inr ?_
      rcases workerSpawnAlloc_cases s θ r with heq | ⟨l, _, heq⟩ | heq <;> rw [heq]
      · rw [spawnFailed_eq]; exact hs
      · rw [spawnFailed_eq]; exact hs
      · exact hs
  | @spawnPublish hlock o θ t hmem =>
      refine .inr ?_
      rcases workerSpawnPublish_cases o s θ t with heq | ⟨_, s1, hpush, heq⟩ <;> rw [heq]
      · rw [spawnFailed_eq]; exact hs
      · have h1 : 0 < s1.runq.capacity := taskQueuePush_ring hpush hs
        exact h1
  | forgetFd hlock hint hforget =>
      refine .inr ?_
      rcases workerForgetFd_ok hforget with ⟨_, rfl⟩ | ⟨_, s1, n, hwake, rfl⟩
      · exact hs
      · have h1 := (wakeWaitingTasksLocked_doubled hwake).pos hs
        split
        · exact h1
        · exact h1
  | @waitIo hlock o w t fd direction hint hpc hframe =>
      refine .inr ?_
      rcases workerParkCurrentOnIo_form o s w t fd (IoEvents.none.put direction true) with
        ⟨_, _, heq⟩ | ⟨_, _, _, _, heq⟩ <;> (rw [heq]; exact hs)
  | pollerWake hmem | setReady fd mask => exact .inr hs
  | yield hpc hframe | returnIo hpc hframe | taskReturn hpc hframe => exact .inr hs
  | finishMain hpc | switchOut hpc | release hpc | cleanup hpc | resume hpc | kernelError hpc
  | filterBatch hpc => exact .inr hs
  | finishSched hlock hpc | reread hlock hpc => exact .inr hs
  | kernelReturn hpc hbatch => exact .inr hs
  | requeue hlock hpc hrequeue =>
      obtain ⟨s2, hpush, rfl⟩ := requeueTask_ok hrequeue
      have h2 := taskQueuePush_ring hpush hs
      exact .inr h2
  | @loop hlock w checked hpc =>
      refine .inr ?_
      rw [(loopBody_outcome w checked s).ring]
      exact hs
  | @condReturn hlock w signalled checked hpc =>
      refine .inr ?_
      unfold leaveCondWait
      rw [(loopBody_outcome w checked _).ring]
      exact hs
  | pollReturn hlock hpc hpoll =>
      refine .inr ?_
      rcases leavePoll_ok hpoll with ⟨_, rfl⟩ | ⟨_, s2, hbatch, hout⟩
      · exact hs
      · rw [hout.ring]
        refine Res.foldlM_induct (I := fun x => 0 < x.runq.capacity) ?_ _ hs hbatch
        intro x e x' hx hstep
        obtain ⟨n, hwake⟩ := applyPollEvent_ok hstep
        exact (wakeWaitingTasksLocked_doubled hwake).pos hx
  | pollFailed hlock hpc hpoll =>
      obtain ⟨_, rfl⟩ := leavePollError_ok hpoll
      exact .inr hs
  | runtimeInit hlock hlife => exact .inr hs
  | runCall hlife | createWorker hlife | waitForMain hlife | joinWorkers hlife => exact .inr hs
  | deinitDrain hlock hlife =>
      refine .inr ?_
      show 0 < (workerDeinitDrain s).runq.capacity
      rw [workerDeinitDrain_ring]
      exact hs
  | deinitClose hlife => exact .inl rfl

/-- The run queue has its ring until `worker_deinit` gives it up. -/
theorem ring_reach {backend : Backend} {allowed : Sys → Action → Prop} {s : Sys}
    (h : (runtime backend).ReachVia allowed s) (hlife : s.life ≠ .down) :
    0 < s.runq.capacity := by
  refine Machine.ReachVia.invariant (I := fun x => x.life ≠ .down → 0 < x.runq.capacity) ?_ ?_ h
    hlife
  · intro x hx _
    obtain ⟨wakeFd, workers, runCapacity, ioCapacity, _, hcap, rfl⟩ := hx
    exact hcap
  · intro x a x' hreach hx _ hstep hlife'
    by_cases hdown : x.life = .down
    · have hgone := (IoInv.reach hreach).gone hdown
      have hdown' := ((hgone.step (LifeInv.reach hreach) hdown hstep).gone hgone).2.trans hdown
      exact absurd hdown' hlife'
    · rcases step_kind hstep with hc | hs
      · exact hc.view.ring (hx hdown)
      · exact (hs.ring (hx hdown)).resolve_left hlife'

/-! ## Waking the task of a live waiter -/

/-- Whoever pops a live waiter can wake its task. -/
structure Wakeable (o : Oracle) (s : Sys) : Prop where
  wait : WaitInv s.ch s.tasks
  asleep : Asleep s.ch s.tasks
  parked : ∀ t, (s.tasks t).frame.refused = false
  ring : ∀ w, (s.ch.waiter w).channel ≠ none → 0 < s.runq.capacity
  grow : o.GrowsFrom s.runq.capacity

namespace Wakeable

variable {o : Oracle} {s s' : Sys} {c : ChanId} {op : Direction} {w : WaiterId}

/-- Moves of waiters leave every live waiter wakeable. -/
theorem moves (h : Wakeable o s) (hmoves : WaitMoves s s') : Wakeable o s' where
  wait := h.wait.moves hmoves
  asleep := h.asleep.moves h.wait hmoves
  parked t := by
    rw [hmoves.keeps.2.2.2 t]
    exact h.parked t
  ring w hw := by
    obtain ⟨c, hc⟩ := Option.ne_none_iff_exists'.mp hw
    exact hmoves.wakes.ring (h.ring w (by rw [hmoves.linked_before hc]; simp))
  grow := h.grow.doubled hmoves.wakes.doubled

/-- With a ring that can grow a waiting task is woken. -/
theorem workerWakeTaskLocked_some_of_waiting {t : TaskId}
    (hwait : (s.tasks t).state = .waitingChannel) (hring : 0 < s.runq.capacity)
    (hgrow : o.GrowsFrom s.runq.capacity) (success : Bool) :
    ∃ s1, workerWakeTaskLocked o s t success = some s1 := by
  unfold workerWakeTaskLocked enqueueRunnableTaskLocked
  rw [if_neg (by rw [hwait]; simp)]
  obtain ⟨s1, hs1⟩ := taskQueuePush_total (o := o)
    (s := (s.setTask t { s.tasks t with channelWakeSuccess := success }).setTask t _) hring hgrow t
  exact ⟨_, by rw [hs1]; rfl⟩

/-- The task of a live waiter can be woken. -/
theorem wakes (h : Wakeable o s) (hw : (s.ch.waiter w).channel ≠ none)
    (hlive : s.ch.live w = true) (success : Bool) :
    ∃ s1, workerWakeTaskLocked o s (s.ch.waiter w).task success = some s1 :=
  workerWakeTaskLocked_some_of_waiting (h.wait.waiting_of_live h.asleep (h.parked _) hw hlive)
    (h.ring w hw) h.grow success

/-- The wake goes through after any update of the channels that leaves the waiter with its
task. -/
theorem wakeWaiter (h : Wakeable o s) (hw : (s.ch.waiter w).channel ≠ none)
    (hlive : s.ch.live w = true) {κ : Chans} (hκ : (κ.waiter w).task = (s.ch.waiter w).task)
    (success : Bool) (message : String) :
    ∃ s1, wakeWaiter o { s with ch := κ } w success message = .ok s1 := by
  obtain ⟨s1, hs1⟩ := h.wakes hw hlive success
  unfold Croutine.wakeWaiter
  rw [workerWakeTaskLocked_ch, hκ, hs1]
  exact ⟨_, rfl⟩

/-- A live waiter can be completed. -/
theorem completeWaiterLocked (h : Wakeable o s) (hw : (s.ch.waiter w).channel ≠ none)
    (hlive : s.ch.live w = true) {κ : Chans} (hκ : (κ.waiter w).task = (s.ch.waiter w).task)
    (status : SelectStatus) :
    ∃ s1, completeWaiterLocked o { s with ch := κ } w status = .ok s1 :=
  h.wakeWaiter hw hlive (by rw [Chans.waiter_markDone]; exact hκ) true _

/-- The waiter that `pop_live_waiter_locked` finds can be completed. -/
theorem completes (h : Wakeable o s) {κ μ : Chans}
    (hpop : s.ch.popLiveWaiterLocked c op = (κ, some w)) (hμ : μ.waiter = κ.waiter)
    (status : SelectStatus) :
    ∃ s1, Croutine.completeWaiterLocked o { s with ch := μ } w status = .ok s1 := by
  obtain ⟨dead, rest, hqueue, _, hlive, rfl⟩ := popLiveWaiterLocked_some hpop
  have hmem : w ∈ s.ch.queue c op := by rw [hqueue]; simp
  refine h.completeWaiterLocked ?_ hlive (by rw [hμ, Chans.dropHeads_task]) status
  rw [(h.wait.linked.mem.mp hmem).1]
  simp

/-- A send finds a receiver it can wake, or none. -/
theorem wakeWaitingReceiverLocked (h : Wakeable o s) (offer : WaiterId) (value : Addr) :
    ∃ p, wakeWaitingReceiverLocked o s c offer value = .ok p := by
  unfold Croutine.wakeWaitingReceiverLocked
  split
  · exact ⟨_, rfl⟩
  · next κ r hpop =>
    obtain ⟨s1, hs1⟩ := h.completes (μ := (κ.copyValue (κ.waiter r).valueSlot
      (κ.valueAt c value)).record (.handoff c offer r (κ.waiter r).valueSlot (κ.valueAt c value)))
      hpop rfl .value
    dsimp only
    rw [hs1]
    exact ⟨_, rfl⟩

/-- A receive finds a sender it can wake, or none. -/
theorem wakeWaitingSenderDirectLocked (h : Wakeable o s) (offer : WaiterId) (out : Addr) :
    ∃ p, wakeWaitingSenderDirectLocked o s c offer out = .ok p := by
  unfold Croutine.wakeWaitingSenderDirectLocked
  split
  · exact ⟨_, rfl⟩
  · next κ x hpop =>
    obtain ⟨s1, hs1⟩ := h.completes (μ := (κ.copyValue out
      (κ.valueAt c (κ.waiter x).valueSlot)).record (.handoff c x offer out
      (κ.valueAt c (κ.waiter x).valueSlot))) hpop rfl .sent
    dsimp only
    rw [hs1]
    exact ⟨_, rfl⟩

/-- A sender that moves up can be woken. -/
theorem bufferOneWaitingSenderLocked (h : Wakeable o s) (c : ChanId) :
    ∃ s1, bufferOneWaitingSenderLocked o s c = .ok s1 := by
  unfold Croutine.bufferOneWaitingSenderLocked
  split
  · exact ⟨_, rfl⟩
  · split
    · exact ⟨_, rfl⟩
    · next κ x hpop =>
      exact h.completes (μ := (κ.bufferPush c (κ.valueAt c (κ.waiter x).valueSlot)).record
        (.buffered c x (κ.valueAt c (κ.waiter x).valueSlot))) hpop rfl .sent

/-! ## The operations return -/

/-- `try_send_locked` does not abort. -/
theorem trySendLocked (h : Wakeable o s) (c : ChanId) (offer : WaiterId) (value : Addr) :
    ∃ p, trySendLocked o s c offer value = .ok p := by
  unfold Croutine.trySendLocked
  split
  · exact ⟨_, rfl⟩
  · obtain ⟨⟨s1, woke⟩, hs1⟩ := h.wakeWaitingReceiverLocked (c := c) offer value
    rw [hs1]
    simp only [bind, Except.bind]
    split
    · exact ⟨_, rfl⟩
    · split
      · exact ⟨_, rfl⟩
      · exact ⟨_, rfl⟩

/-- `try_recv_locked` does not abort. -/
theorem tryRecvLocked (h : Wakeable o s) (c : ChanId) (offer : WaiterId) (out : Addr) :
    ∃ p, tryRecvLocked o s c offer out = .ok p := by
  unfold Croutine.tryRecvLocked
  split
  · next v rest hbuffer =>
    have htook : WaitMoves s { s with ch := s.ch.tookBuffered c offer out v rest } :=
      WaitMoves.quiet ((SameWaits.bufferPop _ _ _ _ _).trans (.record _ rfl rfl))
    obtain ⟨s1, hs1⟩ := (h.moves htook).bufferOneWaitingSenderLocked c
    dsimp only
    split
    · exact ⟨_, rfl⟩
    · have hnext : Croutine.bufferOneWaitingSenderLocked o (s.mapCh fun κ =>
          (κ.bufferPop c v rest out).record (.taken c offer out v)) c = .ok s1 := hs1
      rw [hnext]
      exact ⟨_, rfl⟩
  · obtain ⟨⟨s1, woke⟩, hs1⟩ := h.wakeWaitingSenderDirectLocked (c := c) offer out
    rw [hs1]
    simp only [bind, Except.bind]
    split
    · exact ⟨_, rfl⟩
    · split
      · exact ⟨_, rfl⟩
      · exact ⟨_, rfl⟩

/-- One round of the close loop goes through: a dead waiter is only dropped, and the task
of a live one can be woken. -/
theorem closeRound {rest : List WaiterId} (h : Wakeable o s)
    (hqueue : s.ch.queue c op = w :: rest) :
    ∃ s1, CloseRound o c op w rest s s1 ∧
      Croutine.wakeAllAsClosed o c op (w :: rest) s = Croutine.wakeAllAsClosed o c op rest s1 := by
  have hlink := h.wait.linked_head hqueue
  have htask : (((s.ch.dropHeads c op [w] rest).record
      (.closed c w (s.ch.chan c).closed)).waiter w).task = (s.ch.waiter w).task := by
    show ((s.ch.dropHeads c op [w] rest).waiter w).task = _
    rw [Chans.dropHeads_task]
  rw [Croutine.wakeAllAsClosed]
  simp only [Sys.mapCh, Chans.dropHead_eq_dropHeads, Chans.dropHeads_kind,
    Chans.dropHeads_state, Chans.dropHeads_select, Chans.dropHeads_closed]
  cases hkind : (s.ch.waiter w).kind with
  | regular =>
      have hlive : s.ch.live w = true := by
        unfold Chans.live
        rw [hkind]
      obtain ⟨s2, hs2⟩ := h.wakeWaiter hlink hlive htask false
        "channel: could not schedule a task woken by close"
      obtain ⟨s1, hwake, rfl⟩ := wakeWaiter_ok hs2
      rw [htask] at hwake
      rw [hs2]
      refine ⟨_, .regular hkind hwake, ?_⟩
      simp only [bind, Except.bind, htask]
  | select =>
      cases hstate : (s.ch.waiter w).state with
      | none => exact ⟨_, .skipped hkind (.inl hstate), rfl⟩
      | some k =>
          have hlive : s.ch.live w = !(s.ch.select k).done := by
            simp [Chans.live, hkind, hstate]
          dsimp only
          cases hdone : (s.ch.select k).done with
          | true => exact ⟨_, .skipped hkind (.inr (by simp [hlive, hdone])), rfl⟩
          | false =>
              have hlive' : s.ch.live w = true := by simp [hlive, hdone]
              obtain ⟨s2, hs2⟩ := h.completeWaiterLocked hlink hlive' htask .closed
              obtain ⟨s1, hwake, rfl⟩ := completeWaiterLocked_ok hs2
              rw [htask] at hwake
              rw [if_neg (by simp), hs2]
              exact ⟨_, .selected hkind hlive' hwake, rfl⟩

/-- The loop of `wake_all_as_closed_locked` does not abort. -/
theorem wakeAllAsClosed (c : ChanId) (op : Direction) : ∀ (q : List WaiterId) {s : Sys},
    Wakeable o s → s.ch.queue c op = q → ∃ s', wakeAllAsClosed o c op q s = .ok s' := by
  intro q
  induction q with
  | nil => exact fun _ _ => ⟨_, rfl⟩
  | cons w rest ih =>
      intro s h hqueue
      obtain ⟨s1, hround, hnext⟩ := h.closeRound hqueue
      rw [hnext]
      exact ih (h.moves (hround.moves hqueue)) hround.queue

/-- A close does not abort. -/
theorem channelCloseLocked (h : Wakeable o s) (c : ChanId) :
    ∃ s', channelCloseLocked o s c = .ok s' := by
  unfold Croutine.channelCloseLocked
  split
  · exact ⟨_, rfl⟩
  · have hmark : WaitMoves s { s with ch := s.ch.markClosed c } :=
      WaitMoves.quiet (.markClosed _ _)
    have h0 := h.moves hmark
    obtain ⟨s1, hs1⟩ := wakeAllAsClosed c .send _ h0 rfl
    have h1 := h0.moves (wakeAllAsClosedLocked_moves hs1).1
    obtain ⟨s2, hs2⟩ := wakeAllAsClosed c .recv _ h1 rfl
    refine ⟨s2, ?_⟩
    exact Res.bind_ok.mpr ⟨s1, hs1, hs2⟩

/-- The closes of a shutdown do not abort. -/
theorem shutdownAll (h : Wakeable o s) :
    ∃ s', croutineChannelShutdownAllLocked o s = .ok s' := by
  have hclose : ∀ (x : Sys) (c : ChanId), Wakeable o x →
      ∃ x', Croutine.channelCloseLocked o x c = .ok x' ∧ Wakeable o x' := by
    intro x c hx
    obtain ⟨x', hx'⟩ := hx.channelCloseLocked c
    exact ⟨x', hx', hx.moves (channelCloseLocked_moves hx')⟩
  obtain ⟨s', hs', _⟩ := Res.foldlM_returns hclose s.ch.registry h
  exact ⟨s', hs'⟩

/-- The attempt of a case does not abort. -/
theorem trySelectCaseLocked (h : Wakeable o s) (offer : WaiterId) (cs : SelectCase) :
    ∃ p, trySelectCaseLocked o s offer cs = .ok p := by
  unfold Croutine.trySelectCaseLocked
  split
  · exact ⟨_, rfl⟩
  · next c hc =>
    split
    · obtain ⟨⟨s1, r⟩, hs1⟩ := h.trySendLocked c offer cs.value
      rw [hs1]
      cases r <;> exact ⟨_, rfl⟩
    · obtain ⟨⟨s1, r⟩, hs1⟩ := h.tryRecvLocked c offer cs.value
      rw [hs1]
      cases r <;> exact ⟨_, rfl⟩
    · exact ⟨_, rfl⟩

/-- The try phase of a select does not abort. -/
theorem selectTryCases (call : CallId) (cases : List SelectCase) :
    ∀ (order : List Nat) {s : Sys}, Wakeable o s →
      ∃ p, selectTryCases o call cases order s = .ok p := by
  intro order
  induction order with
  | nil => exact fun _ => ⟨_, rfl⟩
  | cons i rest ih =>
      intro s h
      rw [Croutine.selectTryCases]
      split
      · exact ih h
      · next cs hcs =>
        obtain ⟨⟨s1, fired⟩, hs1⟩ := h.trySelectCaseLocked ⟨call, i⟩ cs
        have hmoves := (trySelectCaseLocked_ok hs1).moves
        rw [hs1]
        simp only [bind, Except.bind]
        split
        · exact ⟨_, rfl⟩
        · exact ih (h.moves hmoves)

end Wakeable

/-! ## No channel operation stops the program -/

/-- The `worker_fail` messages of `complete_waiter_locked` and
`wake_all_as_closed_locked`. -/
def channelAborts : List String :=
  ["channel: could not schedule a woken task",
    "channel: could not schedule a task woken by close"]

/-- The environment of the critical section that an action enters. -/
def Action.oracle : Action → Option Oracle
  | .channelSend _ _ _ o | .channelTrySend _ _ _ o | .channelRecv _ _ _ o
  | .channelTryRecv _ _ _ o | .channelClose _ _ o | .select _ _ _ _ o | .spawnPublish _ _ o
  | .forgetFd _ _ o | .requestShutdown _ o | .waitIo _ _ _ o | .requeue _ o | .pollReturn _ o
  | .workersAllocFail o | .createWorkerFail o | .shutdownCall o => some o
  | _ => none

/-- Waking the tasks of a descriptor aborts with none of the messages of channels. -/
theorem wakeWaitingTasksLocked_avoids (o : Oracle) (s : Sys) (fd : Int) (ready : IoEvents)
    (success : Bool) (period : Nat) :
    (wakeWaitingTasksLocked o s fd ready success period).Avoids channelAborts := by
  unfold wakeWaitingTasksLocked
  split
  · exact .ok _
  · dsimp only
    split
    · exact .abort (by simp [channelAborts])
    · refine .bind (.foldlM (fun x t => ?_) _ _) fun _ _ => .ok _
      unfold wakeIoTask
      split
      · exact .abort (by simp [channelAborts])
      · split
        · exact .ok _
        · exact .ok _

namespace Wakeable

variable {o : Oracle} {s : Sys}

/-- A call that begins leaves every live waiter wakeable. -/
theorem ticked (h : Wakeable o s) : Wakeable o s.ticked :=
  h.moves (WaitMoves.quiet (.tick _))

/-- `croutine_channel_send` does not abort. -/
theorem croutineChannelSend (h : Wakeable o s) (θ : Thread) (c : ChanId) (value : Addr) :
    ∃ s', croutineChannelSend o s θ c value = .ok s' := by
  obtain ⟨⟨s1, r⟩, hs1⟩ := h.ticked.trySendLocked c ⟨s.ch.clock, 0⟩ value
  unfold Croutine.croutineChannelSend
  dsimp only
  rw [show s.mapCh Chans.tick = s.ticked from rfl, hs1]
  simp only [bind, Except.bind]
  split <;> exact ⟨_, rfl⟩

/-- `croutine_channel_try_send` does not abort. -/
theorem croutineChannelTrySend (h : Wakeable o s) (c : ChanId) (value : Addr) :
    ∃ s', croutineChannelTrySend o s c value = .ok s' := by
  obtain ⟨p, hp⟩ := h.ticked.trySendLocked c ⟨s.ch.clock, 0⟩ value
  unfold Croutine.croutineChannelTrySend
  rw [show s.mapCh Chans.tick = s.ticked from rfl, hp]
  exact ⟨_, rfl⟩

/-- `croutine_channel_recv` does not abort. -/
theorem croutineChannelRecv (h : Wakeable o s) (θ : Thread) (c : ChanId) (out : Addr) :
    ∃ s', croutineChannelRecv o s θ c out = .ok s' := by
  obtain ⟨⟨s1, r⟩, hs1⟩ := h.ticked.tryRecvLocked c ⟨s.ch.clock, 0⟩ out
  unfold Croutine.croutineChannelRecv
  dsimp only
  rw [show s.mapCh Chans.tick = s.ticked from rfl, hs1]
  simp only [bind, Except.bind]
  split <;> exact ⟨_, rfl⟩

/-- `croutine_channel_try_recv` does not abort. -/
theorem croutineChannelTryRecv (h : Wakeable o s) (c : ChanId) (out : Addr) :
    ∃ s', croutineChannelTryRecv o s c out = .ok s' := by
  obtain ⟨p, hp⟩ := h.ticked.tryRecvLocked c ⟨s.ch.clock, 0⟩ out
  unfold Croutine.croutineChannelTryRecv
  rw [show s.mapCh Chans.tick = s.ticked from rfl, hp]
  exact ⟨_, rfl⟩

/-- `croutine_select` does not abort while it wakes anybody. -/
theorem croutineSelect (h : Wakeable o s) (choice : SelectChoice) (θ : Thread)
    (cases : List SelectCase) (hasDefault : Bool) :
    (croutineSelect o choice s θ cases hasDefault).Avoids channelAborts := by
  unfold Croutine.croutineSelect
  dsimp only
  split
  · split
    · exact .ok _
    · exact .abort (by simp [channelAborts])
  · obtain ⟨⟨s1, fired⟩, hs1⟩ := selectTryCases s.ch.clock cases
      (selectOrder choice cases.length) h.ticked
    rw [show s.mapCh Chans.tick = s.ticked from rfl, hs1]
    simp only [bind, Except.bind]
    split
    · exact .ok _
    · split
      · exact .ok _
      · exact .ok _
    · exact .ok _

/-- `worker_request_shutdown` does not abort. -/
theorem workerRequestShutdown (h : Wakeable o s) (θ : Thread) :
    ∃ s', workerRequestShutdown o s θ = .ok s' := by
  have h' : Wakeable o { s with shutdownRequested := true } :=
    ⟨h.wait, h.asleep, h.parked, h.ring, h.grow⟩
  obtain ⟨s1, hs1⟩ := h'.shutdownAll
  unfold Croutine.workerRequestShutdown
  rw [hs1]
  exact ⟨_, rfl⟩

end Wakeable

/-- **No step stops in a channel operation** when whoever pops a live waiter can wake its
task. -/
theorem step_avoids {s : Sys} {a : Action} (h : ∀ o, a.oracle = some o → Wakeable o s) :
    (step s a).Avoids channelAborts := by
  have hguard : ∀ {α : Type} (b : Bool) {f : Unit → Res α}, (∀ u, (f u).Avoids channelAborts) →
      (Res.require b >>= f).Avoids channelAborts :=
    fun b f hf => .bind (.require b) fun u _ => hf u
  have hdown : ∀ {o : Oracle} {θ : Thread} {f : Sys → Sys}, Wakeable o s →
      (do let x ← workerRequestShutdown o s θ; return f x : Res Sys).Avoids channelAborts :=
    fun hw => .bind (.of_returns (hw.workerRequestShutdown _)) fun _ _ => .ok _
  cases a with
  | channelSend θ c value o =>
      exact hguard _ fun _ => .of_returns ((h o rfl).croutineChannelSend _ _ _)
  | channelTrySend θ c value o =>
      exact hguard _ fun _ => .of_returns ((h o rfl).croutineChannelTrySend _ _)
  | channelRecv θ c out o =>
      exact hguard _ fun _ => .of_returns ((h o rfl).croutineChannelRecv _ _ _)
  | channelTryRecv θ c out o =>
      exact hguard _ fun _ => .of_returns ((h o rfl).croutineChannelTryRecv _ _)
  | channelClose θ c o => exact hguard _ fun _ => .of_returns ((h o rfl).channelCloseLocked _)
  | select θ cases hasDefault choice o =>
      exact hguard _ fun _ => (h o rfl).croutineSelect choice θ cases hasDefault
  | requestShutdown θ o => exact hguard _ fun _ => .of_returns ((h o rfl).workerRequestShutdown _)
  | workersAllocFail o | shutdownCall o => exact hguard _ fun _ => hdown (h o rfl)
  | createWorkerFail o =>
      unfold step
      dsimp only
      split
      · exact hguard _ fun _ => hdown (h o rfl)
      · exact .disabled
  | forgetFd θ fd o =>
      refine hguard _ fun _ => ?_
      unfold workerForgetFd
      split
      · exact .ok _
      · exact .bind (wakeWaitingTasksLocked_avoids _ _ _ _ _ _) fun _ _ => .ok _
  | pollReturn w o =>
      refine hguard _ fun _ => ?_
      split
      · unfold leavePoll
        dsimp only
        split
        · exact .ok _
        · refine .bind (.foldlM (fun x e => ?_) _ _) fun _ _ => .ok _
          exact .bind (wakeWaitingTasksLocked_avoids _ _ _ _ _ _) fun _ _ => .ok _
      · unfold leavePollError
        dsimp only
        split
        · exact .ok _
        · exact .abort (by simp [channelAborts])
      · exact .disabled
  | requeue w o =>
      refine hguard _ fun _ => ?_
      split
      · unfold requeueTask
        split
        · exact .abort (by simp [channelAborts])
        · exact .ok _
      · exact .disabled
  | channelCreate θ elemSize capacity allocOk | channelDestroy θ c | userWrite θ a bs
  | spawnAlloc θ r | spawnPublish θ t o | pollerWake θ | runtimeInit | runCall | waitForMain
  | joinWorkers | deinitDrain | deinitClose => exact hguard _ fun _ => .ok _
  | waitIo w fd direction o | yield w | taskReturn w | finishSched w | switchOut w
  | rereadShutdown w | loop w | condReturn w =>
      refine hguard _ fun _ => ?_
      split
      · exact .ok _
      · exact .disabled
  | finishMain w | release w | cleanup w | kernelError w | filterBatch w | resume w =>
      unfold step
      dsimp only
      split
      · exact .ok _
      · exact .disabled
  | setReady fd mask => exact .ok _
  | createWorker =>
      unfold step
      dsimp only
      split
      · exact hguard _ fun _ => .ok _
      · exact .disabled
  | kernelReturn w batch =>
      unfold step
      dsimp only
      split
      · split
        · exact .ok _
        · exact .disabled
      · exact .disabled
  | callReturn w =>
      unfold step
      dsimp only
      split
      · unfold callReturn
        dsimp only
        split
        · exact .disabled
        · exact .ok _
        · exact hguard _ fun _ => .ok _
        · exact hguard _ fun _ => .ok _
      · exact .disabled

/-! ## The correspondence -/

namespace ThoroughRun

variable {backend : Backend} {s : Sys} {t : TaskId}

/-- **Every live waiter is wakeable** while memory for the run queue is granted. -/
theorem wakeable (h : ThoroughRun backend s) {o : Oracle} (hgrow : o.GrowsFrom s.runq.capacity) :
    Wakeable o s where
  wait := WaitInv.reach h
  asleep := (OpenInv.reach h).asleep
  parked := h.parked
  ring w hw := by
    -- a linked waiter rules out that shutdown was requested, and so that the ring is gone
    obtain ⟨c, hc⟩ := Option.ne_none_iff_exists'.mp hw
    refine ring_reach h fun hdown => ?_
    have hrequested := (LifeInv.reach h).ending (by rw [hdown]; rfl)
    exact absurd (hrequested.symm.trans (h.linked_open hc).2) (by simp)
  grow := hgrow

end ThoroughRun

/-- The waiter is linked in a wait queue and belongs to the task. -/
def Chans.WaitsFor (κ : Chans) (t : TaskId) (w : WaiterId) : Prop :=
  (κ.waiter w).task = t ∧ ∃ c op, w ∈ κ.queue c op

/-- The waiter is linked in the queue of an open channel. -/
def Chans.AtOpen (κ : Chans) (w : WaiterId) : Prop :=
  ∃ c op, w ∈ κ.queue c op ∧ (κ.chan c).closed = false

/-- The linked waiters of a task are one regular waiter, at an open channel. -/
def Chans.OwnsRegular (κ : Chans) (t : TaskId) : Prop :=
  ∃ w, (∀ v, κ.WaitsFor t v ↔ v = w) ∧ (κ.waiter w).kind = .regular ∧ κ.AtOpen w

/-- The linked waiters of a task belong to one select that is not done, and one of them is
at an open channel. -/
def Chans.OwnsSelect (κ : Chans) (t : TaskId) : Prop :=
  ∃ k, (κ.select k).done = false ∧
    (∀ v, κ.WaitsFor t v → (κ.waiter v).kind = .select ∧ (κ.waiter v).state = some k) ∧
    ∃ w, κ.WaitsFor t w ∧ κ.AtOpen w

namespace ThoroughRun

variable {backend : Backend} {s : Sys} {t : TaskId} {w : WaiterId} {c : ChanId}

/-- A linked waiter is on an open channel. -/
theorem atOpen (h : ThoroughRun backend s) (hw : (s.ch.waiter w).channel = some c) :
    s.ch.AtOpen w :=
  ⟨c, (s.ch.waiter w).op.direction, (WaitInv.reach h).linked.mem.mpr ⟨hw, rfl⟩,
    (h.linked_open hw).1⟩

/-- **A parked task has its waiters linked**, and one of them at an open channel. -/
theorem owns (h : ThoroughRun backend s) (ht : (s.tasks t).state = .waitingChannel) :
    s.ch.OwnsRegular t ∨ s.ch.OwnsSelect t := by
  have hwait := WaitInv.reach h
  have hparked := hwait.parked t ht
  -- the linked waiters of the task are those its call laid out
  have howns : ∀ v, s.ch.WaitsFor t v → (s.tasks t).frame.Owns v (s.ch.waiter v) := by
    rintro v ⟨htask, c, op, hmem⟩
    have hlink := (hwait.linked.mem.mp hmem).1
    have howner := hwait.owner v (by rw [hlink]; simp)
    rwa [htask] at howner
  have hwaits : ∀ {v c}, (s.tasks t).frame.call = some v.call →
      (s.ch.waiter v).channel = some c → s.ch.WaitsFor t v := by
    intro v c hcall hlink
    exact ⟨hwait.owner_eq (by rw [hlink]; simp) hcall, c, _, hwait.linked.mem.mpr ⟨hlink, rfl⟩⟩
  cases hf : (s.tasks t).frame with
  | user | ioWait => rw [hf] at hparked; exact hparked.elim
  | single op k c parked =>
      rw [hf] at hparked howns hwaits
      cases parked with
      | false => exact hparked.elim
      | true =>
          have hfor : s.ch.WaitsFor t ⟨k, 0⟩ := hwaits rfl hparked
          refine .inl ⟨⟨k, 0⟩, fun v => ⟨fun hv => (howns v hv).1, ?_⟩, (howns _ hfor).2.1,
            h.atOpen hparked⟩
          rintro rfl
          exact hfor
  | select k cases parked =>
      rw [hf] at hparked howns hwaits
      cases parked with
      | false => exact hparked.elim
      | true =>
          obtain ⟨hdone, ⟨cs, hcs, hsome⟩, hall⟩ := hparked
          obtain ⟨c, hc⟩ := Option.isSome_iff_exists.mp hsome
          obtain ⟨i, hi⟩ := List.getElem?_of_mem hcs
          have hlink : (s.ch.waiter ⟨k, i⟩).channel = some c := (hall i cs hi).trans hc
          exact .inr ⟨k, hdone, fun v hv => ⟨(howns v hv).2.1, (howns v hv).2.2.1⟩, ⟨k, i⟩,
            hwaits rfl hlink, h.atOpen hlink⟩

end ThoroughRun

/-- **Parked tasks and live waiters correspond.**  A live linked waiter belongs to a task
that waits on channels; such a task owns one regular waiter, or the waiters of one select
that is not done, with one of them at an open channel; so as long as the run queue can
grow no wake of a waiter's task fails, and the task of a call is woken at most once. -/
theorem parked_tasks_match_live_waiters {backend : Backend} {s : Sys}
    (h : ThoroughRun backend s) :
    (∀ c op, ∀ w ∈ s.ch.queue c op, s.ch.live w = true →
      (s.tasks (s.ch.waiter w).task).state = .waitingChannel) ∧
    (∀ t, (s.tasks t).state = .waitingChannel → s.ch.OwnsRegular t ∨ s.ch.OwnsSelect t) ∧
    (∀ a, (∀ o, a.oracle = some o → ∀ n, o.grow n = true) →
      ∀ m ∈ channelAborts, step s a ≠ .error (.abort m)) ∧
    s.ch.wokenCalls.Nodup := by
  refine ⟨fun c op w hw hlive => ?_, fun t ht => h.owns ht, fun a hgrow => ?_,
    (CallInv.reach h).woken.1⟩
  · refine h.waiting_of_live ?_ hlive
    rw [((WaitInv.reach h).linked.mem.mp hw).1]
    simp
  · exact step_avoids fun o ho => h.wakeable fun _ => hgrow o ho _

/-- The main task waits to receive on an empty channel. -/
def awaitsValue : List Action :=
  oneChannel ++ [.channelRecv (.worker 0) 0 0 .calm] ++ handOver 0

theorem parked_tasks_match_awaits_value :
    ∃ s, ThoroughRun .epoll s ∧ s.ch.queue 0 .recv = [⟨0, 0⟩] ∧
      (s.tasks (s.ch.waiter ⟨0, 0⟩).task).state = .waitingChannel ∧
      step s (.channelClose (.external 0) 0 .calm) ≠
        .error (.abort "channel: could not schedule a task woken by close") := by
  have hrun : ThoroughRun .epoll ((runtime .epoll).after (small 1) awaitsValue) :=
    .after (small_init 1 (by decide)) (by decide) (by decide +kernel)
  obtain ⟨hlive, _, habort, _⟩ := parked_tasks_match_live_waiters hrun
  refine ⟨_, hrun, by decide +kernel, ?_, ?_⟩
  · exact hlive 0 .recv ⟨0, 0⟩ (by decide +kernel) (by decide +kernel)
  · refine habort (.channelClose (.external 0) 0 .calm) ?_ _ (by simp [channelAborts])
    rintro o ⟨⟩ n
    rfl

/-- A select of `2 ^ 32 + 1` cases parks on a closed channel and on no other. -/
theorem wide_select_waits_at_closed :
    ∃ s, (runtime .epoll).Reach s ∧ s.wk.lock = none ∧
      (s.tasks 0).state = .waitingChannel ∧ s.ch.registry = [0] ∧ (s.ch.chan 0).closed = true ∧
      s.ch.queue 0 .send = [] ∧ s.ch.queue 0 .recv = [⟨0, 2 ^ 32⟩] := by
  obtain ⟨W, cases, hreach⟩ := reach_wideSelect
    (oneChannel ++ [.channelClose (.external 0) 0 .calm]) (handOver 0) 0 .recv 0
    (by decide +kernel) (by decide +kernel) (fun _ _ => rfl)
  exact ⟨_, hreach, rfl, rfl, rfl, rfl, rfl, rfl⟩

end Croutine
