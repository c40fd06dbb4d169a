import Croutine.OpenQueues

/-!
# Channels after shutdown

The request of shutdown closes every channel and wakes everyone who sleeps on one that was
open.  Who sleeps on has only closed channels to wait for: a select parks there if it tries
none of its cases.  Later channels are open, but nobody falls asleep any more.  So a task
that is asleep after the request is not linked on an open channel (`Deaf`), and in runs
whose selects fit the channel operations wake nobody: a send is refused, a receive finds no
sender, and a close finds nobody asleep (`Quiet`).
-/

namespace Croutine

/-! ## Who sleeps after the request -/

/-- Nobody who sleeps is linked on an open channel. -/
def Deaf (κ : Chans) (tasks : TaskId → Task) : Prop :=
  ∀ c op, (κ.chan c).closed = false → ∀ w ∈ κ.queue c op,
    (tasks (κ.waiter w).task).state ≠ .waitingChannel

/-- Moves of waiters put no task to sleep. -/
theorem WaitMoves.waiting_before {s s' : Sys} (h : WaitMoves s s') {t : TaskId}
    (ht : (s'.tasks t).state = .waitingChannel) : (s.tasks t).state = .waitingChannel := by
  refine Wakes.invariant (I := fun x => (x.tasks t).state = .waitingChannel →
    (s.tasks t).state = .waitingChannel) (fun _ _ hx => hx) ?_ h.wakes id ht
  intro o x u success x' hx hwake ht'
  have hwoke := workerWakeTaskLocked_task hwake
  by_cases hu : t = u
  · rw [hu, hwoke.awake] at ht'
    exact absurd ht' (by simp)
  · rw [hwoke.other t hu] at ht'
    exact hx ht'

/-- Moves of waiters leave whose the waiters are. -/
theorem WaitMoves.task {s s' : Sys} (h : WaitMoves s s') (w : WaiterId) :
    (s'.ch.waiter w).task = (s.ch.waiter w).task := by
  rcases h.waiter w with heq | heq <;> rw [heq]

namespace Deaf

variable {κ κ' : Chans} {tasks tasks' : TaskId → Task} {s s' : Sys}

/-- Waiters leave, channels are closed and tasks wake up. -/
theorem mono (h : Deaf κ tasks)
    (hqueue : ∀ c op, (κ'.chan c).closed = false → ∀ w ∈ κ'.queue c op,
      (κ.chan c).closed = false ∧ w ∈ κ.queue c op ∧ (κ'.waiter w).task = (κ.waiter w).task)
    (hstate : ∀ t, (tasks' t).state = .waitingChannel → (tasks t).state = .waitingChannel) :
    Deaf κ' tasks' := by
  intro c op hopen w hw hwaits
  obtain ⟨hopen', hw', htask⟩ := hqueue c op hopen w hw
  exact h c op hopen' w hw' (htask ▸ hstate _ hwaits)

/-- Moves of waiters wake, and put nobody to sleep. -/
theorem moves (h : Deaf s.ch s.tasks) (hmoves : WaitMoves s s')
    (hclosed : ∀ c, (s.ch.chan c).closed = true → (s'.ch.chan c).closed = true) :
    Deaf s'.ch s'.tasks := by
  refine h.mono (fun c op hopen w hw => ⟨?_, (hmoves.queue c op).subset hw, hmoves.task w⟩)
    fun _ => hmoves.waiting_before
  by_contra habs
  have hclosed' := hclosed c (by simpa using habs)
  exact absurd (hclosed'.symm.trans hopen) (by simp)

/-- A close wakes, and puts nobody to sleep. -/
theorem close {o : Oracle} {c : ChanId} (h : Deaf s.ch s.tasks)
    (hclose : channelCloseLocked o s c = .ok s') : Deaf s'.ch s'.tasks :=
  h.moves (channelCloseLocked_moves hclose) fun _ => channelCloseLocked_stays hclose

/-- The request closes every channel on which somebody is linked. -/
theorem request {o : Oracle} (hwait : WaitInv s.ch s.tasks)
    (hclose : croutineChannelShutdownAllLocked o s = .ok s') : Deaf s'.ch s'.tasks := by
  have hmoves := croutineChannelShutdownAllLocked_moves hclose
  intro c op hopen w hw _
  have hlinked := (hwait.linked.mem.mp ((hmoves.queue c op).subset hw)).1
  have hclosed := (shutdownAll_empties hclose).1 c (hwait.registered w c hlinked)
  exact absurd (hclosed.symm.trans hopen) (by simp)

/-- A select that is refused is registered by a task that runs. -/
theorem register {t : TaskId} {cases : List SelectCase} {gone : WaiterId → Bool}
    (h : Deaf s.ch s.tasks) (hwait : WaitInv s.ch s.tasks)
    (hrunning : (s.tasks t).state = .runnable) :
    Deaf (selectRegister t s.ch.clock 0 cases
      ((s.ch.tick.without gone).setSelect s.ch.clock {})) s.tasks := by
  have honly := selectRegister_only (t := t) (k := s.ch.clock) cases 0
    ((s.ch.tick.without gone).setSelect s.ch.clock {})
  intro c op hopen w hw
  rw [honly.closed c] at hopen
  rw [selectRegister_queue] at hw
  rcases List.mem_append.mp hw with hw | hw
  · have hold : w ∈ s.ch.queue c op := by
      have hfilter : w ∈ (s.ch.tick.without gone).queue c op := hw
      rw [Chans.queue_without] at hfilter
      exact (List.mem_filter.mp hfilter).1
    rw [selectRegister_waiter_other]
    · have hdeaf := h c op hopen w hold
      show (s.tasks ((s.ch.tick.without gone).waiter w).task).state ≠ _
      rwa [Chans.without_task]
    · have hlinked := (hwait.linked.mem.mp hold).1
      exact Nat.ne_of_lt (hwait.calls _ _ (hwait.owner_call (by rw [hlinked]; simp)))
  · obtain ⟨hcall, j, cs, hidx, hget, _⟩ := (mem_caseWaiters cases 0).mp hw
    have hreg := selectRegister_waiter_case (t := t) (k := s.ch.clock) cases 0
      ((s.ch.tick.without gone).setSelect s.ch.clock {}) hget
    rw [← hidx, ← hcall] at hreg
    rw [← hcall, hreg]
    show (s.tasks t).state ≠ _
    rw [hrunning]
    simp

/-- A task changes its frame. -/
theorem frame {t : TaskId} (h : Deaf κ s.tasks) (frame : Frame) :
    Deaf κ (Function.update s.tasks t { s.tasks t with frame := frame }) := by
  refine h.mono (fun c op hopen w hw => ⟨hopen, hw, rfl⟩) fun u hu => ?_
  by_cases hut : u = t
  · subst hut
    rwa [Function.update_self] at hu
  · rwa [Function.update_of_ne hut] at hu

/-- **Deafness, step.** Every form of a channel step after the request leaves nobody asleep on
an open channel. -/
theorem chanForm {P : List SelectCase → Prop}
    (h : s.shutdownRequested = true → Deaf s.ch s.tasks) (hwait : WaitInv s.ch s.tasks)
    (hrunning : ∀ w t, s.wk.pc w = .running t → (s.tasks t).state = .runnable)
    (hform : ChanForm P s s') : s'.shutdownRequested = true → Deaf s'.ch s'.tasks := by
  intro hdown
  cases hform with
  | write a bs => exact h hdown
  | create elemSize capacity allocOk =>
      show Deaf (croutineChannelCreate s.ch elemSize capacity allocOk) s.tasks
      unfold croutineChannelCreate
      split
      · exact h hdown
      · refine (h hdown).mono (fun c op hopen w hw => ?_) fun _ => id
        by_cases hc : c = s.ch.nextChan
        · subst hc
          cases op <;> simp [Chans.queue, Chans.setChan, Channel.queue] at hw
        · refine ⟨?_, ?_, rfl⟩
          · simpa [Chans.setChan, hc] using hopen
          · simpa [Chans.queue, Chans.setChan, hc] using hw
  | @destroy c hc =>
      show Deaf (croutineChannelDestroy s.ch c) s.tasks
      unfold croutineChannelDestroy
      split <;> exact h hdown
  | @attempt o i cs s1 fired hreg htry gone hdead e he =>
      have hdown0 : s.shutdownRequested = true :=
        htry.wakes.sameCore.shutdownRequested.symm.trans hdown
      have hticked : Deaf s.ticked.ch s.ticked.tasks := h hdown0
      have h1 := hticked.moves htry.moves fun c hc => (htry.closed c).trans hc
      refine h1.mono (fun c op hopen w hw => ⟨hopen, ?_, ?_⟩) fun _ => id
      · have hfilter : w ∈ (s1.ch.without gone).queue c op := hw
        rw [Chans.queue_without] at hfilter
        exact (List.mem_filter.mp hfilter).1
      · exact Chans.without_task
  | parkSingle hc htry hpc hframe =>
      unfold parkOnChannel at hdown
      rw [workerParkCurrentOnChannelLocked_shutdown] at hdown
      exact absurd (hdown.symm.trans htry.runs_of_blocked) (by simp)
  | @parkSelect o cases w t hP hreg hsome gone hdead hall hpc hframe =>
      rw [workerParkCurrentOnChannelLocked_shutdown] at hdown
      have hpark := @Deaf.register s t cases gone (h hdown) hwait (hrunning w t hpc)
      unfold workerParkCurrentOnChannelLocked
      rw [if_pos hdown]
      exact hpark.frame _
  | close hc hclose =>
      refine (h ?_).close hclose
      exact (channelCloseLocked_wakes hclose).sameCore.shutdownRequested.symm.trans hdown
  | shutdown hclose =>
      have h1 := Deaf.request (s := { s with shutdownRequested := true }) hwait hclose
      exact h1
  | returnSingle hpc hframe => exact (h hdown).frame .user
  | @returnSelect w t call cases parked hpc hframe index status =>
      have hscrub := (Scrubbed.scrubSelectWaiters hwait.linked call cases.length).1
      refine ((h hdown).frame (t := t) .user).mono (fun c op hopen x hx => ?_) fun _ => id
      exact ⟨(hscrub.only.closed c).symm.trans hopen, (hscrub.queue c op).subset hx,
        hscrub.waiter_task x⟩

/-- **After the request nobody who sleeps is linked on an open channel.** -/
theorem reach {backend : Backend} {allowed : Sys → Action → Prop}
    (h : (runtime backend).ReachVia allowed s) (hdown : s.shutdownRequested = true) :
    Deaf s.ch s.tasks := by
  refine Machine.ReachVia.invariant
    (I := fun x => x.shutdownRequested = true → Deaf x.ch x.tasks) ?_ ?_ h hdown
  · intro x hx hdown
    obtain ⟨wakeFd, workers, runCapacity, ioCapacity, _, _, rfl⟩ := hx
    exact absurd hdown (by simp [Croutine.initial])
  · intro x a x' hreach hx _ hstep
    rcases step_form hreach hstep with hc | hu
    · exact Deaf.chanForm hx (WaitInv.reach hreach) (fun _ _ => running_runnable hreach) hc
    · intro hdown'
      rw [hu.ch]
      exact (hx (hu.shutdown.symm.trans hdown')).mono (fun _ _ hopen _ hw => ⟨hopen, hw, rfl⟩)
        fun t => (hu.tasks.state t).mp

end Deaf

/-! ## Operations that wake nobody -/

section Operations

variable {o : Oracle} {s s' : Sys} {c : ChanId}

/-- After the request an attempt finds nobody to wake where nobody waits to send. -/
theorem TryCase.wakes_nobody {offer : WaiterId} {cs : SelectCase} {fired : Option SelectStatus}
    (h : TryCase o s offer cs s' fired) (hdown : s.shutdownRequested = true)
    (hempty : ∀ c, s.ch.queue c .send = []) : ∃ κ, s' = { s with ch := κ } := by
  have hrun : s.shutdownRequested = false → ∃ κ, s' = { s with ch := κ } :=
    fun hrun => absurd (hdown.symm.trans hrun) (by simp)
  cases h with
  | untried huntried => exact ⟨s.ch, rfl⟩
  | send hchan hop h =>
      cases h with
      | refused h => exact ⟨_, rfl⟩
      | handed hopen hno hqueue hdead hlive hwake => exact hrun hno
      | buffered hopen hno hdead hroom => exact hrun hno
      | blocked hopen hno hdead hfull => exact hrun hno
  | @recv c hchan hop s' r h =>
      cases h with
      | taken hbuffer hskip => exact ⟨_, rfl⟩
      | drained hbuffer hopen hdead => exact ⟨_, rfl⟩
      | refilled hbuffer hopen hroom hqueue hdead hlive hwake =>
          exact absurd ((hempty c).symm.trans hqueue) (by simp)
      | direct hbuffer hqueue hdead hlive hwake =>
          exact absurd ((hempty c).symm.trans hqueue) (by simp)
      | refused hbuffer hdead h => exact ⟨_, rfl⟩
      | blocked hbuffer hdead hopen hno => exact hrun hno

/-- The waiters of a queue are woken as closed, and none of them sleeps. -/
theorem wakeAllAsClosedLocked_wakes_nobody {op : Direction}
    (h : wakeAllAsClosedLocked o s c op = .ok s')
    (hawake : ∀ w ∈ s.ch.queue c op, (s.tasks (s.ch.waiter w).task).state ≠ .waitingChannel) :
    ∃ κ, s' = { s with ch := κ } := by
  refine And.left (wakeAllAsClosed_induct (I := fun q x => (∃ κ, x = { s with ch := κ }) ∧
    (∀ w, (x.ch.waiter w).task = (s.ch.waiter w).task) ∧
    ∀ w ∈ q, (s.tasks (s.ch.waiter w).task).state ≠ .waitingChannel) ?_ _
    ⟨⟨s.ch, rfl⟩, fun _ => rfl, hawake⟩ h)
  rintro w rest x x' ⟨⟨κ, rfl⟩, htask, hq⟩ hround
  have hnot : ∀ {success : Bool} {s1 : Sys},
      workerWakeTaskLocked o { s with ch := κ } (κ.waiter w).task success = some s1 → False := by
    intro success s1 hwake
    have hwaits := (workerWakeTaskLocked_some hwake).1
    rw [show (κ.waiter w).task = (s.ch.waiter w).task from htask w] at hwaits
    exact hq w List.mem_cons_self hwaits
  cases hround with
  | skipped hkind hskip =>
      refine ⟨⟨_, rfl⟩, fun v => ?_, fun v hv => hq v (List.mem_cons_of_mem _ hv)⟩
      rw [Chans.dropHeads_task]
      exact htask v
  | selected hkind hlive hwake => exact (hnot hwake).elim
  | regular hkind hwake => exact (hnot hwake).elim

/-- A close finds nobody asleep. -/
theorem channelCloseLocked_wakes_nobody (h : channelCloseLocked o s c = .ok s')
    (hdeaf : Deaf s.ch s.tasks) : ∃ κ, s' = { s with ch := κ } := by
  rcases channelCloseLocked_ok h with ⟨_, rfl⟩ | ⟨hopen, s1, hsend, hrecv⟩
  · exact ⟨s'.ch, rfl⟩
  · have hmark := SameWaits.markClosed s.ch c
    have hawake : ∀ op, ∀ w ∈ (s.ch.markClosed c).queue c op,
        (s.tasks ((s.ch.markClosed c).waiter w).task).state ≠ .waitingChannel := by
      intro op w hw
      rw [hmark.queue] at hw
      rw [hmark.waiter]
      exact hdeaf c op hopen w hw
    have hmoves := (wakeAllAsClosedLocked_moves hsend).1
    obtain ⟨κ, rfl⟩ := wakeAllAsClosedLocked_wakes_nobody hsend (hawake .send)
    obtain ⟨κ', rfl⟩ := wakeAllAsClosedLocked_wakes_nobody hrecv fun w hw => by
      rw [hmoves.task w]
      exact hawake .recv w ((hmoves.queue c .recv).subset hw)
    exact ⟨κ', rfl⟩

/-- Closing all channels again wakes nobody. -/
theorem shutdownAll_wakes_nobody (h : croutineChannelShutdownAllLocked o s = .ok s')
    (hdeaf : Deaf s.ch s.tasks) : ∃ κ, s' = { s with ch := κ } := by
  refine And.left (Res.foldlM_induct
    (I := fun x => (∃ κ, x = { s with ch := κ }) ∧ Deaf x.ch x.tasks) ?_ _
    ⟨⟨s.ch, rfl⟩, hdeaf⟩ h)
  rintro x c x' ⟨⟨κ, rfl⟩, hx⟩ hclose
  have hx' := hx.close hclose
  obtain ⟨κ', rfl⟩ := channelCloseLocked_wakes_nobody hclose hx
  exact ⟨⟨κ', rfl⟩, hx'⟩

end Operations

/-! ## Every channel step -/

/-- A step that moves no task. -/
structure Quiet (s s' : Sys) : Prop where
  runq : s'.runq = s.runq
  ledger : s'.ledger = s.ledger
  state : ∀ t, (s'.tasks t).state = (s.tasks t).state
  signals : Signals s.wk s'.wk
  lock : s'.wk.lock = s.wk.lock

namespace Quiet

variable {s s' : Sys}

/-- A change of the channels alone moves no task. -/
theorem chans (s : Sys) (κ : Chans) : Quiet s { s with ch := κ } :=
  ⟨rfl, rfl, fun _ => rfl, fun _ => .inl rfl, rfl⟩

/-- A task changes its frame. -/
theorem frame (s : Sys) (t : TaskId) (frame : Frame) (κ : Chans) :
    Quiet s { s.setTask t { s.tasks t with frame := frame } with ch := κ } := by
  refine ⟨rfl, rfl, fun u => ?_, fun _ => .inl rfl, rfl⟩
  by_cases hu : u = t
  · subst hu
    simp [Sys.setTask]
  · simp [Sys.setTask, hu]

/-- **Quiet, step.** After the request, with no sender linked, no form of a channel step moves
a task. -/
theorem chanForm {P : List SelectCase → Prop} (hdown : s.shutdownRequested = true)
    (hempty : ∀ c, s.ch.queue c .send = []) (hdeaf : Deaf s.ch s.tasks)
    (hform : ChanForm P s s') : Quiet s s' := by
  cases hform with
  | write a bs | create elemSize capacity allocOk | destroy hc => exact .chans s _
  | attempt hreg htry hdead he =>
      obtain ⟨κ, rfl⟩ := htry.wakes_nobody hdown hempty
      exact .chans s _
  | parkSingle hc htry hpc hframe =>
      have hrun := (htry.open_of_blocked rfl (Direction.op_ne_other _)).2
      exact absurd (hdown.symm.trans hrun) (by simp)
  | @parkSelect o cases w t hP hreg hsome gone hdead hall hpc hframe =>
      unfold workerParkCurrentOnChannelLocked
      rw [if_pos hdown]
      exact .frame s t _ _
  | close hc hclose =>
      obtain ⟨κ, rfl⟩ := channelCloseLocked_wakes_nobody hclose hdeaf
      exact .chans s κ
  | shutdown hclose =>
      obtain ⟨κ, rfl⟩ := shutdownAll_wakes_nobody hclose hdeaf
      exact ⟨rfl, rfl, fun _ => rfl, Signals.condBroadcast s.wk, rfl⟩
  | returnSingle hpc hframe => exact .frame s _ _ _
  | returnSelect hpc hframe index status => exact .frame s _ _ _

end Quiet

/-- The channel steps of a narrow run have their forms. -/
theorem NarrowRun.form {backend : Backend} {P : List SelectCase → Prop} {s s' : Sys} {a : Action}
    (h : NarrowRun backend s) (hstep : ChanStep P s a s') : ChanForm P s s' :=
  hstep.form (WaitInv.reach h) fun _ _ hpc => running_runnable h hpc

/-- **After the request of shutdown a channel operation moves no task**, in runs whose selects
fit. -/
theorem NarrowRun.quiet {backend : Backend} {P : List SelectCase → Prop} {s s' : Sys}
    (h : NarrowRun backend s) (hdown : s.shutdownRequested = true) (hform : ChanForm P s s') :
    Quiet s s' :=
  .chanForm hdown (h.senders_of_shutdown hdown) (Deaf.reach h hdown) hform

end Croutine
