import Croutine.NoSpin
import Croutine.TaskMoves

/-!
# The wake descriptor

`Runtime` has one flag for the wake descriptor: `croutine_poller_wake` sets it, the kernel may
report it, and a batch with the report clears it.  Here is the descriptor that the code works
with.  On epoll it is an `eventfd` counter, watched level-triggered and reset by one read.  On
kqueue it is a pipe, watched with `EV_CLEAR`, so that it is reported once for what has arrived,
and `drain_wake_fd` reads up to 256 bytes at a time until the pipe is empty, while other threads
go on writing.  A write to a full descriptor fails with `EAGAIN`, which counts as a wake.

The writes that a critical section makes are taken in one step with it, as `Runtime` takes the
critical section.  Whether a step wrote is read off the flag; once the flag is set it does not
tell, and any number of writes is allowed.
-/

namespace Croutine

/-- The descriptor: the counter or the bytes in the pipe, at most `limit`, and whether something
has arrived since the kernel last reported it. -/
structure WakeFd where
  limit : Nat
  count : Nat
  arrived : Bool

namespace WakeFd

/-- `eventfd_write` of one, or `write` of one byte. -/
def write (fd : WakeFd) : WakeFd :=
  if fd.count < fd.limit then { fd with count := fd.count + 1, arrived := true } else fd

def writes : Nat → WakeFd → WakeFd
  | 0, fd => fd
  | n + 1, fd => writes n fd.write

/-- The kernel has the descriptor to report. -/
def reportable (backend : Backend) (fd : WakeFd) : Bool :=
  match backend with
  | .epoll => 0 < fd.count
  | .kqueue => 0 < fd.count && fd.arrived

end WakeFd

/-- The runtime with its wake descriptor. -/
structure WakeSys where
  sys : Sys
  fd : WakeFd

inductive WakeAction where
  /-- any step but the two that read the descriptor, with the writes it makes -/
  | act (a : Action) (writes : Nat)
  | kernelReturn (w : WorkerId) (batch : List Reported)
  /-- a `read` in the loop of `drain_wake_fd` on kqueue that returns bytes -/
  | drainRead (w : WorkerId) (bytes : Nat)
  /-- the rest of `croutine_poller_wait`, with the `read` that ends `drain_wake_fd` -/
  | filterBatch (w : WorkerId)

/-- Steps that do not read the wake descriptor. -/
def Action.apart : Action → Bool
  | .kernelReturn _ _ | .filterBatch _ => false
  | _ => true

def Sys.withPending (s : Sys) (b : Bool) : Sys := { s with wk := { s.wk with wakePending := b } }

/-- Size of the buffer of `drain_wake_fd`. -/
def DRAIN_BUFFER : Nat := 256

def wakeStep (backend : Backend) (x : WakeSys) : WakeAction → Res WakeSys
  | .act a writes => do
    Res.require a.apart
    let s ← step x.sys a
    Res.require (x.sys.wk.wakePending || s.wk.wakePending = decide (0 < writes))
    -- worker_deinit has closed the descriptor
    return ⟨s, if x.sys.life = .down then x.fd else x.fd.writes writes⟩
  | .kernelReturn w batch => do
    let s ← step (x.sys.withPending (x.fd.reportable backend)) (.kernelReturn w batch)
    return ⟨s.withPending x.sys.wk.wakePending,
      { x.fd with arrived := x.fd.arrived && !batch.contains .wake }⟩
  | .drainRead w bytes =>
    match x.sys.wk.pc w with
    | .polled raw => do
      Res.require (backend = .kqueue && raw.any x.sys.poller.isWake && 0 < bytes &&
        bytes ≤ x.fd.count && bytes ≤ DRAIN_BUFFER)
      return { x with fd := { x.fd with count := x.fd.count - bytes } }
    | _ => .error .disabled
  | .filterBatch w =>
    match x.sys.wk.pc w with
    | .polled raw => do
      let s ← step x.sys (.filterBatch w)
      if raw.any x.sys.poller.isWake then
        match backend with
        | .epoll => return ⟨s, { x.fd with count := 0 }⟩
        | .kqueue =>
          Res.require (x.fd.count = 0)
          return ⟨s, x.fd⟩
      else return ⟨s, x.fd⟩
    | _ => .error .disabled

/-- The runtime with a new wake descriptor, which can hold something. -/
def wakeRuntime (backend : Backend) : Machine WakeSys WakeAction where
  init x := (runtime backend).init x.sys ∧ 0 < x.fd.limit ∧ x.fd = ⟨x.fd.limit, 0, false⟩
  step := wakeStep backend

/-! ## The descriptor alone -/

namespace WakeFd

variable {fd : WakeFd} {backend : Backend}

/-- What is in the descriptor is reported. -/
def Fresh (fd : WakeFd) : Prop := 0 < fd.count → fd.arrived = true

/-- While nothing in it is stale the descriptor is reported when something is in it. -/
theorem reportable_iff (h : fd.Fresh) : fd.reportable backend = true ↔ 0 < fd.count := by
  cases backend with
  | epoll => simp [reportable]
  | kqueue =>
      simp only [reportable, Bool.and_eq_true, decide_eq_true_eq, and_iff_left_iff_imp]
      exact h

theorem write_limit (fd : WakeFd) : fd.write.limit = fd.limit := by
  unfold write
  split <;> rfl

/-- After a write something is in the descriptor, also if it was full. -/
theorem write_pos (hlimit : 0 < fd.limit) : 0 < fd.write.count := by
  unfold write
  split
  · exact Nat.succ_pos _
  · omega

/-- A write leaves nothing stale. -/
theorem write_fresh (h : fd.Fresh) : fd.write.Fresh := by
  unfold write
  split
  · exact fun _ => rfl
  · exact h

theorem writes_limit : ∀ (n : Nat) (fd : WakeFd), (fd.writes n).limit = fd.limit := by
  intro n
  induction n with
  | zero => exact fun _ => rfl
  | succ n ih =>
      intro fd
      exact (ih fd.write).trans (write_limit fd)

/-- Writes leave nothing stale. -/
theorem writes_fresh : ∀ (n : Nat) {fd : WakeFd}, fd.Fresh → (fd.writes n).Fresh := by
  intro n
  induction n with
  | zero => exact fun h => h
  | succ n ih => exact fun h => ih (write_fresh h)

/-- Writes empty nothing. -/
theorem writes_mono : ∀ (n : Nat) {fd : WakeFd}, 0 < fd.limit → 0 < fd.count →
    0 < (fd.writes n).count := by
  intro n
  induction n with
  | zero => exact fun _ h => h
  | succ n ih =>
      intro fd hlimit _
      refine ih ?_ (write_pos hlimit)
      rw [write_limit]
      exact hlimit

/-- **A write is seen**, also when the descriptor is full. -/
theorem writes_pos {n : Nat} (hn : 0 < n) (hlimit : 0 < fd.limit) : 0 < (fd.writes n).count := by
  cases n with
  | zero => exact absurd hn (Nat.lt_irrefl 0)
  | succ n =>
      refine writes_mono n ?_ (write_pos hlimit)
      rw [write_limit]
      exact hlimit

end WakeFd

/-! ## The flag -/

variable {backend : Backend} {s s' : Sys} {a : Action}

/-- Waking tasks takes no wake of the poller back. -/
theorem Wakes.pending (h : Wakes s s') (hs : s.wk.wakePending = true) :
    s'.wk.wakePending = true := by
  refine Wakes.invariant (I := fun x => x.wk.wakePending = true) ?_ ?_ h hs
  · exact fun _ _ hx => hx
  · intro o x t success x' hx hwake
    obtain ⟨_, cap, _, rfl⟩ := workerWakeTaskLocked_some hwake
    show (x.wk.wakeForTask o.pick).wakePending = true
    unfold Workers.wakeForTask
    dsimp only
    split
    · rfl
    · rw [(x.wk.condSignal_fields o.pick).2.2.2.2.2]
      exact hx

/-- A look at the loop's conditions leaves the wake flag alone. -/
theorem LoopOutcome.pending {w : WorkerId} {checked : Bool} (h : LoopOutcome w checked s s') :
    s'.wk.wakePending = s.wk.wakePending := by
  cases h <;> rfl

/-- Waking the tasks of a descriptor leaves the wake flag alone. -/
theorem IoWoke.pending {n : Nat} (h : IoWoke s s' n) :
    s'.wk.wakePending = s.wk.wakePending := by
  rcases Nat.eq_zero_or_pos n with hn | hn
  · rw [(h.none hn).2]
  · rw [h.some hn]
    rfl

/-- Waking the tasks of a batch leaves the wake flag alone. -/
theorem pollBatch_pending {o : Oracle} {events : List PollEvent}
    (h : events.foldlM (applyPollEvent o) s = .ok s') :
    s'.wk.wakePending = s.wk.wakePending := by
  refine Res.foldlM_induct (I := fun x => x.wk.wakePending = s.wk.wakePending) ?_ events rfl h
  intro x e x' hx hstep
  obtain ⟨n, hwake⟩ := applyPollEvent_ok hstep
  exact (wakeWaitingTasksLocked_woke hwake).pending.trans hx

/-- The publication of a task leaves the wake flag alone; its wake comes later. -/
theorem workerSpawnPublish_pending (o : Oracle) (s : Sys) (θ : Thread) (t : TaskId) :
    (workerSpawnPublish o s θ t).wk.wakePending = s.wk.wakePending := by
  rcases workerSpawnPublish_cases o s θ t with heq | ⟨_, s1, hpush, heq⟩ <;> rw [heq]
  · rw [spawnFailed_eq]
    rfl
  · obtain ⟨_, _, _, _, _, hpending⟩ := published_fields s1 o θ t (s.tasks t).isMain
    rw [hpending, taskQueuePush_wk hpush]

/-- A step of the scheduler that does not read the descriptor takes no wake back. -/
theorem SchedStep.pending (h : SchedStep s a s') (ha : a.apart = true)
    (hs : s.wk.wakePending = true) : s'.wk.wakePending = true := by
  cases h with
  | @spawnAlloc θ r hspawn hne =>
      rw [workerSpawnAlloc_wk]
      exact hs
  | @spawnPublish hlock o θ t hmem => exact (workerSpawnPublish_pending o s θ t).trans hs
  | forgetFd hlock hint hforget =>
      rcases workerForgetFd_ok hforget with ⟨_, rfl⟩ | ⟨_, s1, n, hwake, rfl⟩
      · exact hs
      · have hp := (wakeWaitingTasksLocked_woke hwake).pending.trans hs
        split <;> exact hp
  | @waitIo hlock o w t fd direction hint hpc hframe =>
      rcases workerParkCurrentOnIo_form o s w t fd (IoEvents.none.put direction true) with
        ⟨_, _, heq⟩ | ⟨_, _, _, _, heq⟩ <;> (rw [heq]; exact hs)
  | @requeue hlock o w t s1 hpc hrequeue =>
      obtain ⟨s2, hpush, rfl⟩ := requeueTask_ok hrequeue
      show (s2.wk.condSignal o.pick).wakePending = true
      rw [(s2.wk.condSignal_fields o.pick).2.2.2.2.2, taskQueuePush_wk hpush]
      exact hs
  | @loop hlock w checked hpc => exact (loopBody_outcome w checked s).pending.trans hs
  | @condReturn hlock w signalled checked hpc =>
      have hout : LoopOutcome w checked _ (leaveCondWait w checked s) := loopBody_outcome ..
      exact hout.pending.trans hs
  | pollReturn hlock hpc hpoll =>
      rcases leavePoll_ok hpoll with ⟨_, rfl⟩ | ⟨_, s2, hbatch, hout⟩
      · exact hs
      · exact (hout.pending.trans (pollBatch_pending hbatch)).trans hs
  | pollFailed hlock hpc hpoll =>
      obtain ⟨_, rfl⟩ := leavePollError_ok hpoll
      exact hs
  | pollerWake hmem => rfl
  | filterBatch hpc => exact absurd ha (by simp [Action.apart])
  | deinitDrain hlock hlife =>
      show (workerDeinitDrain s).wk.wakePending = true
      rw [(DrainFrame.deinit s).eq]
      exact hs
  | _ => exact hs

/-- Nothing but a batch with the report clears the flag. -/
theorem step_pending (h : step s a = .ok s') (ha : a.apart = true)
    (hs : s.wk.wakePending = true) : s'.wk.wakePending = true := by
  rcases step_kind h with hc | hsched
  · cases hc.effect with
    | wakes hw => exact hw.pending hs
    | enters hw hpc hframe hacts hcall =>
        unfold workerParkCurrentOnChannelLocked
        split <;> exact hw.pending hs
    | shutdown hreq hclose =>
        exact (croutineChannelShutdownAllLocked_wakes hclose).pending hs
    | returned hpc ha hframe κ => exact hs
  · exact hsched.pending ha hs

/-- A batch is received from the kernel and translated in steps of their own. -/
theorem step_polled (hlife : LifeInv s) (hagree : IoAgree s.tasks s.io) (h : step s a = .ok s')
    (ha : a.apart = true) (w : WorkerId) (raw : List RawEvent) :
    s'.wk.pc w = .polled raw ↔ s.wk.pc w = .polled raw := by
  rcases step_moved h hagree w with heq | heq | hmove
  · rw [heq]
  · rw [heq]
    cases s.wk.pc w <;> simp [Pc.signal]
  · have hstart := hlife.not_creating (w := w)
    generalize s.wk.pc w = p at hmove hstart ⊢
    generalize s'.wk.pc w = p' at hmove ⊢
    cases hmove with
    | start hl =>
        have hp : p = .notStarted := by
          by_contra hne
          exact hstart hne hl
        rw [hp]
        simp
    | kernelReturn | filterBatch => exact absurd ha (by simp [Action.apart])
    | loop hs | wakeUp hs | pollReturn hs => cases hs <;> simp
    | switchOut => split <;> simp
    | @reread t st => rcases afterReread_cases s t st with heq | heq | heq <;> simp [heq]
    | _ => simp

/-! ## Which reports are wakes -/

/-- On epoll no change of the interest moves the wake descriptor. -/
theorem EpollSet.wakeReadFd {p q : Poller} {fd : Int} {old new : IoEvents} {ok : Bool}
    (h : EpollSet p fd old new q ok) : q.wakeReadFd = p.wakeReadFd := by
  cases h with
  | same | unchanged | modified => rfl
  | deleted => split <;> rfl
  | @added hold hnew r hgrown | @addFailed hold r hgrown =>
      have hfd : r.wakeReadFd = p.wakeReadFd := by rw [hgrown.fields]
      exact hfd

/-- A change of a filter does not move the wake descriptor. -/
theorem applyFilterChange_wakeReadFd (o : PollerOracle) (p : Poller) (fd : Int) (filter : Filter)
    (enable : Bool) : (applyFilterChange o p fd filter enable).1.wakeReadFd = p.wakeReadFd := by
  unfold applyFilterChange
  split <;> rfl

/-- On kqueue no change of the interest moves the wake descriptor. -/
theorem kqueuePollerSet_wakeReadFd (o : PollerOracle) (p : Poller) (fd : Int)
    (old new : IoEvents) : (kqueuePollerSet o p fd old new).1.wakeReadFd = p.wakeReadFd := by
  have hsync : ∀ (x : Poller) (filter : Filter),
      (syncFilter o x fd old new filter).1.wakeReadFd = x.wakeReadFd := by
    intro x filter
    unfold syncFilter
    split
    · rfl
    · exact applyFilterChange_wakeReadFd ..
  have hread := hsync p .read
  unfold kqueuePollerSet
  split
  · rfl
  · split
    · next p1 heq =>
      rw [heq] at hread
      exact hread
    · next p1 heq =>
      rw [heq] at hread
      have hwrite := hsync p1 .write
      split
      · next p2 heq2 =>
        rw [heq2] at hwrite
        exact hwrite.trans hread
      · next p2 heq2 =>
        rw [heq2] at hwrite
        unfold reverseFilter
        split
        · exact hwrite.trans hread
        · exact (applyFilterChange_wakeReadFd ..).trans (hwrite.trans hread)

/-- A change of the poller does not move the wake descriptor. -/
theorem PollerChange.wakeReadFd {p q : Poller} (h : PollerChange p q) :
    q.wakeReadFd = p.wakeReadFd := by
  cases h with
  | @set o fd old new hfd hold =>
      unfold croutinePollerSet
      split
      · exact (pollerSetLocked_cases rfl).wakeReadFd
      · exact kqueuePollerSet_wakeReadFd ..
  | ready mask => rfl

/-- A scheduler that exists after a step existed before it. -/
theorem step_not_down (hreach : (runtime backend).Reach s) (h : step s a = .ok s')
    (hdown : s'.life ≠ .down) : s.life ≠ .down := by
  intro hl
  have hgone := (IoInv.reach hreach).gone hl
  exact hdown (((hgone.step (LifeInv.reach hreach) hl h).gone hgone).2.trans hl)

/-- The wake descriptor stays the same one. -/
theorem step_isWake (hreach : (runtime backend).Reach s) (h : step s a = .ok s')
    (hdown : s'.life ≠ .down) : s'.poller.isWake = s.poller.isWake := by
  have hlife := step_not_down hreach h hdown
  have ht := TaskInv.reach hreach hlife
  have hchanges := (step_ioMove h ht.agree (LifeInv.reach hreach) hdown).pollerChanges ht
  have hfd : s'.poller.wakeReadFd = s.poller.wakeReadFd :=
    PollerChanges.invariant (I := fun p => p.wakeReadFd = s.poller.wakeReadFd)
      (fun _ _ hchange hp => hchange.wakeReadFd.trans hp) hchanges rfl
  funext raw
  cases raw with
  | epoll token mask period => rfl
  | kevent ident filter eof error => simp only [Poller.isWake, hfd]

/-- The kernel's report of the wake descriptor is told from all others. -/
theorem report_isWake (hreach : (runtime backend).Reach s) (hlife : s.life ≠ .down) {b : Bool}
    {r : Reported} {raw : RawEvent} (h : s.poller.report b r = some raw) :
    s.poller.isWake raw = decide (r = .wake) := by
  have hb := backend_reach hreach hlife
  cases r with
  | wake =>
      simp only [Poller.report] at h
      split at h
      · split at h <;> cases h <;> simp [Poller.isWake]
      · exact absurd h (by simp)
  | epoll fd mask =>
      simp only [Poller.report] at h
      split at h
      · next r hbe hr =>
        split at h
        · cases h
          rw [hb] at hbe
          subst hbe
          obtain ⟨hlt, hin, _, htoken⟩ := (filed_reach hreach hlife).registered.entry fd r hr
          have hne := fdToken_ne_wakeToken (s.poller.fdGenerations fd.toNat)
            (Poller.inTable_iff.mp hin).1 hlt
          simp [Poller.isWake, htoken, hne]
        · exact absurd h (by simp)
      · exact absurd h (by simp)
  | kevent fd filter eof error =>
      simp only [Poller.report] at h
      split at h
      · next hk =>
        cases h
        simpa [Poller.isWake] using hk.2.2.2
      · exact absurd h (by simp)

/-- A batch has the wake report in it if the kernel put it there. -/
theorem batch_isWake (hreach : (runtime backend).Reach s) (hlife : s.life ≠ .down) {b : Bool} :
    ∀ (batch : List Reported) {raw : List RawEvent},
      batch.mapM (s.poller.report b) = some raw →
      raw.any s.poller.isWake = batch.contains .wake := by
  intro batch
  induction batch with
  | nil =>
      intro raw h
      simp only [List.mapM_nil, Option.pure_def, Option.some.injEq] at h
      subst h
      rfl
  | cons r rest ih =>
      intro raw h
      simp only [List.mapM_cons, Option.bind_eq_bind, Option.bind_eq_some_iff, Option.pure_def,
        Option.some.injEq] at h
      obtain ⟨y, hy, ys, hys, rfl⟩ := h
      rw [List.any_cons, List.contains_cons, ih hys, report_isWake hreach hlife hy]
      exact congrArg (· || rest.contains .wake) (decide_eq_decide.mpr eq_comm)

/-- The wake descriptor is reported when the flag is set. -/
theorem batch_pending {p : Poller} {b : Bool} :
    ∀ (batch : List Reported) {raw : List RawEvent}, batch.mapM (p.report b) = some raw →
      batch.contains .wake = true → b = true := by
  intro batch
  induction batch with
  | nil => exact fun _ hmem => absurd hmem (by simp)
  | cons r rest ih =>
      intro raw h hmem
      simp only [List.mapM_cons, Option.bind_eq_bind, Option.bind_eq_some_iff, Option.pure_def,
        Option.some.injEq] at h
      obtain ⟨y, hy, ys, hys, rfl⟩ := h
      simp only [List.contains_cons, Bool.or_eq_true, beq_iff_eq] at hmem
      rcases hmem with rfl | hrest
      · by_contra hb
        simp [Poller.report, hb] at hy
      · exact ih hys hrest

/-! ## The flag and the descriptor -/

/-- The worker has a report of the wake descriptor and has not yet drained it. -/
def Sys.Draining (s : Sys) (w : WorkerId) : Prop :=
  ∃ raw, s.wk.pc w = .polled raw ∧ raw.any s.poller.isWake = true

/-- While a worker is to drain the descriptor, the flag is set.  At all other times the flag
says whether there is something in the descriptor, and then the kernel has it to report. -/
structure WakeInv (backend : Backend) (x : WakeSys) : Prop where
  reach : (runtime backend).Reach x.sys
  limit : 0 < x.fd.limit
  draining : ∀ w, x.sys.Draining w → x.sys.wk.wakePending = true
  idle : x.sys.life ≠ .down → (∀ w, ¬ x.sys.Draining w) →
    x.fd.Fresh ∧ (x.sys.wk.wakePending = true ↔ 0 < x.fd.count)

/-- Only one worker is in the poller. -/
theorem Sys.Draining.alone {w v : WorkerId} (hroles : s.wk.Roles) (h : s.Draining v)
    (hw : (s.wk.pc w).polls = true) : v = w := by
  obtain ⟨raw, hpc, _⟩ := h
  exact hroles.single v w (by rw [hpc]; rfl) hw

/-- A worker that is alive has a scheduler. -/
theorem LifeInv.not_down {w : WorkerId} (h : LifeInv s) (hw : (s.wk.pc w).alive = true) :
    s.life ≠ .down := by
  intro hl
  have hwork := h.working_of_alive hw
  rw [hl] at hwork
  exact absurd hwork (by simp [Lifecycle.working])

namespace WakeInv

variable {x : WakeSys}

/-- A step that does not read the descriptor. -/
theorem act (h : WakeInv backend x) {n : Nat} (ha : a.apart = true) (hs : step x.sys a = .ok s)
    (hn : (x.sys.wk.wakePending || s.wk.wakePending = decide (0 < n)) = true) :
    WakeInv backend ⟨s, if x.sys.life = .down then x.fd else x.fd.writes n⟩ := by
  have hreach : (runtime backend).Reach s := .step h.reach trivial hs
  have hlife := LifeInv.reach h.reach
  have hsame : s.life ≠ .down → ∀ w, s.Draining w ↔ x.sys.Draining w := by
    intro hdown w
    unfold Sys.Draining
    rw [step_isWake h.reach hs hdown]
    exact exists_congr fun raw => and_congr_left fun _ =>
      step_polled hlife (IoInv.reach h.reach).agree hs ha w raw
  have hlimit : 0 < (if x.sys.life = .down then x.fd else x.fd.writes n).limit := by
    split
    · exact h.limit
    · rw [WakeFd.writes_limit]
      exact h.limit
  refine ⟨hreach, hlimit, fun w hw => ?_, fun hdown hidle => ?_⟩
  · have hdown : s.life ≠ .down := by
      obtain ⟨raw, hpc, _⟩ := hw
      exact (LifeInv.reach hreach).not_down (w := w) (by rw [hpc]; rfl)
    exact step_pending hs ha (h.draining w ((hsame hdown w).mp hw))
  · have hdown : s.life ≠ .down := hdown
    obtain ⟨hfresh, hiff⟩ := h.idle (step_not_down h.reach hs hdown) fun w hw =>
      hidle w ((hsame hdown w).mpr hw)
    rw [if_neg (step_not_down h.reach hs hdown)]
    refine ⟨WakeFd.writes_fresh n hfresh, ?_⟩
    cases hp : x.sys.wk.wakePending with
    | true =>
        have hcount := WakeFd.writes_mono n h.limit (hiff.mp hp)
        exact iff_of_true (step_pending hs ha hp) hcount
    | false =>
        have hset : s.wk.wakePending = decide (0 < n) := by simpa [hp] using hn
        rcases Nat.eq_zero_or_pos n with rfl | hpos
        · refine iff_of_false (by simp [hset]) fun hcount => ?_
          rw [hiff.mpr hcount] at hp
          exact absurd hp (by simp)
        · exact iff_of_true (by simp [hset, hpos]) (WakeFd.writes_pos hpos h.limit)

/-- **The kernel's report.**  A worker in the kernel is told of the wake descriptor exactly when
the flag is set. -/
theorem reportable (h : WakeInv backend x) {w : WorkerId} {timeout : Timeout}
    (hpc : x.sys.wk.pc w = .polling timeout) :
    x.fd.reportable backend = x.sys.wk.wakePending := by
  have hdown := (LifeInv.reach h.reach).not_down (w := w) (by rw [hpc]; rfl)
  have hidle : ∀ v, ¬ x.sys.Draining v := by
    intro v hv
    have hvw := hv.alone (SleepInv.reach h.reach).roles (w := w) (by rw [hpc]; rfl)
    subst hvw
    obtain ⟨raw, hpc', _⟩ := hv
    exact absurd (hpc.symm.trans hpc') (by simp)
  obtain ⟨hfresh, hiff⟩ := h.idle hdown hidle
  rw [Bool.eq_iff_iff, WakeFd.reportable_iff hfresh, hiff]

/-- The kernel reports what is in the descriptor, and the worker is to drain it. -/
theorem kernelReturn (h : WakeInv backend x) {w : WorkerId} {batch : List Reported}
    (hs : step (x.sys.withPending (x.fd.reportable backend)) (.kernelReturn w batch) = .ok s) :
    WakeInv backend ⟨s.withPending x.sys.wk.wakePending,
      { x.fd with arrived := x.fd.arrived && !batch.contains .wake }⟩ := by
  have hlife := LifeInv.reach h.reach
  have hroles := (SleepInv.reach h.reach).roles
  -- the worker was in the kernel, so that the report agrees with the flag
  obtain ⟨timeout, hpc⟩ : ∃ timeout, x.sys.wk.pc w = .polling timeout := by
    simp only [step] at hs
    split at hs
    · next timeout hpc => exact ⟨timeout, hpc⟩
    · exact absurd hs (by simp)
  have hdown := hlife.not_down (w := w) (by rw [hpc]; rfl)
  have hreport := h.reportable hpc
  rw [hreport] at hs
  have hs' : step x.sys (.kernelReturn w batch) = .ok s := hs
  have hreach : (runtime backend).Reach s :=
    .step (a := .kernelReturn w batch) h.reach trivial hs'
  obtain ⟨raw, hbatch, rfl⟩ : ∃ raw, kernelBatch x.sys timeout batch = some raw ∧
      s = x.sys.setPc w (.polled raw) := by
    simp only [step, hpc] at hs'
    split at hs'
    · next raw hraw =>
      cases hs'
      exact ⟨raw, hraw, rfl⟩
    · exact absurd hs' (by simp)
  have hraw : batch.mapM (x.sys.poller.report x.sys.wk.wakePending) = some raw := by
    unfold kernelBatch at hbatch
    split at hbatch
    · exact hbatch
    · exact absurd hbatch (by simp)
  have hany := batch_isWake h.reach hdown batch hraw
  have hself : (x.sys.setPc w (.polled raw)).wk.pc w = .polled raw := Function.update_self ..
  refine ⟨hreach, h.limit, fun v hv => ?_, fun _ hidle => ?_⟩
  · have hv : (x.sys.setPc w (.polled raw)).Draining v := hv
    have hvw := hv.alone (SleepInv.reach hreach).roles (w := w) (by rw [hself]; rfl)
    subst hvw
    obtain ⟨raw', hpc', hwake⟩ := hv
    cases hself.symm.trans hpc'
    exact batch_pending batch hraw (hany.symm.trans hwake)
  · have hcontains : batch.contains .wake = false := by
      rw [← hany, Bool.eq_false_iff]
      exact fun hwake => hidle w ⟨raw, hself, hwake⟩
    have hbefore : ∀ v, ¬ x.sys.Draining v := by
      intro v hv
      have hvw := hv.alone hroles (w := w) (by rw [hpc]; rfl)
      subst hvw
      obtain ⟨raw', hpc', _⟩ := hv
      exact absurd (hpc.symm.trans hpc') (by simp)
    rw [hcontains, Bool.not_false, Bool.and_true]
    exact h.idle hdown hbefore

/-- The rest of **`croutine_poller_wait`**, at the read that finds the descriptor empty or, on
epoll, empties it. -/
theorem filterBatch (h : WakeInv backend x) {w : WorkerId} {raw : List RawEvent} {fd : WakeFd}
    (hpc : x.sys.wk.pc w = .polled raw) (hs : step x.sys (.filterBatch w) = .ok s)
    (hlimit : fd.limit = x.fd.limit)
    (hfd : if raw.any x.sys.poller.isWake = true then fd.count = 0 else fd = x.fd) :
    WakeInv backend ⟨s, fd⟩ := by
  have hroles := (SleepInv.reach h.reach).roles
  have hreach : (runtime backend).Reach s := .step (a := .filterBatch w) h.reach trivial hs
  simp only [step, hpc] at hs
  cases hs
  have hafter : ∀ v raw', Function.update x.sys.wk.pc w
      (.filtered (pollerTranslate x.sys.poller [] raw)) v ≠ .polled raw' := by
    intro v raw' hv
    by_cases hvw : v = w
    · rw [hvw, Function.update_self] at hv
      exact absurd hv (by simp)
    · rw [Function.update_of_ne hvw] at hv
      exact hvw (hroles.single v w (by rw [hv]; rfl) (by rw [hpc]; rfl))
  refine ⟨hreach, by rw [hlimit]; exact h.limit, fun v hv => ?_, fun hdown _ => ?_⟩
  · obtain ⟨raw', hv, _⟩ := hv
    exact absurd hv (hafter v raw')
  · show fd.Fresh ∧
      ((x.sys.wk.wakePending && !raw.any x.sys.poller.isWake) = true ↔ 0 < fd.count)
    cases hwake : raw.any x.sys.poller.isWake with
    | true =>
        rw [if_pos hwake] at hfd
        refine ⟨fun hpos => absurd hpos (by simp [hfd]), ?_⟩
        simp [hfd]
    | false =>
        rw [if_neg (by simp [hwake])] at hfd
        subst hfd
        rw [Bool.not_false, Bool.and_true]
        refine h.idle hdown fun v hv => ?_
        have hvw := hv.alone hroles (w := w) (by rw [hpc]; rfl)
        subst hvw
        obtain ⟨raw', hpc', hwake'⟩ := hv
        cases hpc.symm.trans hpc'
        rw [hwake] at hwake'
        exact absurd hwake' (by simp)

/-- **One step** keeps the flag and the descriptor together. -/
theorem keeps (h : WakeInv backend x) {b : WakeAction} {x' : WakeSys}
    (hs : wakeStep backend x b = .ok x') : WakeInv backend x' := by
  cases b with
  | act a n =>
      obtain ⟨_, ha, hrest⟩ := Res.bind_ok.mp hs
      obtain ⟨s, hstep, hrest⟩ := Res.bind_ok.mp hrest
      obtain ⟨_, hn, hret⟩ := Res.bind_ok.mp hrest
      cases Res.pure_ok.mp hret
      exact h.act (Res.require_ok.mp ha) hstep (Res.require_ok.mp hn)
  | kernelReturn w batch =>
      obtain ⟨s, hstep, hret⟩ := Res.bind_ok.mp hs
      cases Res.pure_ok.mp hret
      exact h.kernelReturn hstep
  | drainRead w bytes =>
      simp only [wakeStep] at hs
      split at hs
      · next raw hpc =>
        obtain ⟨_, hg, hret⟩ := Res.bind_ok.mp hs
        cases Res.pure_ok.mp hret
        simp only [Res.require_ok, Bool.and_eq_true] at hg
        refine ⟨h.reach, h.limit, h.draining, fun _ hidle => ?_⟩
        exact absurd ⟨raw, hpc, hg.1.1.1.2⟩ (hidle w)
      · exact absurd hs (by simp)
  | filterBatch w =>
      simp only [wakeStep] at hs
      split at hs
      · next raw hpc =>
        obtain ⟨s, hstep, hrest⟩ := Res.bind_ok.mp hs
        split at hrest
        · next hwake =>
          cases backend with
          | epoll =>
              cases Res.pure_ok.mp hrest
              exact h.filterBatch hpc hstep rfl (by rw [if_pos hwake])
          | kqueue =>
              obtain ⟨_, hempty, hret⟩ := Res.bind_ok.mp hrest
              cases Res.pure_ok.mp hret
              rw [Res.require_ok, decide_eq_true_eq] at hempty
              exact h.filterBatch hpc hstep rfl (by rw [if_pos hwake]; exact hempty)
        · next hwake =>
          cases Res.pure_ok.mp hrest
          exact h.filterBatch hpc hstep rfl (by rw [if_neg hwake])
      · exact absurd hs (by simp)

/-- **In every state the flag of the model says what is in the descriptor**, but for a drain
that is under way. -/
theorem reachable (h : (wakeRuntime backend).Reach x) : WakeInv backend x := by
  refine Machine.ReachVia.invariant (I := WakeInv backend) ?_ ?_ h
  · intro y hy
    obtain ⟨hsys, hlimit, hfd⟩ := hy
    refine ⟨.init hsys, hlimit, fun w hw => ?_, fun _ _ => ?_⟩
    · obtain ⟨fd, n, c, d, _, _, heq⟩ := hsys
      obtain ⟨raw, hpc, _⟩ := hw
      rw [heq] at hpc
      exact absurd hpc (by simp [initial])
    · obtain ⟨fd, n, c, d, _, _, heq⟩ := hsys
      rw [hfd, heq]
      exact ⟨fun hpos => absurd hpos (Nat.lt_irrefl 0), by simp [initial]⟩
  · intro y b y' _ hy _ hs
    exact hy.keeps hs

end WakeInv

/-- **The flag is the descriptor.**  The runtime with its wake descriptor, an `eventfd` or a
pipe that threads write to while it is drained and that may be full, takes only the steps of the
runtime with the flag; and whenever a worker waits in the kernel, the kernel has the descriptor
to report exactly when the flag is set.  So no call of `croutine_poller_wake` is lost in the
descriptor and the poller is not woken for one it has already handled. -/
theorem wake_descriptor_refines {x : WakeSys} (h : (wakeRuntime backend).Reach x) :
    (runtime backend).Reach x.sys ∧ ∀ w timeout, x.sys.wk.pc w = .polling timeout →
      x.fd.reportable backend = x.sys.wk.wakePending :=
  ⟨(WakeInv.reachable h).reach, fun _ _ hpc => (WakeInv.reachable h).reportable hpc⟩

/-- The main task runs on worker 0 and spawns two tasks while worker 1 waits in the kernel.  The
pipe holds one byte, so that the second wake finds it full. -/
def wakesTwice : List WakeAction :=
  (startUp 2).map (WakeAction.act · 0) ++
  [.act (.loop 0) 0, .kernelReturn 0 [], .filterBatch 0, .act (.pollReturn 0 .calm) 0,
    .act (.resume 0) 0, .act (.loop 1) 0, .act (.spawnAlloc (.worker 0) (.plain false)) 0,
    .act (.spawnPublish (.worker 0) 1 .calm) 0, .act (.pollerWake (.worker 0)) 1,
    .act (.spawnAlloc (.worker 0) (.plain false)) 0,
    .act (.spawnPublish (.worker 0) 2 .calm) 0, .act (.pollerWake (.worker 0)) 1]

/-- The pipe of one byte. -/
def tinyPipe : WakeSys := ⟨initial .kqueue 3 2 4 4, ⟨1, 0, false⟩⟩

theorem wake_descriptor_refines_full_pipe :
    ∃ x, (wakeRuntime .kqueue).Reach x ∧ x.sys.wk.pc 1 = .polling .infinite ∧
      x.fd.count = x.fd.limit ∧ x.fd.reportable .kqueue = true := by
  have hreach : (wakeRuntime .kqueue).Reach ((wakeRuntime .kqueue).after tinyPipe wakesTwice) :=
    Machine.reach_after ⟨⟨3, 2, 4, 4, by decide, by decide, rfl⟩, by decide, rfl⟩
      (by decide +kernel)
  have hpc : ((wakeRuntime .kqueue).after tinyPipe wakesTwice).sys.wk.pc 1 =
      .polling .infinite := by
    decide +kernel
  have hpending : ((wakeRuntime .kqueue).after tinyPipe wakesTwice).sys.wk.wakePending = true := by
    decide +kernel
  exact ⟨_, hreach, hpc, by decide +kernel,
    ((wake_descriptor_refines hreach).2 1 .infinite hpc).trans hpending⟩

end Croutine
