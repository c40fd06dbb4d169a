import Croutine.IoDelivery
import Croutine.EpollFilter

/-!
# The runtime drives its poller

Few steps touch the wait table or the poller: a park, a wake of a descriptor's tasks, and
the end of `worker_deinit`.  Each of them tells the poller what the kernel watches as the
old events.  The poller inside the runtime is therefore one under the calls of its
interface, and what holds of the epoll poller alone holds of it in every run.
-/

namespace Croutine

/-! ## Steps that touch the wait table -/

/-- What a step does to the wait table and the poller, as long as the scheduler exists. -/
inductive IoMove (s : Sys) (a : Action) (s' : Sys) : Prop
  | quiet (hio : s'.io = s.io) (hpoller : s'.poller = s.poller)
  | ready (mask : Int → EpollMask) (hio : s'.io = s.io)
      (hpoller : s'.poller = { s.poller with ready := mask })
  | forget {o : Oracle} {θ : Thread} {fd : Int} {s1 : Sys} {n : Nat}
      (ha : a = .forgetFd θ fd o) (hlock : s.wk.lock = none)
      (hwake : wakeWaitingTasksLocked o s fd .all false 0 = .ok (s1, n))
      (hio : s'.io = s1.io) (hpoller : s'.poller = s1.poller)
  | park {o : Oracle} {w : WorkerId} {t : TaskId} {fd : Int} {d : Filter}
      (hint : isInt fd = true) (hlife : s.life ≠ .drained) (hpc : s.wk.pc w = .running t)
      (hpark : IoPark o s w t fd d s')
  | batch {o : Oracle} {w : WorkerId} {events : List PollEvent} {s1 : Sys}
      (ha : a = .pollReturn w o) (hpc : s.wk.pc w = .filtered events) (hlock : s.wk.lock = none)
      (hbatch : events.foldlM (applyPollEvent o) (releasePoller s) = .ok s1)
      (hio : s'.io = s1.io) (hpoller : s'.poller = s1.poller)
  | drain (hlife : s.life = .shutJoin) (hpoller : s'.poller = s.poller)

/-- A push leaves the wait table and the poller alone. -/
theorem taskQueuePush_io {o : Oracle} {s s' : Sys} {t : TaskId}
    (h : taskQueuePush o s t = some s') : s'.io = s.io ∧ s'.poller = s.poller := by
  rcases taskQueuePush_some h with ⟨_, rfl⟩ | ⟨_, cap, _, rfl⟩
  · exact ⟨rfl, rfl⟩
  · exact ⟨rfl, rfl⟩

/-- A look at the loop's conditions leaves the wait table and the poller alone. -/
theorem LoopOutcome.io {w : WorkerId} {checked : Bool} {s s' : Sys}
    (h : LoopOutcome w checked s s') : s'.io = s.io ∧ s'.poller = s.poller := by
  cases h <;> exact ⟨rfl, rfl⟩

/-- What a step of the scheduler does to the wait table and the poller. -/
theorem SchedStep.ioMove {a : Action} {s s' : Sys} (h : SchedStep s a s')
    (hagree : IoAgree s.tasks s.io) (hlife : LifeInv s) (hdown : s'.life ≠ .down) :
    IoMove s a s' := by
  cases h with
  | @spawnAlloc θ r hspawn hl =>
      rcases workerSpawnAlloc_cases s θ r with heq | ⟨l, _, heq⟩ | heq <;> rw [heq]
      · rw [spawnFailed_eq]; exact .quiet rfl rfl
      · rw [spawnFailed_eq]; exact .quiet rfl rfl
      · exact .quiet rfl rfl
  | @spawnPublish hlock o θ t hmem =>
      rcases workerSpawnPublish_cases o s θ t with heq | ⟨_, s1, hpush, heq⟩ <;> rw [heq]
      · rw [spawnFailed_eq]; exact .quiet rfl rfl
      · exact .quiet (taskQueuePush_io hpush).1 (taskQueuePush_io hpush).2
  | forgetFd hlock hint hforget =>
      rcases workerForgetFd_ok hforget with ⟨_, rfl⟩ | ⟨_, s1, n, hwake, rfl⟩
      · exact .quiet rfl rfl
      · refine .forget rfl hlock hwake ?_ ?_
        · split <;> rfl
        · split <;> rfl
  | @waitIo hlock o w t fd direction hint hpc hframe =>
      exact .park hint (hlife.not_drained (w := w) (by rw [hpc]; rfl)) hpc
        (workerParkCurrentOnIo_cases hagree o w t fd direction)
  | setReady fd mask => exact .ready _ rfl rfl
  | pollerWake hmem => exact .quiet rfl rfl
  | yield hpc hframe | returnIo hpc hframe | taskReturn hpc hframe => exact .quiet rfl rfl
  | finishMain hpc | switchOut hpc | release hpc | cleanup hpc | resume hpc | kernelError hpc
  | filterBatch hpc => exact .quiet rfl rfl
  | finishSched hlock hpc | reread hlock hpc => exact .quiet rfl rfl
  | kernelReturn hpc hbatch => exact .quiet rfl rfl
  | requeue hlock hpc hrequeue =>
      obtain ⟨s2, hpush, rfl⟩ := requeueTask_ok hrequeue
      exact .quiet (taskQueuePush_io hpush).1 (taskQueuePush_io hpush).2
  | @loop hlock w checked hpc =>
      have hout := (loopBody_outcome w checked s).io
      exact .quiet hout.1 hout.2
  | @condReturn hlock w signalled checked hpc =>
      have hout := (loopBody_outcome w checked
        (s.mapWk fun wk => { wk with idleWorkers := wk.idleWorkers - 1 })).io
      exact .quiet hout.1 hout.2
  | pollReturn hlock hpc hpoll =>
      rcases leavePoll_ok hpoll with ⟨_, rfl⟩ | ⟨_, s2, hbatch, hout⟩
      · exact .quiet rfl rfl
      · exact .batch rfl hpc hlock hbatch hout.io.1 hout.io.2
  | pollFailed hlock hpc hpoll =>
      obtain ⟨_, rfl⟩ := leavePollError_ok hpoll
      exact .quiet rfl rfl
  | runtimeInit hlock hl => exact .quiet rfl rfl
  | runCall hl | waitForMain hl => exact .quiet rfl rfl
  | createWorker hl hk howes => exact .quiet rfl rfl
  | joinWorkers hl hall => exact .quiet rfl rfl
  | deinitDrain hlock hl =>
      refine .drain hl ?_
      show (workerDeinitDrain s).poller = s.poller
      rw [(DrainFrame.deinit s).eq]
  | deinitClose hl => exact absurd rfl hdown

/-- Waking tasks of channels leaves the wait table and the poller alone. -/
theorem Wakes.io {s s' : Sys} (h : Wakes s s') : s'.io = s.io ∧ s'.poller = s.poller := by
  refine Wakes.invariant (I := fun x => x.io = s.io ∧ x.poller = s.poller) (fun _ _ hx => hx) ?_ h
    ⟨rfl, rfl⟩
  intro o x t success x' hx hwake
  obtain ⟨_, cap, _, rfl⟩ := workerWakeTaskLocked_some hwake
  exact hx

/-- A channel operation leaves the wait table and the poller alone. -/
theorem ChanView.io {s s' : Sys} (h : ChanView s s') : s'.io = s.io ∧ s'.poller = s.poller := by
  cases h with
  | memory κ => exact ⟨rfl, rfl⟩
  | wakes hlock hw => exact hw.io
  | park hlock hw hpc hframe frame =>
      unfold workerParkCurrentOnChannelLocked
      split
      · exact hw.io
      · exact hw.io
  | shutdown hlock hlife hclose => exact (croutineChannelShutdownAllLocked_wakes hclose).io
  | returned hpc κ => exact ⟨rfl, rfl⟩

/-- **What a step does to the wait table and the poller.** -/
theorem step_ioMove {a : Action} {s s' : Sys} (hstep : step s a = .ok s')
    (hagree : IoAgree s.tasks s.io) (hlife : LifeInv s) (hdown : s'.life ≠ .down) :
    IoMove s a s' := by
  rcases step_kind hstep with hc | hs
  · exact .quiet hc.view.io.1 hc.view.io.2
  · exact hs.ioMove hagree hlife hdown

/-! ## Changes of the poller -/

/-- One change of a poller: a call of `croutine_poller_set` that is told what the kernel
watches, or a change of readiness. -/
inductive PollerChange (p : Poller) : Poller → Prop
  | set (o : PollerOracle) {fd : Int} {old : IoEvents} (new : IoEvents)
      (hfd : isInt fd = true ∨ old ≠ .none) (hold : p.Watches fd old) :
      PollerChange p (croutinePollerSet o p fd old new).1
  | ready (mask : Int → EpollMask) : PollerChange p { p with ready := mask }

abbrev PollerChanges : Poller → Poller → Prop := Relation.ReflTransGen PollerChange

/-- The old events of a wake are those the kernel watches. -/
theorem TaskInv.wakeIo_changes {o : Oracle} {s s' : Sys} {fd : Int} {ready : IoEvents}
    {success : Bool} {period n : Nat} (h : TaskInv s)
    (hw : wakeWaitingTasksLocked o s fd ready success period = .ok (s', n)) :
    PollerChanges s.poller s'.poller := by
  rcases wakeWaitingTasksLocked_ok hw with ⟨_, rfl, _⟩ |
    ⟨i, entry, tasks, rest, poller, s1, hfind, hentry, _, hset, hfold, rfl, _⟩
  · exact .refl
  · obtain ⟨e, hget, _, _, hlook⟩ := ioWaitTableFind_some h.agree.valid hfind
    have he : entry = e := by rw [hentry, List.getD_eq_getElem?_getD, hget]; rfl
    subst he
    have hwatch := h.watches_entry hlook
    obtain ⟨tasks1, runq1, log1, rfl, _⟩ := wakeIoTasks_frame _ hfold
    have hchange := PollerChange.set o.poller (ioWaitEntryEvents rest)
      (.inr (h.agree.busy fd entry hlook)) hwatch
    rw [hset] at hchange
    split
    · exact .single hchange
    · exact .single hchange

/-- A worker that leaves the poller moves no task. -/
theorem TaskInv.releasePoller {s : Sys} (h : TaskInv s) : TaskInv (releasePoller s) :=
  h.signals _ rfl (Signals.condBroadcast s.wk)

/-- **Every step reaches the poller through its interface.** -/
theorem IoMove.pollerChanges {a : Action} {s s' : Sys} (h : IoMove s a s') (ht : TaskInv s) :
    PollerChanges s.poller s'.poller := by
  cases h with
  | quiet hio hpoller => rw [hpoller]
  | ready mask hio hpoller =>
      rw [hpoller]
      exact .single (.ready mask)
  | forget ha hlock hwake hio hpoller =>
      rw [hpoller]
      exact ht.wakeIo_changes hwake
  | @park o w t fd d hint hlife hpc hpark =>
      have hchange := PollerChange.set o.poller ((s.io.events fd).union (IoEvents.none.put d true))
        (.inl hint) (ht.watch hlife fd)
      cases hpark with
      | refused hvalid hlook hpoller =>
          rcases hpoller with rfl | hset
          · exact .refl
          · rw [hset] at hchange
            exact .single hchange
      | parked hrun hins hfree hset =>
          rw [hins.events, hset] at hchange
          exact .single hchange
  | @batch o w events s1 ha hpc hlock hbatch hio hpoller =>
      rw [hpoller]
      refine (Res.foldlM_induct (I := fun x => TaskInv x ∧ x.wk.lock = none ∧
        PollerChanges s.poller x.poller) ?_ events ⟨ht.releasePoller, hlock, .refl⟩ hbatch).2.2
      rintro x e x' ⟨hx, hl, hchanges⟩ hstep
      obtain ⟨n, hwake⟩ := applyPollEvent_ok hstep
      exact ⟨hx.wakeIo hl hwake, (wakeWaitingTasksLocked_woke hwake).fields.2.1.trans hl,
        hchanges.trans (hx.wakeIo_changes hwake)⟩
  | drain hlife hpoller => rw [hpoller]

/-! ## The poller of the runtime -/

/-- A change of a filter does not change the back end. -/
theorem applyFilterChange_backend (o : PollerOracle) (p : Poller) (fd : Int) (filter : Filter)
    (enable : Bool) : (applyFilterChange o p fd filter enable).1.backend = p.backend := by
  unfold applyFilterChange
  split <;> rfl

/-- `croutine_poller_set` on kqueue does not change the back end. -/
theorem kqueuePollerSet_backend (o : PollerOracle) (p : Poller) (fd : Int) (old new : IoEvents) :
    (kqueuePollerSet o p fd old new).1.backend = p.backend := by
  have hsync : ∀ (x : Poller) (filter : Filter),
      (syncFilter o x fd old new filter).1.backend = x.backend := by
    intro x filter
    unfold syncFilter
    split
    · rfl
    · exact applyFilterChange_backend ..
  have hreverse : ∀ x : Poller,
      (reverseFilter o x fd old new .read).1.backend = x.backend := by
    intro x
    unfold reverseFilter
    split
    · rfl
    · exact applyFilterChange_backend ..
  unfold kqueuePollerSet
  split
  · rfl
  · have hread := hsync p .read
    split
    · next p1 heq =>
      rw [heq] at hread
      exact hread
    · next p1 heq =>
      rw [heq] at hread
      have hwrite := hsync p1 .write
      split
      · next p2 heq2 =>
        rw [heq2] at hwrite
        exact hwrite.trans hread
      · next p2 heq2 =>
        rw [heq2] at hwrite
        exact (hreverse p2).trans (hwrite.trans hread)

/-- A change of the poller does not change the back end. -/
theorem PollerChange.backend {p q : Poller} (h : PollerChange p q) : q.backend = p.backend := by
  cases h with
  | @set o fd old new hfd hold =>
      cases hb : p.backend with
      | epoll =>
          obtain ⟨q, ok, hq⟩ : ∃ q ok, croutinePollerSet o p fd old new = (q, ok) := ⟨_, _, rfl⟩
          rw [hq]
          exact (croutinePollerSet_epoll hb hq).interest.1.trans hb
      | kqueue =>
          unfold croutinePollerSet
          rw [hb]
          exact (kqueuePollerSet_backend ..).trans hb
  | ready mask => rfl

/-- What the kernel watches is an `int`. -/
theorem Filed.isInt_of_watched {p : Poller} {fd : Int} {old : IoEvents} (h : Filed p)
    (hfd : isInt fd = true ∨ old ≠ .none) (hold : p.Watches fd old) : isInt fd = true := by
  refine hfd.elim id fun hne => ?_
  have hwatch := (Poller.watches_epoll h.registered.backend).mp hold
  rw [if_neg hne, Option.map_eq_some_iff] at hwatch
  obtain ⟨r, hr, _⟩ := hwatch
  obtain ⟨hlt, hin, _⟩ := h.registered.entry fd r hr
  have hpos := (Poller.inTable_iff.mp hin).1
  simp only [isInt, Bool.and_eq_true, decide_eq_true_eq]
  omega

/-- Every change is a call of the interface. -/
theorem PollerChange.calls {p q : Poller} (h : PollerChange p q) (hp : pollerCalls.Reach p) :
    pollerCalls.Reach q := by
  have hfiled := Filed.reach hp
  cases h with
  | @set o fd old new hfd hold =>
      have hb := hfiled.registered.backend
      have hold' := Filed.watches_registeredEvents hb hold
      refine .step (a := .set o fd new) hp trivial ?_
      show (if isInt fd = true then _ else _ : Res Poller) = _
      rw [if_pos (hfiled.isInt_of_watched hfd hold), hold']
  | ready mask => exact .step (a := .ready mask) hp trivial rfl

/-- What every change of a poller keeps, changes keep. -/
theorem PollerChanges.invariant {I : Poller → Prop}
    (hstep : ∀ p q, PollerChange p q → I p → I q) {p q : Poller} (h : PollerChanges p q)
    (hp : I p) : I q := by
  induction h with
  | refl => exact hp
  | tail _ hchange ih => exact hstep _ _ hchange ih

/-- No change of an epoll poller touches a period that has begun. -/
theorem PollerChanges.later {p q : Poller} (hb : p.backend = .epoll) (h : PollerChanges p q) :
    p.Later q := by
  refine (h.invariant (I := fun x => x.backend = .epoll ∧ p.Later x) ?_ ⟨hb, .refl p⟩).2
  rintro x y hchange ⟨hx, hlater⟩
  refine ⟨hchange.backend.trans hx, hlater.trans ?_⟩
  cases hchange with
  | @set o fd old new hfd hold => exact (croutinePollerSet_epoll hx rfl).later
  | ready mask => exact .ready x mask

/-- What every change of the poller keeps holds of the poller of the runtime. -/
theorem poller_reach {backend : Backend} {allowed : Sys → Action → Prop} {I : Poller → Prop}
    (hinit : ∀ wakeFd, I (initial backend wakeFd 1 1 1).poller)
    (hstep : ∀ p q, PollerChange p q → I p → I q) {s : Sys}
    (h : (runtime backend).ReachVia allowed s) (hlife : s.life ≠ .down) : I s.poller := by
  refine Machine.ReachVia.invariant (I := fun x => x.life ≠ .down → I x.poller) ?_ ?_ h hlife
  · rintro x ⟨wakeFd, workers, runCapacity, ioCapacity, _, _, rfl⟩ _
    exact hinit wakeFd
  · intro x a x' hreach hx _ hs hlife'
    by_cases hdown : x.life = .down
    · have hgone := (IoInv.reach hreach).gone hdown
      have hdown' := ((hgone.step (LifeInv.reach hreach) hdown hs).gone hgone).2.trans hdown
      exact absurd hdown' hlife'
    · have ht := TaskInv.reach hreach hdown
      have hchanges := (step_ioMove hs ht.agree (LifeInv.reach hreach) hlife').pollerChanges ht
      exact PollerChanges.invariant hstep hchanges (hx hdown)

/-- As long as the scheduler exists its poller has the back end it was made with. -/
theorem backend_reach {backend : Backend} {allowed : Sys → Action → Prop} {s : Sys}
    (h : (runtime backend).ReachVia allowed s) (hlife : s.life ≠ .down) :
    s.poller.backend = backend :=
  poller_reach (I := fun p => p.backend = backend) (fun _ => rfl)
    (fun _ _ hchange hp => hchange.backend.trans hp) h hlife

/-- A step only adds to the periods of the registrations. -/
theorem step_later {allowed : Sys → Action → Prop} {s s' : Sys} {a : Action}
    (h : (runtime .epoll).ReachVia allowed s) (hstep : step s a = .ok s')
    (hlife : s.life ≠ .down) (hlife' : s'.life ≠ .down) : s.poller.Later s'.poller :=
  have ht := TaskInv.reach h hlife
  ((step_ioMove hstep ht.agree (LifeInv.reach h) hlife').pollerChanges ht).later
    (backend_reach h hlife)

/-- **The poller of an epoll runtime** is one under calls of its interface. -/
theorem pollerCalls_reach {allowed : Sys → Action → Prop} {s : Sys}
    (h : (runtime .epoll).ReachVia allowed s) (hlife : s.life ≠ .down) :
    pollerCalls.Reach s.poller :=
  poller_reach (fun wakeFd => .init ⟨wakeFd, rfl⟩) (fun _ _ hchange => hchange.calls) h hlife

/-- In every run on epoll the fd table and the kernel's interest list say the same. -/
theorem filed_reach {allowed : Sys → Action → Prop} {s : Sys}
    (h : (runtime .epoll).ReachVia allowed s) (hlife : s.life ≠ .down) : Filed s.poller :=
  Filed.reach (pollerCalls_reach h hlife)

end Croutine
