import Croutine.Teardown

/-!
# The task invariant in every reachable state

The steps of the scheduler as moves of one task, and the induction over runs.
`worker_deinit` finally discards the run queue, so the invariant needs to know that
nothing is left in it at that moment.
-/

namespace Croutine

namespace TaskInv

variable {s s' : Sys} {w : WorkerId} {t : TaskId}

/-- A step that writes none of what the invariant reads but the stage, outside
`worker_deinit`. -/
theorem stage (h : TaskInv s) (life : Lifecycle) (hold : s.life ≠ .drained)
    (hnew : life ≠ .drained) : TaskInv { s with life := life } :=
  ⟨h.placed, h.agree, fun _ => h.watch hold, fun habs => absurd habs hnew⟩

/-- Signals move no task. -/
theorem signals (h : TaskInv s) (wk : Workers) (hlock : wk.lock = s.wk.lock)
    (hsig : Signals s.wk wk) : TaskInv { s with wk := wk } := by
  obtain ⟨loc, hloc⟩ := h.placed
  refine ⟨⟨loc, ?_⟩, h.agree, h.watch, h.emptied⟩
  show Placement _ _ wk.pc wk.lock _ _ _ loc
  rw [hlock]
  exact hloc.signals hsig

/-- A worker with no task in its hands moves to another such point. -/
theorem idlePoint (h : TaskInv s) {p : Pc} {wk : Workers}
    (hpc : wk.pc = Function.update s.wk.pc w p) (hlock : wk.lock = s.wk.lock)
    (hw : (s.wk.pc w).holds = none) (hp : p.holds = none)
    (hpark : (s.wk.pc w).parking = false) (hpark' : p.parking = false)
    (hfits : p.Fits s.tasks) : TaskInv { s with wk := wk } := by
  obtain ⟨loc, hloc⟩ := h.placed
  refine ⟨⟨loc, ?_⟩, h.agree, h.watch, h.emptied⟩
  show Placement _ _ wk.pc wk.lock _ _ _ loc
  rw [hpc, hlock]
  exact hloc.point (hp.trans hw.symm) hfits (hloc.locked.keep (hpark'.trans hpark.symm))

/-! ## Spawning -/

/-- The next identifier moves past the new task, which has a place. -/
theorem unborn_next {tasks : TaskId → Task} {ledger : TaskId → Ledger} {pc : WorkerId → Pc}
    {lock : Option WorkerId} {queue : List TaskId} {spawns : List (Thread × TaskId)}
    {next : TaskId} {loc : TaskId → Place} {b : Place}
    (h : Placement tasks ledger pc lock queue spawns next loc) (hb : b ≠ .unborn) :
    ∀ u, next + 1 ≤ u ↔ Function.update loc next b u = .unborn := by
  intro u
  by_cases hu : u = next
  · subst hu
    rw [Function.update_self]
    exact ⟨fun hle => absurd hle (Nat.not_succ_le_self u), fun habs => absurd habs hb⟩
  · rw [Function.update_of_ne hu, ← h.unborn u]
    exact ⟨Nat.le_of_succ_le, fun hle => Nat.lt_of_le_of_ne hle (Ne.symm hu)⟩

/-- The next task is allocated, and released at once when its stack or its argument
cannot be. -/
theorem spawnAlloc {θ : Thread} {r : SpawnRequest} (h : TaskInv s)
    (hspawn : canSpawn s θ r.isMain = true) : TaskInv (workerSpawnAlloc s θ r) := by
  have hfail : ∀ x : Sys, TaskInv x → x.life = s.life → TaskInv (spawnFailed x r.isMain) := by
    intro x hx hlife
    unfold spawnFailed
    split
    · next hm =>
      have hrun : x.life = .runSpawn := by
        simp only [canSpawn, hm, if_true, Bool.and_eq_true, decide_eq_true_eq] at hspawn
        exact hlife.trans hspawn.1.2
      exact hx.stage _ (by rw [hrun]; simp) (by simp)
    · exact hx
  obtain ⟨loc, hloc⟩ := h.placed
  obtain ⟨hnew, hat⟩ := hloc.next_unborn
  have hfrom : ∀ v, loc s.nextTask ≠ .exec v := by rw [hnew]; simp
  -- the struct was allocated and is free again
  have hfreed : ∀ l : Ledger, Released { l with structFrees := l.structFrees + 1 } →
      TaskInv ({ s with nextTask := s.nextTask + 1 }.freeStruct s.nextTask l) := by
    intro l hl
    refine ⟨⟨Function.update loc s.nextTask .freed, ?_⟩, h.agree, h.watch, h.emptied⟩
    have hmove := hloc.relocate (t := s.nextTask) (τ := s.tasks s.nextTask)
      (b := .freed) hfrom (by simp) ⟨by rw [hat.1], by rw [hat.1], hl⟩
      (hloc.queued.move (by rw [hnew]; simp) (by simp))
      (hloc.spawning.move (by rw [hnew]; simp) (by simp)) (unborn_next hloc (by simp))
    rwa [Function.update_eq_self] at hmove
  rcases workerSpawnAlloc_cases s θ r with heq | ⟨l, hl, heq⟩ | heq <;> rw [heq]
  · exact hfail s h rfl
  · refine hfail _ (hfreed l ?_) rfl
    rcases hl with rfl | rfl <;> exact ⟨⟨rfl, rfl⟩, ⟨rfl, by simp⟩, ⟨rfl, by simp⟩⟩
  · refine ⟨⟨Function.update loc s.nextTask .spawning, ?_⟩, ?_, h.watch, h.emptied⟩
    · exact hloc.relocate hfrom (by simp)
        ⟨⟨rfl, rfl, rfl⟩, rfl, ⟨rfl, ⟨rfl, rfl⟩, ⟨rfl, rfl⟩, ⟨rfl, rfl⟩⟩, rfl⟩
        (hloc.queued.move (by rw [hnew]; simp) (by simp))
        (hloc.spawning.insert (by rw [hnew]; simp) (.refl _)) (unborn_next hloc (by simp))
    · exact h.agree.quiet (by rw [hat.1]; simp) (by simp)

/-- A spawned task is published in the run queue, or released. -/
theorem spawnPublish {o : Oracle} {θ : Thread} (h : TaskInv s) (hlife : LifeInv s)
    (hmem : (θ, t) ∈ s.spawns) : TaskInv (workerSpawnPublish o s θ t) := by
  obtain ⟨loc, hloc⟩ := h.placed
  obtain ⟨hloct, hsettled, _, howned, _⟩ := hloc.spawned hmem
  have hfrom : ∀ v, loc t ≠ .exec v := by rw [hloct]; simp
  have hnot : (s.tasks t).state ≠ .waitingIo := by rw [hsettled.state]; simp
  have hperm : (s.spawns.map Prod.snd).Perm (t :: (s.spawns.erase (θ, t)).map Prod.snd) :=
    (List.perm_cons_erase hmem).map Prod.snd
  have hmain : (s.tasks t).isMain = true → s.life = .runSpawn :=
    fun hm => (hlife.mainSpawn _ hmem hm).2
  have hfail : TaskInv (spawnFailed
      (cleanupTask { s with spawns := s.spawns.erase (θ, t) } t) (s.tasks t).isMain) := by
    have hclean : TaskInv (cleanupTask { s with spawns := s.spawns.erase (θ, t) } t) := by
      refine ⟨⟨Function.update loc t .freed, ?_⟩, ?_, h.watch, h.emptied⟩
      · exact hloc.relocate hfrom (by simp) howned.cleanedAt
          (hloc.queued.move (by rw [hloct]; simp) (by simp))
          (hloc.spawning.remove hperm (by simp)) (hloc.unborn_move (by rw [hloct]; simp) (by simp))
      · exact h.agree.quiet hnot (by simp)
    unfold spawnFailed
    split
    · next hm => exact hclean.stage _ (show s.life ≠ .drained by rw [hmain hm]; simp) (by simp)
    · exact hclean
  rcases workerSpawnPublish_cases o s θ t with heq | ⟨_, s1, hpush, heq⟩ <;> rw [heq]
  · exact hfail
  · rcases taskQueuePush_some hpush with ⟨hq, _⟩ | ⟨_, cap, _, rfl⟩
    · exact absurd (hsettled.queued.symm.trans hq) (by simp)
    · have howned' : Owned { s.tasks t with queued := true }
          { s.ledger t with published := true } :=
        ⟨howned.1, howned.2, howned.3, howned.4⟩
      have hmove := hloc.relocate (t := t) (b := .queue)
        (τ := { s.tasks t with queued := true })
        (l := { s.ledger t with published := true }) hfrom (by simp)
        ⟨⟨hsettled.state, rfl, hsettled.saved⟩, howned', rfl⟩
        (hloc.queued.insert (by rw [hloct]; simp) (List.perm_append_singleton t _))
        (hloc.spawning.remove hperm (by simp)) (hloc.unborn_move (by rw [hloct]; simp) (by simp))
      have hagree : IoAgree (Function.update s.tasks t { s.tasks t with queued := true }) s.io :=
        h.agree.same rfl rfl rfl
      -- the signal and the wake the thread still owes do not move a task
      have hwk : ∀ wk : Workers, wk.lock = s.wk.lock → Signals s.wk wk →
          ∃ loc', Placement (Function.update s.tasks t { s.tasks t with queued := true })
            (Function.update s.ledger t { s.ledger t with published := true })
            wk.pc wk.lock (s.runq.tasks ++ [t]) (s.spawns.erase (θ, t)) s.nextTask loc' := by
        intro wk hl hsig
        rw [hl]
        exact ⟨_, hmove.signals hsig⟩
      refine ⟨hwk _ (published_fields _ o θ t (s.tasks t).isMain).2.2.1
        (published_signals _ o θ t (s.tasks t).isMain), hagree, ?_, ?_⟩
      · intro hne
        refine h.watch fun hd => hne ?_
        have hm : (s.tasks t).isMain ≠ true := fun hm => by
          rw [hmain hm] at hd
          exact absurd hd (by simp)
        simpa [published, taskQueueAppend, Sys.setTask, hm] using hd
      · intro heq
        refine h.emptied ?_
        by_cases hm : (s.tasks t).isMain = true
        · simp [published, hm] at heq
        · simpa [published, taskQueueAppend, Sys.setTask, hm] using heq

/-! ## Waiting for readiness -/

/-- Parking on a descriptor keeps the invariant. -/
theorem waitIo {o : Oracle} {fd : Int} {direction : Filter} (h : TaskInv s)
    (hlock : s.wk.lock = none) (hnd : s.life ≠ .drained) (hpc : s.wk.pc w = .running t) :
    TaskInv (workerParkCurrentOnIo o s w t fd (IoEvents.none.put direction true)) := by
  obtain ⟨loc, hloc⟩ := h.placed
  have hholds : (s.wk.pc w).holds = some t := by rw [hpc]; rfl
  obtain ⟨hqueued, howned, _⟩ := hloc.taskHeld hholds
  obtain ⟨hstate, hsaved⟩ := h.running hpc
  have hnot : (s.tasks t).state ≠ .waitingIo := by rw [hstate]; simp
  have hpark := workerParkCurrentOnIo_cases h.agree o w t fd direction
  generalize workerParkCurrentOnIo o s w t fd (IoEvents.none.put direction true) = x at hpark ⊢
  cases hpark with
  | @refused io poller hvalid hlook hpoller =>
      refine ⟨⟨loc, hloc⟩, h.agree.relayout hvalid hlook, ?_, fun hd => absurd hd hnd⟩
      intro _ g
      have hevents : io.events g = s.io.events g := by
        unfold IoWaitTable.events
        rw [hlook]
      rw [hevents]
      rcases hpoller with rfl | hset
      · exact h.watch hnd g
      · exact (croutinePollerSet_failed rfl hset).2 g _ (h.watch hnd g)
  | @parked hrun io i e poller hins hfree hset =>
      have hheld : LockHeld none s.wk.pc := by rw [← hlock]; exact hloc.locked
      have hagree := h.agree.park hins hfree hnot (τ := { s.tasks t with
          state := .waitingIo, ioFd := fd, ioEvents := IoEvents.none.put direction true,
          ioWakeSuccess := false, frame := .ioWait, ioPeriod := poller.periodOf fd })
        rfl rfl rfl (parkOnIo_slot e t direction) hins.inUse hins.fdEq
      refine ⟨⟨loc, ?_⟩, hagree, ?_, fun hd => absurd hd hnd⟩
      · refine hloc.advance hholds rfl hqueued ⟨howned.1, howned.2, howned.3, howned.4⟩ ?_
          (hheld.acquire rfl)
        simp [Pc.Fits, TaskState.waiting]
      · intro _
        exact watch_park (h.watch hnd) hins (parkOnIo_slot e t direction) hins.inUse hins.fdEq hset

/-! ## The scheduling loop -/

/-- The loop body keeps the invariant. -/
theorem loopOutcome {checked : Bool} (h : TaskInv s) (hw : (s.wk.pc w).holds = none)
    (hpark : (s.wk.pc w).parking = false) (hout : LoopOutcome w checked s s') :
    TaskInv s' := by
  cases hout with
  | exit hstop => exact h.idlePoint rfl rfl hw rfl hpark rfl trivial
  | poll hgo hidle htimeout => exact h.idlePoint rfl rfl hw rfl hpark rfl trivial
  | @dispatch hgo t rest hqueue =>
      obtain ⟨loc, hloc⟩ := h.placed
      have hqueued : Placement s.tasks s.ledger s.wk.pc s.wk.lock (t :: rest) s.spawns
          s.nextTask loc := by
        rw [← hqueue]; exact hloc
      exact ⟨⟨_, hqueued.dispatch hw hpark⟩, h.agree.same rfl rfl rfl, h.watch, h.emptied⟩
  | sleep hgo hactive hqueue => exact h.idlePoint rfl rfl hw rfl hpark rfl trivial

/-- Applying a batch of events leaves the worker that applies it where it is. -/
theorem pollBatch {o : Oracle} {events : List PollEvent} (h : TaskInv s)
    (hlock : s.wk.lock = none) (hbatch : events.foldlM (applyPollEvent o) s = .ok s') :
    TaskInv s' ∧ s'.wk.lock = none ∧ Signals s.wk s'.wk := by
  refine Res.foldlM_induct (I := fun x => TaskInv x ∧ x.wk.lock = none ∧ Signals s.wk x.wk) ?_
    events ⟨h, hlock, fun _ => .inl rfl⟩ hbatch
  intro x e x' hx hstep
  obtain ⟨hinv, hl, hsig⟩ := hx
  obtain ⟨n, hwake⟩ := applyPollEvent_ok hstep
  have hwoke := wakeWaitingTasksLocked_woke hwake
  exact ⟨hinv.wakeIo hl hwake, hwoke.fields.2.1.trans hl, hsig.trans hwoke.signals⟩

/-! ## A task in a worker's hands -/

/-- A worker moves on with its task in a step that changes the task as `hstate` and
`hfits` say. -/
theorem heldTask (h : TaskInv s) {p : Pc} {task : Task} (hw : (s.wk.pc w).holds = some t)
    (hp : p.holds = some t) (hpark : p.parking = (s.wk.pc w).parking)
    (hqueued : task.queued = (s.tasks t).queued) (hstack : task.hasStack = (s.tasks t).hasStack)
    (harg : task.ownsArg = (s.tasks t).ownsArg)
    (hfits : p.Fits (Function.update s.tasks t task))
    (hagree : IoAgree (Function.update s.tasks t task) s.io) :
    TaskInv ((s.setTask t task).setPc w p) := by
  obtain ⟨loc, hloc⟩ := h.placed
  obtain ⟨hq, howned, _⟩ := hloc.taskHeld hw
  refine ⟨⟨loc, ?_⟩, hagree, h.watch, h.emptied⟩
  refine hloc.advance hw hp (hqueued.trans hq) ⟨?_, howned.object, howned.stack, ?_⟩ hfits
    (hloc.locked.keep hpark)
  · rw [hstack]; exact howned.hasStack
  · rw [harg]; exact howned.arg

/-- A worker moves on with its task unchanged. -/
theorem heldPoint (h : TaskInv s) {p : Pc} (hp : p.holds = (s.wk.pc w).holds)
    (hpark : p.parking = (s.wk.pc w).parking) (hfits : p.Fits s.tasks) :
    TaskInv (s.setPc w p) := by
  obtain ⟨loc, hloc⟩ := h.placed
  exact ⟨⟨loc, hloc.point hp hfits (hloc.locked.keep hpark)⟩, h.agree, h.watch, h.emptied⟩

/-- What holds of the task at a worker's program point. -/
theorem fits (h : TaskInv s) {p : Pc} (hpc : s.wk.pc w = p) : p.Fits s.tasks := by
  obtain ⟨loc, hloc⟩ := h.placed
  have := hloc.points w
  rwa [hpc] at this

/-- The return of a task's function keeps the invariant. -/
theorem taskReturn (h : TaskInv s) (hpc : s.wk.pc w = .running t)
    (hframe : (s.tasks t).frame = .user) : TaskInv (taskReturn s w t) := by
  have hholds : (s.wk.pc w).holds = some t := by rw [hpc]; rfl
  have hstate := (h.running hpc).1
  unfold Croutine.taskReturn
  refine h.heldTask hholds ?_ ?_ rfl rfl rfl ?_ ?_
  · split <;> rfl
  · rw [hpc]
    split <;> rfl
  · split <;> simp [Pc.Fits, hframe]
  · exact h.agree.quiet (by rw [hstate]; simp) (by simp)

/-- Saving the context of a task that leaves keeps the invariant. -/
theorem switchOut {st : TaskState} (h : TaskInv s) (hpc : s.wk.pc w = .switching t st) :
    TaskInv ((s.setTask t { s.tasks t with contextSaved := true }).setPc w
      (if st.waiting then .returned t st else .reread t st)) := by
  have hholds : (s.wk.pc w).holds = some t := by rw [hpc]; rfl
  obtain ⟨hstate, hframe⟩ := h.fits hpc
  have hagree : IoAgree (Function.update s.tasks t { s.tasks t with contextSaved := true }) s.io :=
    h.agree.same rfl rfl rfl
  by_cases hst : st.waiting = true
  · rw [if_pos hst]
    refine h.heldTask hholds rfl ?_ rfl rfl rfl ?_ hagree
    · rw [hpc]; rfl
    · simp [Pc.Fits, hstate, hst]
  · rw [if_neg hst]
    have hst : st.waiting = false := by simpa using hst
    refine h.heldTask hholds ?_ ?_ rfl rfl rfl ?_ hagree
    · simp [Pc.holds, hst]
    · rw [hpc]; exact hst.symm
    · intro _
      simp [hstate, hframe hst]

/-- The worker releases the lock that its parked task handed over. -/
theorem release {st : TaskState} (h : TaskInv s) (hpc : s.wk.pc w = .returned t st) :
    TaskInv (s.mapWk fun wk => { wk.setPc w (.reread t st) with lock := none }) := by
  obtain ⟨loc, hloc⟩ := h.placed
  have hholds : (s.wk.pc w).holds = some t := by rw [hpc]; rfl
  obtain ⟨hqueued, howned, hpub⟩ := hloc.taskHeld hholds
  obtain ⟨hstate, hst, hsaved⟩ := h.fits hpc
  have hpark : (s.wk.pc w).parking = true := by rw [hpc]; exact hst
  have hnone : (Pc.reread t st).holds = none := by simp [Pc.holds, hst]
  have hexec : loc t = .exec w := (hloc.held w t).mp hholds
  -- the place follows from the state in which the task parked
  have hmove : ∀ b : Place, TaskAt (s.tasks t) (s.ledger t) b → (∀ v, b ≠ .exec v) →
      b ≠ .queue → b ≠ .spawning → b ≠ .unborn →
      TaskInv (s.mapWk fun wk => { wk.setPc w (.reread t st) with lock := none }) := by
    intro b hat hb hq hs hu
    refine ⟨⟨Function.update loc t b, ?_⟩, h.agree, h.watch, h.emptied⟩
    have hleave := hloc.leave hholds hnone hb hat (p := .reread t st)
      (by intro habs; rw [hst] at habs; exact absurd habs (by simp))
      (hloc.locked.release hpark rfl) (hloc.queued.move (by rw [hexec]; simp) hq) hs hu
    rw [Function.update_eq_self, Function.update_eq_self] at hleave
    exact hleave
  cases st with
  | runnable | finished => exact absurd hst (by simp [TaskState.waiting])
  | waitingIo =>
      exact hmove .io ⟨⟨hstate, hqueued, hsaved⟩, howned, hpub⟩ (by simp) (by simp) (by simp)
        (by simp)
  | waitingChannel =>
      exact hmove .channel ⟨⟨hstate, hqueued, hsaved⟩, howned, hpub⟩ (by simp) (by simp)
        (by simp) (by simp)

/-- The second look at the state of a task that has left keeps the invariant. -/
theorem reread {st : TaskState} (h : TaskInv s) (hpc : s.wk.pc w = .reread t st) :
    TaskInv (s.setPc w (afterReread s t st)) := by
  have hfits := h.fits hpc
  cases st with
  | runnable =>
      obtain ⟨hstate, hsaved, hframe⟩ := hfits rfl
      unfold afterReread
      dsimp only
      split
      · refine h.heldPoint (by rw [hpc]; rfl) (by rw [hpc]; rfl) ⟨?_, hframe⟩
        rw [hstate]; rfl
      · exact h.heldPoint (by rw [hpc]; rfl) (by rw [hpc]; rfl) ⟨hstate, hsaved, hframe⟩
  | finished =>
      obtain ⟨hstate, hsaved, hframe⟩ := hfits rfl
      refine h.heldPoint (by rw [hpc]; rfl) (by rw [hpc]; rfl) ⟨?_, hframe⟩
      rw [hstate]; rfl
  | waitingIo | waitingChannel =>
      exact h.heldPoint (by rw [hpc]; rfl) (by rw [hpc]; rfl) trivial

/-- Requeuing a task that was woken too early keeps the invariant. -/
theorem requeue {o : Oracle} (h : TaskInv s) (hpc : s.wk.pc w = .requeue t)
    (hrequeue : requeueTask o w t s = .ok s') : TaskInv s' := by
  obtain ⟨s1, hpush, rfl⟩ := requeueTask_ok hrequeue
  obtain ⟨loc, hloc⟩ := h.placed
  have hholds : (s.wk.pc w).holds = some t := by rw [hpc]; rfl
  obtain ⟨hqueued, howned, hpub⟩ := hloc.taskHeld hholds
  obtain ⟨hstate, hsaved, hframe⟩ := h.fits hpc
  have hexec : loc t = .exec w := (hloc.held w t).mp hholds
  rcases taskQueuePush_some hpush with ⟨hq, _⟩ | ⟨_, cap, _, rfl⟩
  · exact absurd (hqueued.symm.trans hq) (by simp)
  · have hsig := Signals.condSignal o.pick s.wk
    have hpc' : (s.wk.condSignal o.pick).pc w = .requeue t := by
      rw [hsig.fixed (by rw [hpc]; rfl), hpc]
    have hloc' := hloc.signals hsig
    have howned' : Owned { s.tasks t with queued := true } (s.ledger t) :=
      ⟨howned.1, howned.2, howned.3, howned.4⟩
    refine ⟨⟨Function.update loc t .queue, ?_⟩, h.agree.same rfl rfl rfl, h.watch, h.emptied⟩
    have hleave := hloc'.leave (w := w) (t := t) (p := .top false) (b := .queue)
      (τ := { s.tasks t with queued := true }) (l := s.ledger t) (by rw [hpc']; rfl) rfl
      (by simp) ⟨⟨hstate, rfl, hsaved⟩, howned', hpub⟩ trivial
      (hloc'.locked.keep (by rw [hpc']; rfl))
      (hloc'.queued.insert (by rw [hexec]; simp) (List.perm_append_singleton t _))
      (by simp) (by simp)
    rw [Function.update_eq_self] at hleave
    show Placement _ _ _ (s.wk.condSignal o.pick).lock _ _ _ _
    rw [(s.wk.condSignal_fields o.pick).2.1]
    exact hleave

/-- Cleaning up a finished task keeps the invariant. -/
theorem cleanup (h : TaskInv s) (hpc : s.wk.pc w = .cleanup t) :
    TaskInv ((cleanupTask s t).setPc w (.top false)) := by
  obtain ⟨loc, hloc⟩ := h.placed
  have hholds : (s.wk.pc w).holds = some t := by rw [hpc]; rfl
  obtain ⟨_, howned, _⟩ := hloc.taskHeld hholds
  have hexec : loc t = .exec w := (hloc.held w t).mp hholds
  have hnot : (s.tasks t).state ≠ .waitingIo := by
    intro habs
    have := (h.fits hpc).1
    rw [habs] at this
    exact absurd this (by simp [TaskState.waiting])
  refine ⟨⟨Function.update loc t .freed, ?_⟩, h.agree.quiet hnot (by simp), h.watch, h.emptied⟩
  exact hloc.leave hholds rfl (by simp) howned.cleanedAt trivial
    (hloc.locked.keep (by rw [hpc]; rfl)) (hloc.queued.move (by rw [hexec]; simp) (by simp))
    (by simp) (by simp)

/-! ## Every step -/

/-- Closing the scheduler over an empty queue keeps the invariant. -/
theorem deinitClose (h : TaskInv s) (hlife : s.life = .drained) (hqueue : s.runq.tasks = []) :
    TaskInv (workerDeinitClose s) := by
  obtain ⟨loc, hloc⟩ := h.placed
  refine ⟨⟨loc, ?_⟩, ?_, ?_, fun hd => absurd hd (by simp [workerDeinitClose])⟩
  · have hempty : Placement s.tasks s.ledger s.wk.pc s.wk.lock [] s.spawns s.nextTask loc := by
      rw [← hqueue]; exact hloc
    exact hempty
  · exact h.agree.relayout ⟨List.Pairwise.nil, rfl⟩ fun g => (h.emptied hlife g).symm
  · intro _ fd
    unfold Poller.Watches
    cases hb : s.poller.backend <;> simp [workerDeinitClose, hb] <;> rfl

/-- **Task invariant, scheduler.** A scheduler step keeps the invariant, if it closes the
scheduler only over an empty queue. -/
theorem schedStep {a : Action} (h : TaskInv s) (hlife : LifeInv s)
    (hclose : s'.life = .down → s.runq.tasks = []) (hstep : SchedStep s a s') :
    TaskInv s' := by
  cases hstep with
  | spawnAlloc hspawn hdown => exact h.spawnAlloc hspawn
  | spawnPublish hlock hmem => exact h.spawnPublish hlife hmem
  | forgetFd hlock hint hforget =>
      rcases workerForgetFd_ok hforget with ⟨_, rfl⟩ | ⟨_, s1, n, hwake, rfl⟩
      · exact h
      · have h1 := h.wakeIo hlock hwake
        split
        · exact h1.signals _ rfl fun _ => .inl rfl
        · exact h1
  | pollerWake hmem => exact h.signals _ rfl fun _ => .inl rfl
  | @waitIo hlock o w t fd direction hint hpc hframe =>
      exact h.waitIo hlock (hlife.not_drained (w := w) (by rw [hpc]; rfl)) hpc
  | yield hpc hframe =>
      refine h.heldPoint (by rw [hpc]; rfl) (by rw [hpc]; rfl) ⟨(h.running hpc).1, fun _ => hframe⟩
  | @returnIo w t hpc hframe =>
      exact h.returned hpc
  | taskReturn hpc hframe => exact h.taskReturn hpc hframe
  | @finishMain w t hpc =>
      have h1 : TaskInv { s with mainFinished := true } := ⟨h.placed, h.agree, h.watch, h.emptied⟩
      exact h1.heldPoint (w := w) (by show _ = (s.wk.pc w).holds; rw [hpc]; rfl)
        (by show _ = (s.wk.pc w).parking; rw [hpc]; rfl) ⟨(h.fits hpc).1, (h.fits hpc).2⟩
  | @finishSched hlock w t hpc =>
      have h1 : TaskInv { s with
          schedulerMainFinished := true, wk := s.wk.condBroadcast.owe (.worker w) } :=
        have hsig := h.signals (s.wk.condBroadcast.owe (.worker w)) rfl
          (Signals.condBroadcast s.wk)
        ⟨hsig.placed, hsig.agree, hsig.watch, hsig.emptied⟩
      have hpc1 : (s.wk.condBroadcast.owe (.worker w)).pc w = .finishSched t := by
        show (s.wk.pc w).signal = _
        rw [hpc]; rfl
      obtain ⟨hstate, hframe⟩ := h.fits hpc
      exact h1.heldPoint (w := w) (p := .switching t .finished)
        (by show _ = ((s.wk.condBroadcast.owe (.worker w)).pc w).holds; rw [hpc1]; rfl)
        (by show _ = ((s.wk.condBroadcast.owe (.worker w)).pc w).parking; rw [hpc1]; rfl)
        ⟨hstate, fun _ => hframe⟩
  | switchOut hpc => exact h.switchOut hpc
  | release hpc => exact h.release hpc
  | reread hlock hpc => exact h.reread hpc
  | requeue hlock hpc hrequeue => exact h.requeue hpc hrequeue
  | cleanup hpc => exact h.cleanup hpc
  | @loop hlock w checked hpc =>
      exact h.loopOutcome (by rw [hpc]; rfl) (by rw [hpc]; rfl) (loopBody_outcome w checked s)
  | @condReturn hlock w signalled checked hpc =>
      have h1 : TaskInv (s.mapWk fun wk => { wk with idleWorkers := wk.idleWorkers - 1 }) :=
        h.signals _ rfl fun _ => .inl rfl
      exact h1.loopOutcome (w := w) (by show (s.wk.pc w).holds = none; rw [hpc]; rfl)
        (by show (s.wk.pc w).parking = false; rw [hpc]; rfl) (loopBody_outcome w checked _)
  | kernelReturn hpc hbatch =>
      exact h.heldPoint (by rw [hpc]; rfl) (by rw [hpc]; rfl) trivial
  | kernelError hpc => exact h.heldPoint (by rw [hpc]; rfl) (by rw [hpc]; rfl) trivial
  | filterBatch hpc =>
      exact h.idlePoint rfl rfl (by rw [hpc]; rfl) rfl (by rw [hpc]; rfl) rfl trivial
  | @pollReturn hlock o w events s1 hpc hpoll =>
      have hrelease : TaskInv (releasePoller s) := h.signals _ rfl (Signals.condBroadcast s.wk)
      have hpc1 : (releasePoller s).wk.pc w = .filtered events := by
        show (s.wk.pc w).signal = _
        rw [hpc]; rfl
      rcases leavePoll_ok hpoll with ⟨_, rfl⟩ | ⟨_, s2, hbatch, hout⟩
      · exact hrelease.heldPoint (by rw [hpc1]; rfl) (by rw [hpc1]; rfl) trivial
      · obtain ⟨h2, _, hsig⟩ := hrelease.pollBatch hlock hbatch
        have hpc2 : s2.wk.pc w = .filtered events := by
          rw [hsig.fixed (by rw [hpc1]; rfl), hpc1]
        exact h2.loopOutcome (by rw [hpc2]; rfl) (by rw [hpc2]; rfl) hout
  | @pollFailed hlock o w s1 hpc hpoll =>
      obtain ⟨_, rfl⟩ := leavePollError_ok hpoll
      have hrelease : TaskInv (releasePoller s) := h.signals _ rfl (Signals.condBroadcast s.wk)
      have hpc1 : (releasePoller s).wk.pc w = .pollError := by
        show (s.wk.pc w).signal = _
        rw [hpc]; rfl
      exact hrelease.heldPoint (by rw [hpc1]; rfl) (by rw [hpc1]; rfl) trivial
  | @resume w t hpc =>
      have hholds : (s.wk.pc w).holds = some t := by rw [hpc]; rfl
      have hstate := (h.fits hpc).1
      refine h.heldTask hholds rfl ?_ rfl rfl rfl ?_ (h.agree.same rfl rfl rfl)
      · rw [hpc]; rfl
      · simp [Pc.Fits, hstate]
  | setReady fd mask => exact ⟨h.placed, h.agree, h.watch, h.emptied⟩
  | runtimeInit hlock hpre =>
      have h1 := h.stage .inited (by rw [hpre]; simp) (by simp)
      exact ⟨h1.placed, h1.agree, h1.watch, h1.emptied⟩
  | runCall hl => exact h.stage _ (by rw [hl]; simp) (by simp)
  | @createWorker k hl hk howes =>
      have hquiet : s.wk.pc k = .notStarted := by
        by_contra hne
        have := hlife.started k hne
        rw [hl] at this
        exact absurd this (Nat.lt_irrefl k)
      have h1 := h.heldPoint (w := k) (p := .top false) (by rw [hquiet]; rfl)
        (by rw [hquiet]; rfl) trivial
      exact h1.stage _ (show s.life ≠ .drained by rw [hl]; simp) (by simp)
  | waitForMain hl => exact h.stage _ (by rw [hl]; simp) (by simp)
  | joinWorkers hl hall => exact h.stage _ (by rw [hl]; simp) (by simp)
  | deinitDrain hlock hl =>
      obtain ⟨hdrain, _, hempty⟩ := workerDeinitDrain_inv h hlock
      exact ⟨hdrain.placed, hdrain.agree, fun habs => absurd rfl habs, fun _ => hempty⟩
  | deinitClose hl => exact h.deinitClose hl (hclose rfl)

theorem initial (backend : Backend) (wakeFd : Int) (workers runCapacity ioCapacity : Nat) :
    TaskInv (initial backend wakeFd workers runCapacity ioCapacity) := by
  have hlookup : ∀ fd, IoWaitTable.lookup
      ⟨List.replicate ioCapacity ioWaitEntryReset, 0⟩ fd = none := by
    intro fd
    refine Slots.lookup_eq_none_iff.mpr ?_
    intro e he hused
    rw [List.eq_of_mem_replicate he] at hused
    exact absurd hused Bool.false_ne_true
  refine ⟨⟨fun _ => .unborn, ?_⟩, ⟨⟨?_, ?_⟩, ?_, ?_, ?_⟩, ?_, ?_⟩
  · exact ⟨fun _ => ⟨rfl, rfl⟩, fun w t => by simp [Croutine.initial, Pc.holds],
      ⟨fun t => by simp [Croutine.initial], List.nodup_nil⟩,
      ⟨fun t => by simp [Croutine.initial], List.nodup_nil⟩,
      fun t => by simp [Croutine.initial], fun _ => trivial,
      fun w => by simp [Croutine.initial, Pc.parking]⟩
  · exact List.pairwise_replicate.mpr (.inr fun habs => absurd habs Bool.false_ne_true)
  · show 0 = (List.replicate ioCapacity ioWaitEntryReset).countP (·.inUse)
    rw [List.countP_replicate]
    rfl
  · intro fd e he
    rw [show (Croutine.initial backend wakeFd workers runCapacity ioCapacity).io.lookup fd = none
      from hlookup fd] at he
    simp at he
  · intro fd d t
    unfold IoWaitTable.slot
    rw [show (Croutine.initial backend wakeFd workers runCapacity ioCapacity).io.lookup fd = none
      from hlookup fd]
    simp [Task.WaitsFor, Croutine.initial]
  · intro t hw
    simp [Croutine.initial] at hw
  · intro _ fd
    unfold IoWaitTable.events
    rw [show (Croutine.initial backend wakeFd workers runCapacity ioCapacity).io.lookup fd = none
      from hlookup fd]
    unfold Poller.Watches
    cases backend <;> rfl
  · intro habs
    simp [Croutine.initial] at habs

end TaskInv

/-! ## After `worker_deinit` -/

/-- The queue, the table and the poller are closed. -/
structure Gone (s : Sys) : Prop where
  runq : s.runq = ⟨[], 0⟩
  io : s.io = ⟨[], 0⟩
  watch : ∀ fd, s.poller.Watches fd .none

/-- After `worker_deinit` the scheduler is gone. -/
theorem Gone.deinitClose (s : Sys) : Gone (workerDeinitClose s) := by
  refine ⟨rfl, rfl, fun fd => ?_⟩
  unfold Poller.Watches
  cases hb : s.poller.backend <;> simp [workerDeinitClose, hb]

/-- A queue without a ring takes no task. -/
theorem Gone.wake_none {s : Sys} (h : Gone s) (o : Oracle) (t : TaskId) (success : Bool) :
    workerWakeTaskLocked o s t success = none := by
  unfold workerWakeTaskLocked
  split
  · rfl
  · rw [Option.map_eq_none_iff]
    unfold enqueueRunnableTaskLocked taskQueuePush
    rw [if_pos]
    show s.runq.capacity = 0
    rw [h.runq]

/-- Once the scheduler is gone, channel operations wake nobody. -/
theorem Gone.wakes {s s' : Sys} (h : Gone s) (hw : Wakes s s') :
    ∃ κ, s' = { s with ch := κ } := by
  induction hw with
  | refl => exact ⟨s.ch, rfl⟩
  | tail _ hstep ih =>
      obtain ⟨κ, rfl⟩ := ih
      cases hstep with
      | chans x κ' => exact ⟨κ', rfl⟩
      | wake hwake =>
          have hgone : Gone { s with ch := κ } := ⟨h.runq, h.io, h.watch⟩
          rw [hgone.wake_none] at hwake
          exact absurd hwake (by simp)

/-- What can still happen once the scheduler is gone: channel operations of external
threads that wake nobody, and the end of spawns that were under way. -/
inductive GoneStep (s : Sys) : Sys → Prop
  | chans (κ : Chans) : GoneStep s { s with ch := κ }
  | publish {θ : Thread} {t : TaskId} (hmem : (θ, t) ∈ s.spawns) :
      GoneStep s (cleanupTask { s with spawns := s.spawns.erase (θ, t) } t)
  | owed (θ : Thread) :
      GoneStep s (s.mapWk fun wk => { wk.pollerWake with owes := wk.owes.erase θ })
  | ready (r : Int → EpollMask) : GoneStep s { s with poller := { s.poller with ready := r } }

/-- No worker is alive any more. -/
theorem LifeInv.down_dead {s : Sys} (h : LifeInv s) (hdown : s.life = .down) {w : WorkerId}
    {p : Pc} (hpc : s.wk.pc w = p) (halive : p.alive = true) : False := by
  have hquiet := h.quiet (by rw [hdown]; rfl) w
  rw [hpc, halive] at hquiet
  exact absurd hquiet (by simp)

/-- **Scheduler steps after the end.** They end spawns and pay debts, and leave the channels.
-/
theorem Gone.schedStep {a : Action} {s s' : Sys} (h : Gone s) (hlife : LifeInv s)
    (hdown : s.life = .down) (hstep : SchedStep s a s') : GoneStep s s' ∧ s'.ch = s.ch := by
  have hdead : ∀ {w p}, s.wk.pc w = p → p.alive = true → False :=
    fun hpc halive => hlife.down_dead hdown hpc halive
  cases hstep with
  | spawnAlloc hspawn hne => exact absurd hdown hne
  | @spawnPublish hlock o θ t hmem =>
      have hmain : (s.tasks t).isMain = false := by
        by_contra hm
        have hl := (hlife.mainSpawn _ hmem (by simpa using hm)).2
        exact absurd (hdown.symm.trans hl) (by simp)
      have hshut : s.shutdownRequested = true := hlife.ending (by rw [hdown]; rfl)
      rw [workerSpawnPublish_of_shutdown hshut, hmain]
      exact ⟨.publish hmem, rfl⟩
  | forgetFd hlock hint hforget =>
      have hsame : GoneStep s s := .chans s.ch
      rcases workerForgetFd_ok hforget with ⟨_, rfl⟩ | ⟨_, s1, n, hwake, rfl⟩
      · exact ⟨hsame, rfl⟩
      · unfold wakeWaitingTasksLocked at hwake
        rw [h.io] at hwake
        obtain ⟨rfl, rfl⟩ := Prod.mk.inj (Except.ok.inj hwake)
        simpa using hsame
  | pollerWake hmem => exact ⟨.owed _, rfl⟩
  | setReady fd mask => exact ⟨.ready _, rfl⟩
  | waitIo hlock hint hpc hframe => exact (hdead hpc rfl).elim
  | yield hpc hframe | returnIo hpc hframe | taskReturn hpc hframe =>
      exact (hdead hpc rfl).elim
  | finishMain hpc | switchOut hpc | release hpc | cleanup hpc | resume hpc | kernelError hpc
  | filterBatch hpc => exact (hdead hpc rfl).elim
  | finishSched hlock hpc | reread hlock hpc | loop hlock hpc | condReturn hlock hpc =>
      exact (hdead hpc rfl).elim
  | requeue hlock hpc h | pollReturn hlock hpc h | pollFailed hlock hpc h =>
      exact (hdead hpc rfl).elim
  | kernelReturn hpc hbatch => exact (hdead hpc rfl).elim
  | runtimeInit hlock hl => exact absurd (hdown.symm.trans hl) (by simp)
  | runCall hl | createWorker hl | waitForMain hl | joinWorkers hl =>
      exact absurd (hdown.symm.trans hl) (by simp)
  | deinitDrain hlock hl => exact absurd (hdown.symm.trans hl) (by simp)
  | deinitClose hl => exact absurd (hdown.symm.trans hl) (by simp)

/-- **Steps after the end.** Once the runtime is down, a step is one of those that can still
happen. -/
theorem Gone.step {a : Action} {s s' : Sys} (h : Gone s) (hlife : LifeInv s)
    (hdown : s.life = .down) (hstep : step s a = .ok s') : GoneStep s s' := by
  rcases step_kind hstep with hc | hs
  · cases hc.view with
    | memory κ => exact .chans κ
    | wakes hlock hw =>
        obtain ⟨κ, rfl⟩ := h.wakes hw
        exact .chans κ
    | park hlock hw hpc hframe frame => exact (hlife.down_dead hdown hpc rfl).elim
    | shutdown hlock hmove hclose =>
        cases hmove with
        | request hinit => exact absurd hinit (by simp [Sys.initialized, hdown])
        | allocFailed hl | createFailed hl => exact absurd (hdown.symm.trans hl) (by simp)
        | shutdownCall hl =>
            rcases hl with hl | hl <;> exact absurd (hdown.symm.trans hl) (by simp)
    | returned hpc κ => exact (hlife.down_dead hdown hpc rfl).elim
  · exact (h.schedStep hlife hdown hs).1

/-- What still happens leaves the scheduler gone and the lifecycle as it was. -/
theorem GoneStep.gone {s s' : Sys} (h : GoneStep s s') (hs : Gone s) :
    Gone s' ∧ s'.life = s.life := by
  cases h with
  | chans κ => exact ⟨⟨hs.runq, hs.io, hs.watch⟩, rfl⟩
  | publish hmem => exact ⟨⟨hs.runq, hs.io, hs.watch⟩, rfl⟩
  | owed θ => exact ⟨⟨hs.runq, hs.io, hs.watch⟩, rfl⟩
  | ready r => exact ⟨⟨hs.runq, hs.io, hs.watch⟩, rfl⟩

/-- The loop body leaves the lifecycle. -/
theorem LoopOutcome.life {w : WorkerId} {checked : Bool} {s s' : Sys}
    (h : LoopOutcome w checked s s') : s'.life = s.life := by
  cases h <;> rfl

/-- Handling a batch of poll events leaves the lifecycle. -/
theorem pollBatch_life {o : Oracle} {events : List PollEvent} {s s' : Sys}
    (h : events.foldlM (applyPollEvent o) s = .ok s') : s'.life = s.life := by
  refine Res.foldlM_induct (I := fun x => x.life = s.life) ?_ events rfl h
  intro x e x' hx hstep
  obtain ⟨n, hwake⟩ := applyPollEvent_ok hstep
  exact (wakeWaitingTasksLocked_woke hwake).life.trans hx

/-- Only the steps of `worker_deinit` drain and end the scheduler. -/
theorem SchedStep.closes {a : Action} {s s' : Sys} (h : SchedStep s a s') :
    s'.life = s.life ∨ (s'.life ≠ .down ∧ s'.life ≠ .drained) ∨
      (s.wk.lock = none ∧ s.life = .shutJoin ∧ s' = { workerDeinitDrain s with life := .drained }) ∨
      (s.life = .drained ∧ s' = workerDeinitClose s) := by
  have hfail : ∀ (x : Sys) (m : Bool), x.life = s.life →
      (spawnFailed x m).life = s.life ∨
        ((spawnFailed x m).life ≠ .down ∧ (spawnFailed x m).life ≠ .drained) := by
    intro x m hx
    unfold spawnFailed
    split
    · exact .inr (by simp)
    · exact .inl hx
  cases h with
  | @spawnAlloc θ r hspawn hne =>
      refine or_assoc.mp (.inl ?_)
      rcases workerSpawnAlloc_cases s θ r with heq | ⟨l, _, heq⟩ | heq <;> rw [heq]
      · exact hfail s _ rfl
      · exact hfail _ _ rfl
      · exact .inl rfl
  | @spawnPublish hlock o θ t hmem =>
      refine or_assoc.mp (.inl ?_)
      rcases workerSpawnPublish_cases o s θ t with heq | ⟨_, s1, hpush, heq⟩ <;> rw [heq]
      · exact hfail _ _ rfl
      · have hs1 : s1.life = s.life := by
          rcases taskQueuePush_some hpush with ⟨_, rfl⟩ | ⟨_, cap, _, rfl⟩ <;> rfl
        by_cases hm : (s.tasks t).isMain = true
        · exact .inr (by simp [published, hm])
        · exact .inl (by simp [published, hm, hs1])
  | forgetFd hlock hint hforget =>
      rcases workerForgetFd_ok hforget with ⟨_, rfl⟩ | ⟨_, s1, n, hwake, rfl⟩
      · exact .inl rfl
      · have hl := (wakeWaitingTasksLocked_woke hwake).life
        split <;> exact .inl hl
  | @waitIo hlock o w t fd direction hint hpc hframe =>
      refine .inl ?_
      rcases workerParkCurrentOnIo_form o s w t fd (IoEvents.none.put direction true) with
        ⟨_, _, heq⟩ | ⟨_, _, _, _, heq⟩
      · rw [heq]
      · rw [heq]; rfl
  | @requeue hlock o w t s1 hpc hrequeue =>
      obtain ⟨s2, hpush, rfl⟩ := requeueTask_ok hrequeue
      rcases taskQueuePush_some hpush with ⟨_, rfl⟩ | ⟨_, cap, _, rfl⟩ <;> exact .inl rfl
  | @loop hlock w checked hpc => exact .inl (loopBody_outcome w checked s).life
  | @condReturn hlock w signalled checked hpc => exact .inl (loopBody_outcome w checked _).life
  | pollReturn hlock hpc hpoll =>
      rcases leavePoll_ok hpoll with ⟨_, rfl⟩ | ⟨_, s2, hbatch, hout⟩
      · exact .inl rfl
      · have hl := pollBatch_life hbatch
        exact .inl (hout.life.trans hl)
  | pollFailed hlock hpc hpoll =>
      obtain ⟨_, rfl⟩ := leavePollError_ok hpoll
      exact .inl rfl
  | deinitDrain hlock hl => exact .inr (.inr (.inl ⟨hlock, hl, rfl⟩))
  | deinitClose hl => exact .inr (.inr (.inr ⟨hl, rfl⟩))
  | runtimeInit hlock hl => exact .inr (.inl (by simp))
  | runCall hl | createWorker hl | waitForMain hl | joinWorkers hl => exact .inr (.inl (by simp))
  | pollerWake hmem | setReady fd mask => exact .inl rfl
  | yield hpc hframe | returnIo hpc hframe | taskReturn hpc hframe => exact .inl rfl
  | finishMain hpc | switchOut hpc | release hpc | cleanup hpc | resume hpc | kernelError hpc
  | filterBatch hpc => exact .inl rfl
  | finishSched hlock hpc | reread hlock hpc => exact .inl rfl
  | kernelReturn hpc hbatch => exact .inl rfl

/-- A channel step does not take the lifecycle to its end. -/
theorem ChanView.closes {s s' : Sys} (h : ChanView s s') :
    s'.life = s.life ∨ s'.life ≠ .down ∧ s'.life ≠ .drained := by
  cases h with
  | memory κ => exact .inl rfl
  | wakes hlock hw => exact .inl hw.sameCore.life
  | park hlock hw hpc hframe frame =>
      refine .inl ?_
      unfold workerParkCurrentOnChannelLocked
      split <;> exact hw.sameCore.life
  | shutdown hlock hmove hclose =>
      cases hmove with
      | request hinit => exact .inl rfl
      | allocFailed hl | createFailed hl | shutdownCall hl => exact .inr (by simp)
  | returned hpc κ => exact .inl rfl

/-- The scheduler ends with the last step of `worker_deinit`, -/
theorem step_ends {s s' : Sys} {a : Action} (hstep : step s a = .ok s') (hlife : s.life ≠ .down)
    (hdown : s'.life = .down) : s.life = .drained ∧ s' = workerDeinitClose s := by
  rcases step_kind hstep with hc | hs
  · rcases hc.view.closes with hl | ⟨hl, _⟩
    · exact absurd (hl.symm.trans hdown) hlife
    · exact absurd hdown hl
  · rcases hs.closes with hl | ⟨hl, _⟩ | ⟨_, _, rfl⟩ | hl
    · exact absurd (hl.symm.trans hdown) hlife
    · exact absurd hdown hl
    · exact absurd hdown (by simp)
    · exact hl

/-- and is drained by the one before. -/
theorem step_drains {s s' : Sys} {a : Action} (hstep : step s a = .ok s')
    (hlife : s.life ≠ .drained) (hdrained : s'.life = .drained) :
    s.wk.lock = none ∧ s.life = .shutJoin ∧ s' = { workerDeinitDrain s with life := .drained } := by
  rcases step_kind hstep with hc | hs
  · rcases hc.view.closes with hl | ⟨_, hl⟩
    · exact absurd (hl.symm.trans hdrained) hlife
    · exact absurd hdrained hl
  · rcases hs.closes with hl | ⟨_, hl⟩ | hl | ⟨hl, _⟩
    · exact absurd (hl.symm.trans hdrained) hlife
    · exact absurd hdrained hl
    · exact hl
    · exact absurd hl hlife

/-! ## Every reachable state -/

/-- Table, wait records and poller, while the scheduler exists and afterwards. -/
structure IoInv (s : Sys) : Prop where
  agree : IoAgree s.tasks s.io
  watch : s.life ≠ .drained → IoWatch s.poller s.io
  gone : s.life = .down → Gone s

/-- A closed poller watches what an empty table asks for. -/
theorem Gone.watches {s : Sys} (h : Gone s) : IoWatch s.poller s.io := by
  intro fd
  have hevents : s.io.events fd = .none := by rw [h.io]; rfl
  rw [hevents]
  exact h.watch fd

/-- What still happens keeps the I/O invariant. -/
theorem IoInv.goneStep {s s' : Sys} (h : IoInv s) (hgone : Gone s) (hstep : GoneStep s s') :
    IoInv s' := by
  obtain ⟨hgone', _⟩ := hstep.gone hgone
  refine ⟨?_, fun _ => hgone'.watches, fun _ => hgone'⟩
  cases hstep with
  | chans κ | owed θ | ready r => exact h.agree
  | @publish θ t hmem =>
      refine h.agree.quiet ?_ (by simp)
      intro hw
      obtain ⟨d, hd⟩ := h.agree.parked t hw
      have hslot := (h.agree.slots (s.tasks t).ioFd d t).mpr
        ⟨hw, rfl, by rw [hd, IoEvents.has_put_none]⟩
      rw [hgone.io] at hslot
      exact absurd hslot (by simp [IoWaitTable.slot, IoWaitTable.lookup, Slots.lookup])

/-- **The task invariant** holds in every state of every run, as long as the
scheduler exists; what it says of the wait table holds in every state. -/
theorem TaskInv.reach_all {backend : Backend} {allowed : Sys → Action → Prop} {s : Sys}
    (h : (runtime backend).ReachVia allowed s) :
    (s.life ≠ .down → TaskInv s) ∧ IoInv s := by
  refine Machine.ReachVia.invariant
    (I := fun x => (x.life ≠ .down → TaskInv x) ∧ IoInv x) ?_ ?_ h
  · intro x hx
    obtain ⟨wakeFd, workers, runCapacity, ioCapacity, _, _, rfl⟩ := hx
    have hinit := TaskInv.initial backend wakeFd workers runCapacity ioCapacity
    exact ⟨fun _ => hinit, hinit.agree, hinit.watch, fun habs => by simp [Croutine.initial] at habs⟩
  · intro x a x' hreach hx _ hstep
    obtain ⟨htask, hio⟩ := hx
    have hlife := LifeInv.reach hreach
    by_cases hdown : x.life = .down
    · have hgone := hio.gone hdown
      have hgstep := hgone.step hlife hdown hstep
      have hdown' : x'.life = .down := (hgstep.gone hgone).2.trans hdown
      exact ⟨fun habs => absurd hdown' habs, hio.goneStep hgone hgstep⟩
    · have htask := htask hdown
      by_cases hdown' : x'.life = .down
      · obtain ⟨hdrained, rfl⟩ := step_ends hstep hdown hdown'
        have hgone := Gone.deinitClose x
        refine ⟨fun habs => absurd rfl habs, ?_, fun _ => hgone.watches, fun _ => hgone⟩
        exact htask.agree.relayout ⟨List.Pairwise.nil, rfl⟩ fun g => (htask.emptied hdrained g).symm
      · have htask' : TaskInv x' := by
          rcases step_kind hstep with hc | hs
          · exact htask.chanView hc.view
          · exact htask.schedStep hlife (fun habs => absurd habs hdown') hs
        exact ⟨fun _ => htask', htask'.agree, htask'.watch, fun habs => absurd habs hdown'⟩

/-- **Task invariant, run.** It holds in every reachable state until the runtime is down. -/
theorem TaskInv.reach {backend : Backend} {allowed : Sys → Action → Prop} {s : Sys}
    (h : (runtime backend).ReachVia allowed s) (hlife : s.life ≠ .down) : TaskInv s :=
  (TaskInv.reach_all h).1 hlife

/-- **I/O invariant, run.** It holds in every reachable state. -/
theorem IoInv.reach {backend : Backend} {allowed : Sys → Action → Prop} {s : Sys}
    (h : (runtime backend).ReachVia allowed s) : IoInv s :=
  (TaskInv.reach_all h).2

end Croutine
