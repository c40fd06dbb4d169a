import Croutine.IoAgree
import Croutine.Placement

/-!
# Tasks, wait table and poller over whole runs

`TaskInv` joins the placement of tasks with the agreement of the wait table, the
tasks' wait records and the poller.  The two need each other: an I/O wake moves the
tasks that the table records, and a task recorded there waits nowhere else.
-/

namespace Croutine

structure TaskInv (s : Sys) : Prop where
  placed : ∃ loc, s.Placed loc
  agree : IoAgree s.tasks s.io
  /-- `worker_deinit` empties the table before it closes the poller. -/
  watch : s.life ≠ .drained → IoWatch s.poller s.io
  emptied : s.life = .drained → ∀ fd, s.io.lookup fd = none

/-! ## Waking tasks -/

namespace Placement

variable {tasks : TaskId → Task} {ledger : TaskId → Ledger} {pc : WorkerId → Pc}
  {lock : Option WorkerId} {queue : List TaskId} {spawns : List (Thread × TaskId)}
  {next : TaskId} {loc : TaskId → Place} {w : WorkerId} {t : TaskId} {τ : Task}

/-- A move to a place other than `unborn` of a task that was born. -/
theorem unborn_move (h : Placement tasks ledger pc lock queue spawns next loc) {b : Place}
    (ht : loc t ≠ .unborn) (hb : b ≠ .unborn) :
    ∀ u, next ≤ u ↔ Function.update loc t b u = .unborn := by
  intro u
  by_cases hu : u = t
  · subst hu
    rw [Function.update_self, h.unborn u]
    exact ⟨fun habs => absurd habs ht, fun habs => absurd habs hb⟩
  · rw [Function.update_of_ne hu]
    exact h.unborn u

/-- A waiting task becomes runnable and is queued. -/
theorem wake (h : Placement tasks ledger pc lock queue spawns next loc)
    (hloc : loc t = .io ∨ loc t = .channel) (hstate : τ.state = .runnable)
    (hqueued : τ.queued = true) (hsaved : τ.contextSaved = (tasks t).contextSaved)
    (hstack : τ.hasStack = (tasks t).hasStack) (harg : τ.ownsArg = (tasks t).ownsArg) :
    Placement (Function.update tasks t τ) ledger pc lock (queue ++ [t]) spawns next
      (Function.update loc t .queue) := by
  have hold : (tasks t).contextSaved = true ∧ Owned (tasks t) (ledger t) ∧
      (ledger t).published = true := by
    have hat := h.taskAt t
    rcases hloc with hl | hl <;> rw [hl] at hat <;> exact ⟨hat.1.saved, hat.2.1, hat.2.2⟩
  obtain ⟨hctx, howned, hpub⟩ := hold
  have hne : loc t ≠ .queue ∧ loc t ≠ .spawning ∧ loc t ≠ .unborn ∧ ∀ v, loc t ≠ .exec v := by
    rcases hloc with hl | hl <;> rw [hl] <;> simp
  have hat : TaskAt τ (ledger t) .queue := by
    refine ⟨⟨hstate, hqueued, hsaved.trans hctx⟩, ⟨?_, howned.object, howned.stack, ?_⟩, hpub⟩
    · rw [hstack]; exact howned.hasStack
    · rw [harg]; exact howned.arg
  have hmove := h.relocate hne.2.2.2 (by simp) hat
    (h.queued.insert hne.1 (List.perm_append_singleton t queue))
    (h.spawning.move hne.2.1 (by simp)) (h.unborn_move hne.2.2.1 (by simp))
  rwa [Function.update_eq_self] at hmove

/-- The task in a worker's hands changes where it is. -/
theorem adjust (h : Placement tasks ledger pc lock queue spawns next loc)
    (hw : (pc w).holds = some t) (hqueued : τ.queued = false)
    (howned : Owned τ (ledger t)) (hfits : (pc w).Fits (Function.update tasks t τ)) :
    Placement (Function.update tasks t τ) ledger pc lock queue spawns next loc := by
  have hadv := h.advance hw hw hqueued howned hfits (h.locked.keep rfl)
  rwa [Function.update_eq_self] at hadv

/-- The task a worker holds is not queued and owns its memory. -/
theorem taskHeld (h : Placement tasks ledger pc lock queue spawns next loc)
    (hw : (pc w).holds = some t) :
    (tasks t).queued = false ∧ Owned (tasks t) (ledger t) ∧ (ledger t).published = true := by
  have hat := h.taskAt t
  rw [(h.held w t).mp hw] at hat
  exact hat

end Placement

namespace TaskInv

variable {s s' : Sys} {w : WorkerId} {t : TaskId}

/-- A wake of a task that waits on channels. -/
theorem wake {o : Oracle} {success : Bool} (h : TaskInv s) (hlock : s.wk.lock = none)
    (hw : workerWakeTaskLocked o s t success = some s') : TaskInv s' := by
  obtain ⟨hstate, cap, _, rfl⟩ := workerWakeTaskLocked_some hw
  obtain ⟨loc, hloc⟩ := h.placed
  have hfree : Placement s.tasks s.ledger s.wk.pc none s.runq.tasks s.spawns s.nextTask loc := by
    rw [← hlock]; exact hloc
  have hchan : loc t = .channel := by
    rcases hfree.place_of_waiting (t := t) (by rw [hstate]; rfl) with ⟨hio, _⟩ | ⟨_, hl⟩
    · rw [hstate] at hio
      exact absurd hio (by simp)
    · exact hl
  have hqueued : (s.tasks t).queued = false := by
    have hat := hloc.taskAt t
    rw [hchan] at hat
    exact hat.1.queued
  refine ⟨⟨Function.update loc t .queue, ?_⟩, ?_, h.watch, h.emptied⟩
  · have hmove := hloc.wake (.inr hchan)
      (τ := { (s.tasks t).requeued with channelWakeSuccess := success }) rfl rfl rfl rfl rfl
    have hsig := hmove.signals (Signals.wakeForTask o.pick s.wk)
    show Placement _ _ _ (s.wk.wakeForTask o.pick).lock
      (s.runq.pushed t (s.tasks t).queued cap).tasks _ _ _
    rw [(s.wk.wakeForTask_fields o.pick).2.1, hqueued]
    exact hsig
  · exact h.agree.quiet (by rw [hstate]; simp) (by simp [Task.requeued])

/-- A channel operation keeps the invariant. -/
theorem wakes (h : TaskInv s) (hlock : s.wk.lock = none) (hw : Wakes s s') : TaskInv s' := by
  refine (Wakes.invariant (I := fun x => x.wk.lock = none ∧ TaskInv x) ?_ ?_ hw ⟨hlock, h⟩).2
  · intro x κ ⟨hl, hx⟩
    exact ⟨hl, hx.placed, hx.agree, hx.watch, hx.emptied⟩
  · intro o x u success x' ⟨hl, hx⟩ hwake
    refine ⟨?_, hx.wake hl hwake⟩
    obtain ⟨_, cap, _, rfl⟩ := workerWakeTaskLocked_some hwake
    exact (x.wk.wakeForTask_fields o.pick).2.1.trans hl

/-- A task that runs is runnable. -/
theorem running (h : TaskInv s) (hpc : s.wk.pc w = .running t) :
    (s.tasks t).state = .runnable ∧ (s.tasks t).contextSaved = false := by
  obtain ⟨loc, hloc⟩ := h.placed
  have := hloc.points w
  rw [hpc] at this
  exact this

/-- A running task comes back from the call it was in. -/
theorem returned (h : TaskInv s) (hpc : s.wk.pc w = .running t) :
    TaskInv (s.setTask t { s.tasks t with frame := .user }) := by
  obtain ⟨hstate, hsaved⟩ := h.running hpc
  obtain ⟨loc, hloc⟩ := h.placed
  have hholds : (s.wk.pc w).holds = some t := by rw [hpc]; rfl
  obtain ⟨hqueued, howned, _⟩ := hloc.taskHeld hholds
  refine ⟨⟨loc, ?_⟩, h.agree.same rfl rfl rfl, h.watch, h.emptied⟩
  refine hloc.adjust hholds hqueued ⟨howned.1, howned.2, howned.3, howned.4⟩ ?_
  rw [hpc]
  simp [Pc.Fits, hstate, hsaved]

theorem park (h : TaskInv s) (hlock : s.wk.lock = none) (hpc : s.wk.pc w = .running t)
    (frame : Bool → Frame) : TaskInv (workerParkCurrentOnChannelLocked s w t frame) := by
  obtain ⟨loc, hloc⟩ := h.placed
  have hholds : (s.wk.pc w).holds = some t := by rw [hpc]; rfl
  obtain ⟨hqueued, howned, _⟩ := hloc.taskHeld hholds
  obtain ⟨hstate, hsaved⟩ := h.running hpc
  unfold workerParkCurrentOnChannelLocked
  split
  · refine ⟨⟨loc, ?_⟩, h.agree.same rfl rfl rfl, h.watch, h.emptied⟩
    refine hloc.adjust hholds hqueued ⟨howned.1, howned.2, howned.3, howned.4⟩ ?_
    rw [hpc]
    simp [Pc.Fits, hstate, hsaved]
  · refine ⟨⟨loc, ?_⟩, h.agree.quiet (by rw [hstate]; simp) (by simp), h.watch, h.emptied⟩
    have hheld : LockHeld none s.wk.pc := by rw [← hlock]; exact hloc.locked
    refine hloc.advance hholds rfl hqueued ⟨howned.1, howned.2, howned.3, howned.4⟩ ?_
      (hheld.acquire rfl)
    simp [Pc.Fits, TaskState.waiting]

theorem chanView (h : TaskInv s) (hv : ChanView s s') : TaskInv s' := by
  cases hv with
  | memory κ => exact ⟨h.placed, h.agree, h.watch, h.emptied⟩
  | wakes hlock hw => exact h.wakes hlock hw
  | @park hlock s1 hw w t hpc hframe frame =>
      have hpc1 : s1.wk.pc w = .running t := by
        rw [hw.signals.fixed (by rw [hpc]; rfl), hpc]
      exact (h.wakes hlock hw).park (hw.sameCore.lock.trans hlock) hpc1 frame
  | @shutdown hlock o θ s1 life hmove hclose =>
      have hwakes := croutineChannelShutdownAllLocked_wakes hclose
      have h0 : TaskInv { s with shutdownRequested := true } :=
        ⟨h.placed, h.agree, h.watch, h.emptied⟩
      have h1 : TaskInv s1 := h0.wakes hlock hwakes
      obtain ⟨loc, hloc⟩ := h1.placed
      have hlife : s1.life = s.life := hwakes.sameCore.life
      -- only a request inside `worker_deinit` leaves the stage as it is
      have hdrained : life = .drained ↔ s1.life = .drained := by
        rw [hlife]
        cases hmove with
        | request hinit => exact Iff.rfl
        | allocFailed hl | createFailed hl => rw [hl]; simp
        | shutdownCall hl => rcases hl with hl | hl <;> rw [hl] <;> simp
      refine ⟨⟨loc, hloc.signals (Signals.condBroadcast s1.wk)⟩, h1.agree, ?_, ?_⟩
      · intro hne
        exact h1.watch fun habs => hne (hdrained.mpr habs)
      · intro heq
        exact h1.emptied (hdrained.mp heq)
  | @returned w t hpc κ =>
      have h1 := h.returned hpc
      exact ⟨h1.placed, h1.agree, h1.watch, h1.emptied⟩

end TaskInv

/-! ## Waking the tasks of a descriptor -/

/-- The loop of `wake_waiting_tasks_locked` over distinct waiting tasks. -/
theorem wakeIoTasks_placed {o : Oracle} {fd : Int} {success : Bool} {period : Nat} :
    ∀ (l : List TaskId) {s s' : Sys} {loc : TaskId → Place}, s.Placed loc → l.Nodup →
      (∀ t ∈ l, loc t = .io) → l.foldlM (wakeIoTask o fd success period) s = .ok s' →
      (∃ loc', s'.Placed loc') ∧ s'.runq.tasks = s.runq.tasks ++ l ∧
        (∀ t ∈ l, s'.tasks t = { (s.tasks t).requeued with ioWakeSuccess := success }) ∧
        ∀ t, t ∉ l → s'.tasks t = s.tasks t := by
  intro l
  induction l with
  | nil =>
      intro s s' loc hloc _ _ h
      cases h
      exact ⟨⟨loc, hloc⟩, by simp, by simp, fun _ _ => rfl⟩
  | cons t rest ih =>
      intro s s' loc hloc hnodup hio h
      rw [List.foldlM_cons, Res.bind_ok] at h
      obtain ⟨s1, hs1, hrest⟩ := h
      obtain ⟨cap, _, rfl⟩ := wakeIoTask_ok hs1
      obtain ⟨hnot, hnodup'⟩ := List.nodup_cons.mp hnodup
      have hloct : loc t = .io := hio t List.mem_cons_self
      have hqueued : (s.tasks t).queued = false := by
        have hat := hloc.taskAt t
        rw [hloct] at hat
        exact hat.1.queued
      have hmove := hloc.wake (.inl hloct)
        (τ := { (s.tasks t).requeued with ioWakeSuccess := success }) rfl rfl rfl rfl rfl
      have hplaced : Sys.Placed { s with
          tasks := Function.update s.tasks t
            { (s.tasks t).requeued with ioWakeSuccess := success }
          runq := s.runq.pushed t (s.tasks t).queued cap
          readyLog := readyLogged s fd t success period }
          (Function.update loc t .queue) := by
        rw [hqueued]
        exact hmove
      have hio' : ∀ u ∈ rest, Function.update loc t .queue u = .io := by
        intro u hu
        have hut : u ≠ t := fun heq => hnot (heq ▸ hu)
        rw [Function.update_of_ne hut]
        exact hio u (List.mem_cons_of_mem _ hu)
      obtain ⟨hres, hqueue, hwoken, hkept⟩ := ih hplaced hnodup' hio' hrest
      refine ⟨hres, ?_, ?_, ?_⟩
      · rw [hqueue, RunQueue.pushed, hqueued]
        simp
      · intro u hu
        rcases List.mem_cons.mp hu with rfl | hu
        · rw [hkept u hnot]
          simp
        · have hut : u ≠ t := fun heq => hnot (heq ▸ hu)
          rw [hwoken u hu]
          dsimp only
          rw [Function.update_of_ne hut]
      · intro u hu
        rw [List.mem_cons, not_or] at hu
        rw [hkept u hu.2]
        simp [hu.1]

/-- **What waking the tasks of the reported descriptors and directions does.**  The tasks
parked there leave the table and join the end of the run queue, once each, with the outcome
of their wait; no other task and no other slot changes. -/
structure Delivered (s : Sys) (reported : Int → Filter → Prop) (success : Bool)
    (woken : List TaskId) (s' : Sys) : Prop where
  queue : s'.runq.tasks = s.runq.tasks ++ woken
  nodup : woken.Nodup
  mem : ∀ t, t ∈ woken ↔ ∃ fd d, reported fd d ∧ s.io.slot fd d = some t
  cleared : ∀ fd d, reported fd d → s'.io.slot fd d = none
  others : ∀ fd d, ¬reported fd d → s'.io.slot fd d = s.io.slot fd d
  awake : ∀ t ∈ woken, s'.tasks t = { (s.tasks t).requeued with ioWakeSuccess := success }
  kept : ∀ t, t ∉ woken → s'.tasks t = s.tasks t

namespace TaskInv

variable {s s' : Sys} {w : WorkerId} {t : TaskId}

/-- A task recorded in the wait table is in that place. -/
theorem place_of_slot (h : TaskInv s) (hlock : s.wk.lock = none) {loc : TaskId → Place}
    (hloc : s.Placed loc) {fd : Int} {d : Filter} (ht : s.io.slot fd d = some t) :
    loc t = .io := by
  have hstate := ((h.agree.slots fd d t).mp ht).1
  have hfree : Placement s.tasks s.ledger s.wk.pc none s.runq.tasks s.spawns s.nextTask loc := by
    rw [← hlock]; exact hloc
  rcases hfree.place_of_waiting (t := t) (by rw [hstate]; rfl) with ⟨_, hl⟩ | ⟨hst, _⟩
  · exact hl
  · rw [hstate] at hst
    exact absurd hst (by simp)

/-- The poller follows the entry whose tasks are taken out. -/
theorem watch_without {o : PollerOracle} {p q : Poller} {table table' : IoWaitTable} {fd : Int}
    {ready : IoEvents} {e rest : IoWaitEntry} (hwatch : IoWatch p table)
    (hwithout : table.Without fd ready table') (hlook : table.lookup fd = some e)
    (hrest : ∀ d, rest.slot d = if ready.has d = true then none else e.slot d)
    (hset : croutinePollerSet o p fd (ioWaitEntryEvents e) (ioWaitEntryEvents rest) =
      (q, true)) : IoWatch q table' := by
  have hold : table.events fd = ioWaitEntryEvents e := by
    unfold IoWaitTable.events
    rw [hlook]
  obtain ⟨_, hfd, hothers⟩ := croutinePollerSet_ok hset (hold ▸ hwatch fd)
  intro g
  by_cases hg : g = fd
  · subst hg
    have hnew : table'.events g = ioWaitEntryEvents rest := by
      refine IoEvents.ext_has fun d => ?_
      rw [IoWaitTable.events_has, ioWaitEntryEvents_has, hwithout.slots, hrest]
      by_cases hr : ready.has d = true <;> simp [hr, IoWaitTable.slot, hlook]
    rw [hnew]
    exact hfd
  · have hsame : table'.events g = table.events g := by
      refine IoEvents.ext_has fun d => ?_
      rw [IoWaitTable.events_has, IoWaitTable.events_has, hwithout.slots,
        if_neg fun hp => hg hp.1]
    rw [hsame]
    exact hothers g _ hg (hwatch g)

/-- `wake_waiting_tasks_locked` keeps table, records, poller and places in step. -/
theorem wakeIo_delivers {o : Oracle} {fd : Int} {ready : IoEvents} {success : Bool}
    {period n : Nat} (h : TaskInv s) (hlock : s.wk.lock = none)
    (hw : wakeWaitingTasksLocked o s fd ready success period = .ok (s', n)) :
    TaskInv s' ∧ ∃ woken, woken.length = n ∧
      Delivered s (fun g d => g = fd ∧ ready.has d = true) success woken s' := by
  rcases wakeWaitingTasksLocked_ok hw with ⟨hfind, rfl, rfl⟩ |
    ⟨i, entry, tasks, rest, poller, s1, hfind, hentry, htake, hset, hfold, rfl, rfl⟩
  · have hslot : ∀ d, s'.io.slot fd d = none := by
      intro d
      unfold IoWaitTable.slot
      rw [ioWaitTableFind_none hfind]; rfl
    refine ⟨h, [], rfl, by simp, List.nodup_nil, ?_, ?_, fun _ _ _ => rfl, by simp,
      fun _ _ => rfl⟩
    · intro u
      simp [hslot]
    · rintro g d ⟨rfl, _⟩
      exact hslot d
  · obtain ⟨e, hget, hused, hfd, hlook⟩ := ioWaitTableFind_some h.agree.valid hfind
    have he : entry = e := by rw [hentry, List.getD_eq_getElem?_getD, hget]; rfl
    subst he
    have hnd : s.life ≠ .drained := by
      intro hd
      rw [h.emptied hd fd] at hlook
      simp at hlook
    have hdist := h.agree.distinct hlook
    have htasks : tasks = (takeReadyTasks entry ready).1 := by rw [htake]
    have hrest : rest = (takeReadyTasks entry ready).2 := by rw [htake]
    subst htasks hrest
    have hslot : ∀ d, s.io.slot fd d = entry.slot d := by
      intro d
      unfold IoWaitTable.slot
      rw [hlook]; rfl
    have hmem : ∀ u, u ∈ (takeReadyTasks entry ready).1 ↔
        ∃ d, ready.has d = true ∧ s.io.slot fd d = some u := by
      intro u
      simp only [takeReadyTasks_mem hdist, hslot]
    have hwithout := ioAfterWake_without h.agree hget hused hfd hlook ready
    -- the tasks of the entry move to the run queue
    obtain ⟨loc, hloc⟩ := h.placed
    have hio : ∀ u ∈ (takeReadyTasks entry ready).1, loc u = .io := by
      intro u hu
      obtain ⟨d, _, hd⟩ := (hmem u).mp hu
      exact h.place_of_slot hlock hloc hd
    have hplaced : Sys.Placed { s with
        poller := poller, io := ioAfterWake s.io i (takeReadyTasks entry ready).2 } loc := hloc
    obtain ⟨⟨loc', hloc'⟩, hqueue, hwoken, hkept⟩ :=
      wakeIoTasks_placed _ hplaced (takeReadyTasks_nodup hdist) hio hfold
    obtain ⟨tasks1, runq1, log1, rfl, _⟩ := wakeIoTasks_frame _ hfold
    have hagree : IoAgree tasks1 (ioAfterWake s.io i (takeReadyTasks entry ready).2) := by
      refine h.agree.takeOut hmem hwithout ?_ hkept
      intro u hu
      have hstate : tasks1 u = _ := hwoken u hu
      rw [hstate]
      simp [Task.requeued]
    have hwatch := watch_without (h.watch hnd) hwithout hlook (takeReadyTasks_slot hdist) hset
    have hcleared : ∀ g d, g = fd ∧ ready.has d = true →
        (ioAfterWake s.io i (takeReadyTasks entry ready).2).slot g d = none := by
      intro g d hg
      rw [hwithout.slots, if_pos hg]
    have hothers : ∀ g d, ¬(g = fd ∧ ready.has d = true) →
        (ioAfterWake s.io i (takeReadyTasks entry ready).2).slot g d = s.io.slot g d := by
      intro g d hg
      rw [hwithout.slots, if_neg hg]
    have hmem' : ∀ u, u ∈ (takeReadyTasks entry ready).1 ↔
        ∃ g d, (g = fd ∧ ready.has d = true) ∧ s.io.slot g d = some u := by
      intro u
      rw [hmem]
      constructor
      · rintro ⟨d, hd, hu⟩
        exact ⟨fd, d, ⟨rfl, hd⟩, hu⟩
      · rintro ⟨g, d, ⟨rfl, hd⟩, hu⟩
        exact ⟨d, hd, hu⟩
    have hnodup : (takeReadyTasks entry ready).1.Nodup := takeReadyTasks_nodup hdist
    split
    · exact ⟨⟨⟨loc', hloc'⟩, hagree, fun _ => hwatch, fun hd => absurd hd hnd⟩, _, rfl,
        hqueue, hnodup, hmem', hcleared, hothers, hwoken, hkept⟩
    · exact ⟨⟨⟨loc', hloc'.signals (Signals.condBroadcast _)⟩, hagree, fun _ => hwatch,
        fun hd => absurd hd hnd⟩, _, rfl, hqueue, hnodup, hmem', hcleared, hothers, hwoken, hkept⟩

theorem wakeIo {o : Oracle} {fd : Int} {ready : IoEvents} {success : Bool} {period n : Nat}
    (h : TaskInv s) (hlock : s.wk.lock = none)
    (hw : wakeWaitingTasksLocked o s fd ready success period = .ok (s', n)) : TaskInv s' :=
  (h.wakeIo_delivers hlock hw).1

end TaskInv

end Croutine
