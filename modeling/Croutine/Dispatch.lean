import Croutine.WorkerMoves

/-!
# The order of dispatch

Tasks enter the run queue from many places: a spawn, a wake by a channel operation, by a
select, by a close or by readiness, and the push that follows a yield.  They leave it at one,
the pop in the scheduling loop of whichever worker comes first.

`Turn` says what one step does to the queue, and a run composes such steps: what was queued,
followed by what entered, is what was dispatched, followed by what is queued.  So a task is
dispatched after exactly the tasks that were ahead of it.
-/

namespace Croutine

/-- The task that a worker has popped and not yet resumed. -/
def Pc.popped : Pc → Option TaskId
  | .dispatched t => some t
  | _ => none

/-- The task that a step of the scheduling loop hands to its worker. -/
def Action.dispatched (s' : Sys) : Action → Option TaskId
  | .loop w | .condReturn w | .pollReturn w _ => (s'.wk.pc w).popped
  | _ => none

/-- The tasks dispatched in a run, in order. -/
def dispatches : Sys → List Action → List TaskId
  | _, [] => []
  | s, a :: rest =>
    match step s a with
    | .ok s' => (a.dispatched s').toList ++ dispatches s' rest
    | .error _ => []

/-- The task is about to become runnable: it is parked, in the hands of a worker that pushes
it after a yield, or allocated by a spawn that has not published it. -/
def Sys.Entering (s : Sys) (t : TaskId) : Prop :=
  (s.tasks t).state.waiting = true ∨ (∃ w, s.wk.pc w = .requeue t) ∨ ∃ θ, (θ, t) ∈ s.spawns

/-- Tasks enter the run queue at its end. -/
def Enters (s s' : Sys) : Prop :=
  ∃ entered, s'.runq.tasks = s.runq.tasks ++ entered ∧ ∀ t ∈ entered, s.Entering t

/-- One step of the run queue: what was queued, followed by what entered, is what was
dispatched, followed by what is queued. -/
def Turn (s : Sys) (dispatched : Option TaskId) (s' : Sys) : Prop :=
  ∃ entered, s.runq.tasks ++ entered = dispatched.toList ++ s'.runq.tasks ∧
    ∀ t ∈ entered, s.Entering t

/-- A step that leaves the queue lets nobody enter. -/
theorem Enters.of_runq {s s' : Sys} (h : s'.runq = s.runq) : Enters s s' :=
  ⟨[], by rw [h, List.append_nil], fun _ ht => absurd ht List.not_mem_nil⟩

theorem Enters.refl (s : Sys) : Enters s s := .of_runq rfl

/-- A step that only lets tasks enter dispatches none. -/
theorem Enters.turn {s s' : Sys} (h : Enters s s') : Turn s none s' := by
  obtain ⟨entered, hqueue, hall⟩ := h
  exact ⟨entered, hqueue.symm, hall⟩

/-- A step that leaves the queue dispatches none. -/
theorem Turn.still {s s' : Sys} (h : s'.runq = s.runq) : Turn s none s' :=
  (Enters.of_runq h).turn

/-! ## What enters -/

/-- A channel operation pushes tasks that were parked on a channel. -/
theorem Wakes.enters {s s' : Sys} (h : Wakes s s') : Enters s s' := by
  have hI : (∃ entered, s'.runq.tasks = s.runq.tasks ++ entered ∧
      ∀ t ∈ entered, (s.tasks t).state = .waitingChannel) ∧
      ∀ t, (s'.tasks t).state = .waitingChannel → (s.tasks t).state = .waitingChannel := by
    refine Wakes.invariant (I := fun x => (∃ entered, x.runq.tasks = s.runq.tasks ++ entered ∧
      ∀ t ∈ entered, (s.tasks t).state = .waitingChannel) ∧
      ∀ t, (x.tasks t).state = .waitingChannel → (s.tasks t).state = .waitingChannel) ?_ ?_ h
      ⟨⟨[], (List.append_nil _).symm, fun _ ht => absurd ht List.not_mem_nil⟩, fun _ => id⟩
    · exact fun _ _ hx => hx
    · rintro o x t success x' ⟨⟨entered, hqueue, hall⟩, hback⟩ hwake
      obtain ⟨hwait, cap, _, rfl⟩ := workerWakeTaskLocked_some hwake
      refine ⟨?_, fun u hu => ?_⟩
      · unfold RunQueue.pushed
        dsimp only
        split
        · exact ⟨entered, hqueue, hall⟩
        · refine ⟨entered ++ [t], by rw [hqueue, List.append_assoc], fun u hu => ?_⟩
          rcases List.mem_append.mp hu with hu | hu
          · exact hall u hu
          · rw [List.mem_singleton.mp hu]
            exact hback t hwait
      · by_cases hut : u = t
        · rw [hut]
          exact hback t hwait
        · exact hback u (by simpa [hut] using hu)
  obtain ⟨⟨entered, hqueue, hall⟩, _⟩ := hI
  exact ⟨entered, hqueue, fun t ht => .inl (by rw [hall t ht]; rfl)⟩

/-- A delivery of readiness pushes tasks that were parked on a descriptor. -/
theorem Delivered.enters {s s' : Sys} {reported : Int → Filter → Prop} {success : Bool}
    {woken : List TaskId} (h : Delivered s reported success woken s')
    (hagree : IoAgree s.tasks s.io) : Enters s s' := by
  refine ⟨woken, h.queue, fun t ht => .inl ?_⟩
  obtain ⟨fd, d, _, hslot⟩ := (h.mem t).mp ht
  rw [((hagree.slots fd d t).mp hslot).1]
  rfl

/-- A push of a task that is about to become runnable. -/
theorem taskQueuePush_enters {o : Oracle} {s s' : Sys} {t : TaskId} (ht : s.Entering t)
    (h : taskQueuePush o s t = some s') : Enters s s' := by
  rcases taskQueuePush_some h with ⟨_, rfl⟩ | ⟨_, cap, _, rfl⟩
  · exact .refl s'
  · exact ⟨[t], rfl, fun u hu => by rw [List.mem_singleton.mp hu]; exact ht⟩

/-- A spawn pushes its own task or none. -/
theorem workerSpawnPublish_enters {s : Sys} {θ : Thread} {t : TaskId} (o : Oracle)
    (hmem : (θ, t) ∈ s.spawns) : Enters s (workerSpawnPublish o s θ t) := by
  rcases workerSpawnPublish_cases o s θ t with heq | ⟨_, s1, hpush, heq⟩ <;> rw [heq]
  · rw [spawnFailed_eq]
    exact .of_runq rfl
  · rcases taskQueuePush_some hpush with ⟨_, rfl⟩ | ⟨_, cap, _, rfl⟩
    · exact .of_runq rfl
    · refine ⟨[t], rfl, fun u hu => ?_⟩
      rw [List.mem_singleton.mp hu]
      exact .inr (.inr ⟨θ, hmem⟩)

/-- Allocating a task leaves the queue. -/
theorem workerSpawnAlloc_runq (s : Sys) (θ : Thread) (r : SpawnRequest) :
    (workerSpawnAlloc s θ r).runq = s.runq := by
  rcases workerSpawnAlloc_cases s θ r with heq | ⟨l, _, heq⟩ | heq <;> rw [heq]
  · rw [spawnFailed_eq]
  · rw [spawnFailed_eq]; rfl
  · rfl

/-- Parking on a descriptor only lets tasks enter. -/
theorem workerParkCurrentOnIo_enters {s : Sys} (h : IoAgree s.tasks s.io) (o : Oracle)
    (w : WorkerId) (t : TaskId) (fd : Int) (events : IoEvents) :
    Enters s (workerParkCurrentOnIo o s w t fd events) := by
  rcases workerParkCurrentOnIo_outcome h o w t fd events with
    ⟨io, poller, heq, _⟩ | ⟨_, io, i, e, poller, _, _, _, heq⟩
  · rw [heq]
    exact .of_runq rfl
  · rw [heq]
    exact .of_runq rfl

/-! ## One step -/

/-- A channel step only lets tasks enter. -/
theorem ChanView.enters {s s' : Sys} (h : ChanView s s') : Enters s s' := by
  cases h with
  | memory κ => exact .refl s
  | wakes hlock hw => exact hw.enters
  | park hlock hw hpc hframe frame =>
      unfold workerParkCurrentOnChannelLocked
      split
      · exact hw.enters
      · exact hw.enters
  | shutdown hlock hlife hclose =>
      exact (croutineChannelShutdownAllLocked_wakes hclose).enters
  | returned hpc κ => exact .refl s

/-- A channel step dispatches nobody. -/
theorem ChanStep.dispatched {P : List SelectCase → Prop} {s s' : Sys} {a : Action}
    (h : ChanStep P s a s') : a.dispatched s' = none := by
  cases h with
  | shutdown hlock ha hlife hclose => cases a <;> first | rfl | exact absurd ha Bool.false_ne_true
  | _ => rfl

/-- An iteration of the scheduling loop after tasks have entered. -/
theorem LoopOutcome.turn {w : WorkerId} {checked : Bool} {s s1 s' : Sys}
    (h : LoopOutcome w checked s1 s') (hs : Enters s s1) : Turn s (s'.wk.pc w).popped s' := by
  obtain ⟨entered, hqueue, hall⟩ := hs
  refine ⟨entered, ?_, hall⟩
  rw [← hqueue]
  cases h with
  | exit hstop => simp [Sys.setPc, Pc.popped]
  | poll hgo hidle htimeout => simp [Workers.setPc, Pc.popped]
  | sleep hgo hactive hempty => simp [Workers.setPc, Pc.popped]
  | dispatch hgo hcons => simp [hcons, Workers.setPc, Pc.popped]

/-- A worker that leaves the poller to exit takes no task. -/
theorem releasePoller_exits (s : Sys) (w : WorkerId) :
    Turn s (((releasePoller s).setPc w .exited).wk.pc w).popped
      ((releasePoller s).setPc w .exited) := by
  have hnone : (((releasePoller s).setPc w .exited).wk.pc w).popped = none := by
    simp [Sys.setPc, Pc.popped]
  rw [hnone]
  exact .still rfl

/-- Every step of the scheduler before the teardown is a turn of the run queue. -/
theorem SchedStep.turn {a : Action} {s s' : Sys} (h : SchedStep s a s') (htask : TaskInv s)
    (ha : a ≠ .deinitDrain ∧ a ≠ .deinitClose) : Turn s (a.dispatched s') s' := by
  cases h with
  | @spawnAlloc θ r hspawn hlife => exact .still (workerSpawnAlloc_runq s θ r)
  | spawnPublish hlock hmem => exact (workerSpawnPublish_enters _ hmem).turn
  | forgetFd hlock hint hforget =>
      rcases workerForgetFd_ok hforget with ⟨_, rfl⟩ | ⟨_, s1, n, hwake, rfl⟩
      · exact .still rfl
      · obtain ⟨_, woken, _, hdel⟩ := htask.wakeIo_delivers hlock hwake
        have hs1 := hdel.enters htask.agree
        split
        · exact Enters.turn hs1
        · exact Enters.turn hs1
  | waitIo hlock hint hpc hframe => exact (workerParkCurrentOnIo_enters htask.agree ..).turn
  | requeue hlock hpc hrequeue =>
      obtain ⟨s2, hpush, rfl⟩ := requeueTask_ok hrequeue
      have hs2 := taskQueuePush_enters (.inr (.inl ⟨_, hpc⟩)) hpush
      exact Enters.turn hs2
  | loop hlock hpc => exact (loopBody_outcome _ _ s).turn (.refl s)
  | condReturn hlock hpc => exact (loopBody_outcome _ _ _).turn (.refl s)
  | pollReturn hlock hpc hpoll =>
      rcases leavePoll_ok hpoll with ⟨_, rfl⟩ | ⟨_, s2, hbatch, hout⟩
      · exact releasePoller_exits s _
      · obtain ⟨woken, hdel⟩ := htask.releasePoller.deliver_batch _ hlock hbatch
        have hdel' : Delivered s (Announces _) true woken s2 :=
          ⟨hdel.queue, hdel.nodup, hdel.mem, hdel.cleared, hdel.others, hdel.awake, hdel.kept⟩
        exact hout.turn (hdel'.enters htask.agree)
  | pollFailed hlock hpc hpoll =>
      obtain ⟨_, rfl⟩ := leavePollError_ok hpoll
      exact releasePoller_exits s _
  | deinitDrain hlock hlife => exact absurd rfl ha.1
  | deinitClose hlife => exact absurd rfl ha.2
  | _ => exact .still rfl

/-- A worker gets a task from the scheduling loop only. -/
theorem WorkerMove.dispatches {a : Action} {s s' : Sys} {w : WorkerId} {p p' : Pc} {t : TaskId}
    (h : WorkerMove s w a p p') (hp' : p' = .dispatched t) :
    a.dispatched s' = (s'.wk.pc w).popped := by
  cases h with
  | loop hsched | wakeUp hsched | pollReturn hsched => rfl
  | @switchOut u st =>
      split at hp' <;> exact absurd hp' (by simp)
  | @reread u st =>
      rcases afterReread_cases s u st with heq | heq | heq <;> rw [heq] at hp' <;>
        exact absurd hp' (by simp)
  | _ => exact absurd hp' (by simp)

/-- A worker that has popped a task had it before, or the step dispatched it. -/
theorem Moved.takes {a : Action} {s s' : Sys} {w : WorkerId} {t : TaskId} (h : Moved s a s' w)
    (ht : s'.wk.pc w = .dispatched t) :
    s.wk.pc w = .dispatched t ∨ a.dispatched s' = some t := by
  rcases h with heq | heq | hmove
  · exact .inl (heq.symm.trans ht)
  · exact .inl (Pc.eq_of_signal (heq.symm.trans ht) (by simp))
  · refine .inr ?_
    rw [hmove.dispatches ht, ht]
    rfl

/-- A worker that has no thread popped nothing. -/
theorem Pc.popped_of_dead {pc : Pc} (h : pc.alive = false) : pc.popped = none := by
  cases pc <;> first | rfl | exact absurd h (by simp [Pc.alive])

/-- After the teardown nothing is dispatched any more. -/
theorem turn_of_gone {a : Action} {s s' : Sys} (h : Gone s) (hlife : LifeInv s)
    (hdown : s.life = .down) (hstep : step s a = .ok s') : Turn s (a.dispatched s') s' := by
  have hgone := h.step hlife hdown hstep
  have hpc : s'.wk.pc = s.wk.pc := by cases hgone <;> rfl
  have hrunq : s'.runq = s.runq := by cases hgone <;> rfl
  have hnone : ∀ w, (s'.wk.pc w).popped = none := by
    intro w
    rw [hpc]
    exact Pc.popped_of_dead (hlife.quiet (by rw [hdown]; rfl) w)
  have hdispatched : a.dispatched s' = none := by
    cases a <;> first | rfl | exact hnone _
  rw [hdispatched]
  exact .still hrunq

/-- **A step of the runtime is a turn of the run queue.** -/
theorem step_turn {backend : Backend} {s s' : Sys} {a : Action} (h : (runtime backend).Reach s)
    (ha : a ≠ .deinitDrain ∧ a ≠ .deinitClose) (hstep : step s a = .ok s') :
    Turn s (a.dispatched s') s' := by
  by_cases hdown : s.life = .down
  · exact turn_of_gone ((IoInv.reach h).gone hdown) (LifeInv.reach h) hdown hstep
  · rcases step_kind hstep with hc | hs
    · rw [hc.dispatched]
      exact hc.view.enters.turn
    · exact hs.turn (TaskInv.reach h hdown) ha

/-! ## A run -/

/-- Tasks that entered a queue of a run, each at some point of it. -/
def EnteredBy (backend : Backend) (s : Sys) (l : List Action) (entered : List TaskId) : Prop :=
  ∀ t ∈ entered, ∃ before after s1, l = before ++ after ∧
    (runtime backend).run s before = .ok s1 ∧ s1.Entering t

/-- The turns of a run compose. -/
theorem run_turn {backend : Backend} :
    ∀ (l : List Action) {s s' : Sys}, (runtime backend).Reach s →
      (∀ a ∈ l, a ≠ .deinitDrain ∧ a ≠ .deinitClose) → (runtime backend).run s l = .ok s' →
      (∃ entered, s.runq.tasks ++ entered = dispatches s l ++ s'.runq.tasks ∧
        EnteredBy backend s l entered) ∧
      ∀ w t, s'.wk.pc w = .dispatched t →
        s.wk.pc w = .dispatched t ∨ t ∈ dispatches s l := by
  intro l
  induction l with
  | nil =>
      intro s s' _ _ hrun
      cases hrun
      exact ⟨⟨[], List.append_nil _, fun _ ht => absurd ht List.not_mem_nil⟩, fun w t ht => .inl ht⟩
  | cons a rest ih =>
      intro s s' h hl hrun
      rw [Machine.run, Res.bind_ok] at hrun
      obtain ⟨s1, hstep, hrest⟩ := hrun
      obtain ⟨entered, horder, hall⟩ := step_turn h (hl a List.mem_cons_self) hstep
      have hmoved := step_moved hstep (IoInv.reach h).agree
      obtain ⟨⟨entered', horder', hall'⟩, htakes'⟩ := ih (.step h trivial hstep)
        (fun b hb => hl b (List.mem_cons_of_mem _ hb)) hrest
      have hcons : dispatches s (a :: rest) = (a.dispatched s1).toList ++ dispatches s1 rest := by
        have hs1 : step s a = .ok s1 := hstep
        rw [dispatches, hs1]
      rw [hcons]
      refine ⟨⟨entered ++ entered', ?_, fun t ht => ?_⟩, fun w t ht => ?_⟩
      · calc s.runq.tasks ++ (entered ++ entered')
            = (s.runq.tasks ++ entered) ++ entered' := (List.append_assoc ..).symm
          _ = (a.dispatched s1).toList ++ (s1.runq.tasks ++ entered') := by
              rw [horder, List.append_assoc]
          _ = ((a.dispatched s1).toList ++ dispatches s1 rest) ++ s'.runq.tasks := by
              rw [horder', List.append_assoc]
      · rcases List.mem_append.mp ht with ht | ht
        · exact ⟨[], a :: rest, s, rfl, rfl, hall t ht⟩
        · obtain ⟨before, after, x, hsplit, hbefore, hent⟩ := hall' t ht
          refine ⟨a :: before, after, x, by rw [hsplit, List.cons_append], ?_, hent⟩
          rw [Machine.run, Res.bind_ok]
          exact ⟨s1, hstep, hbefore⟩
      · rcases htakes' w t ht with hs1 | hmem
        · rcases (hmoved w).takes hs1 with hs | hd
          · exact .inl hs
          · exact .inr (List.mem_append_left _ (by rw [hd]; exact List.mem_singleton_self t))
        · exact .inr (List.mem_append_right _ hmem)

/-- **Tasks are dispatched in the order of the queue.**  In every run up to `worker_deinit`,
whatever the workers, the tasks and the kernel do in between, the tasks dispatched and then
those still queued are the tasks queued at first followed by those that became runnable.  So
a queued task is dispatched after exactly the tasks ahead of it, or it still has the same
tasks behind it and some of those ahead before it; and no worker takes a task in another
way. -/
theorem dispatch_in_queue_order {backend : Backend} {s s' : Sys} {l : List Action}
    (h : (runtime backend).Reach s) (hl : ∀ a ∈ l, a ≠ .deinitDrain ∧ a ≠ .deinitClose)
    (hrun : (runtime backend).run s l = .ok s') :
    (∃ entered, s.runq.tasks ++ entered = dispatches s l ++ s'.runq.tasks ∧
      EnteredBy backend s l entered) ∧
    (∀ ahead t behind, s.runq.tasks = ahead ++ t :: behind →
      (∃ later, dispatches s l = ahead ++ t :: later) ∨
      ∃ left, ahead = dispatches s l ++ left ∧ left ++ t :: behind <+: s'.runq.tasks) ∧
    ∀ w t, s'.wk.pc w = .dispatched t →
      s.wk.pc w = .dispatched t ∨ t ∈ dispatches s l := by
  obtain ⟨⟨entered, horder, hall⟩, htakes⟩ := run_turn l h hl hrun
  refine ⟨⟨entered, horder, hall⟩, fun ahead t behind hqueue => ?_, htakes⟩
  rw [hqueue, List.append_assoc] at horder
  rcases List.append_eq_append_iff.mp horder with ⟨beyond, hbeyond, htail⟩ | ⟨left, hleft, htail⟩
  · cases beyond with
    | nil =>
        refine .inr ⟨[], ?_, ⟨entered, ?_⟩⟩
        · rw [hbeyond, List.append_nil, List.append_nil]
        · exact htail
    | cons u later =>
        obtain ⟨rfl, _⟩ := List.cons.inj htail
        exact .inl ⟨later, hbeyond⟩
  · refine .inr ⟨left, hleft, ⟨entered, ?_⟩⟩
    rw [htail, List.append_assoc]

/-- The main task spawns two tasks. -/
def twoSpawned : List Action :=
  startUp 1 ++ dispatchOn 0 ++
    [.spawnAlloc (.worker 0) (.plain false), .spawnPublish (.worker 0) 1 .calm,
      .spawnAlloc (.worker 0) (.plain false), .spawnPublish (.worker 0) 2 .calm]

/-- It yields, and its worker takes the next task. -/
def yieldOnce : List Action :=
  [.yield 0, .switchOut 0, .rereadShutdown 0, .requeue 0 .calm] ++ dispatchOn 0

theorem dispatch_in_queue_order_after_yield :
    ∃ s s', (runtime .epoll).Reach s ∧ (runtime .epoll).run s yieldOnce = .ok s' ∧
      s.runq.tasks = [1, 2] ∧ dispatches s yieldOnce = [1] ∧ s'.runq.tasks = [2, 0] ∧
      ∃ left, [1] = dispatches s yieldOnce ++ left ∧ left ++ 2 :: [] <+: s'.runq.tasks := by
  have hreach : (runtime .epoll).Reach ((runtime .epoll).after (small 1) twoSpawned) :=
    Machine.reach_after (small_init 1 (by decide)) (by decide)
  have hrun := Machine.run_eq_after (M := runtime .epoll)
    (s := (runtime .epoll).after (small 1) twoSpawned) (l := yieldOnce) (by decide)
  have hl : ∀ a ∈ yieldOnce, a ≠ .deinitDrain ∧ a ≠ .deinitClose := by
    simp [yieldOnce, dispatchOn]
  have hone : dispatches ((runtime .epoll).after (small 1) twoSpawned) yieldOnce = [1] := by decide
  refine ⟨_, _, hreach, hrun, by decide, hone, by decide, ?_⟩
  rcases (dispatch_in_queue_order hreach hl hrun).2.1 [1] 2 [] (by decide) with ⟨later, heq⟩ | hleft
  · rw [hone] at heq
    exact absurd (congrArg List.length heq) (by simp)
  · exact hleft

end Croutine
