import Croutine.Sleep
import Croutine.TaskMoves

/-!
# The lifecycle and the calls under way

How the steps of `croutine_runtime_init`, `croutine_runtime_run` and
`croutine_runtime_shutdown` move the lifecycle, and which calls can be under way at each point
of it.  `worker_spawn`, `worker_forget_fd`, `worker_request_shutdown` and `task_finished` call
`croutine_poller_wake` after they have left the critical section, and `worker_spawn` builds the
task before it enters its own: `Engaged` says where the threads are that are in between.
-/

namespace Croutine

/-- The steps of the scheduler that are steps of the three functions. -/
def Action.ofControl : Action → Bool
  | .runtimeInit | .runCall | .workersAllocFail _ | .createWorker | .createWorkerFail _
  | .waitForMain | .joinWorkers | .shutdownCall _ | .deinitDrain | .deinitClose => true
  | _ => false

/-! ## The lifecycle below -/

/-- The lifecycle stays as it is, or `worker_spawn` of the main task has returned. -/
inductive Beneath (s s' : Sys) : Prop
  | stays (h : s'.life = s.life)
  | spawned (h : s.life = .runSpawn) (h' : s'.life = .creating 0 ∨ s'.life = .ranOut)
      (hnone : ∀ p ∈ s'.spawns, p.1 ≠ .runtime)

/-- A failed spawn of the main task ends `croutine_runtime_run`; any other leaves the
lifecycle. -/
theorem spawnFailed_beneath {s x : Sys} {isMain : Bool} (hx : x.life = s.life)
    (hmain : isMain = true → s.life = .runSpawn ∧ ∀ p ∈ x.spawns, p.1 ≠ .runtime) :
    Beneath s (spawnFailed x isMain) := by
  unfold spawnFailed
  split
  · next hm => exact .spawned (hmain hm).1 (.inr rfl) (hmain hm).2
  · exact .stays hx

/-- A thread has one `worker_spawn` under way. -/
theorem LifeInv.spawns_erase {s : Sys} (h : LifeInv s) {θ : Thread} {t : TaskId}
    (hmem : (θ, t) ∈ s.spawns) : ∀ p ∈ s.spawns.erase (θ, t), p.1 ≠ θ := by
  have hnodup := h.spawners
  rw [List.Perm.nodup_iff ((List.perm_cons_erase hmem).map Prod.fst), List.map_cons,
    List.nodup_cons] at hnodup
  intro p hp heq
  exact hnodup.1 (List.mem_map.mpr ⟨p, hp, heq⟩)

/-- Outside the three functions the lifecycle goes on only when the main task is spawned or
cannot be. -/
theorem SchedStep.beneath {a : Action} {s s' : Sys} (h : SchedStep s a s')
    (hlife : LifeInv s) (ha : a.ofControl = false) : Beneath s s' := by
  cases h with
  | @spawnAlloc θ r hspawn hne =>
      have hmain : r.isMain = true → s.life = .runSpawn ∧ ∀ p ∈ s.spawns, p.1 ≠ .runtime := by
        intro hm
        rw [canSpawn, if_pos hm] at hspawn
        simp only [Bool.and_eq_true, decide_eq_true_eq, Bool.not_eq_true', List.any_eq_false]
          at hspawn
        obtain ⟨⟨hθ, hl⟩, hnone⟩ := hspawn
        exact ⟨hl, fun p hp => hθ ▸ hnone p hp⟩
      rcases workerSpawnAlloc_cases s θ r with heq | ⟨l, _, heq⟩ | heq <;> rw [heq]
      · exact spawnFailed_beneath rfl hmain
      · exact spawnFailed_beneath rfl hmain
      · exact .stays rfl
  | @spawnPublish hlock o θ t hmem =>
      have hmain : (s.tasks t).isMain = true →
          s.life = .runSpawn ∧ ∀ p ∈ s.spawns.erase (θ, t), p.1 ≠ .runtime := by
        intro hm
        obtain ⟨hθ, hl⟩ := hlife.mainSpawn _ hmem hm
        exact ⟨hl, fun p hp => hθ ▸ hlife.spawns_erase hmem p hp⟩
      rcases workerSpawnPublish_cases o s θ t with heq | ⟨_, s1, hpush, heq⟩ <;> rw [heq]
      · exact spawnFailed_beneath rfl hmain
      · have hs1 : s1.life = s.life ∧ s1.spawns = s.spawns.erase (θ, t) := by
          rcases taskQueuePush_some hpush with ⟨_, rfl⟩ | ⟨_, cap, _, rfl⟩ <;> exact ⟨rfl, rfl⟩
        by_cases hm : (s.tasks t).isMain = true
        · refine .spawned (hmain hm).1 (.inl (by simp [published, hm])) ?_
          show ∀ p ∈ s1.spawns, p.1 ≠ .runtime
          rw [hs1.2]
          exact (hmain hm).2
        · exact .stays (by simp [published, hm, hs1.1])
  | deinitDrain | deinitClose | runtimeInit | runCall | createWorker | waitForMain | joinWorkers =>
      exact absurd ha (by simp [Action.ofControl])
  | forgetFd hlock hint hforget =>
      rcases workerForgetFd_ok hforget with ⟨_, rfl⟩ | ⟨_, s1, n, hwake, rfl⟩
      · exact .stays rfl
      · have hl := (wakeWaitingTasksLocked_woke hwake).life
        split <;> exact .stays hl
  | @waitIo hlock o w t fd direction hint hpc hframe =>
      refine .stays ?_
      rcases workerParkCurrentOnIo_form o s w t fd (IoEvents.none.put direction true) with
        ⟨_, _, heq⟩ | ⟨_, _, _, _, heq⟩
      · rw [heq]
      · rw [heq]; rfl
  | requeue hlock hpc hrequeue =>
      obtain ⟨s2, hpush, rfl⟩ := requeueTask_ok hrequeue
      rcases taskQueuePush_some hpush with ⟨_, rfl⟩ | ⟨_, cap, _, rfl⟩ <;> exact .stays rfl
  | @loop hlock w checked hpc => exact .stays (loopBody_outcome w checked s).life
  | @condReturn hlock w signalled checked hpc => exact .stays (loopBody_outcome w checked _).life
  | pollReturn hlock hpc hpoll =>
      rcases leavePoll_ok hpoll with ⟨_, rfl⟩ | ⟨_, s2, hbatch, hout⟩
      · exact .stays rfl
      · have hl := pollBatch_life hbatch
        exact .stays (hout.life.trans hl)
  | pollFailed hlock hpc hpoll =>
      obtain ⟨_, rfl⟩ := leavePollError_ok hpoll
      exact .stays rfl
  | _ => exact .stays rfl

variable {s s' : Sys} {a : Action}

/-- **Steps below the lifecycle.** A step of none of the three runtime functions leaves the
lifecycle, or ends the spawn of the main task. -/
theorem step_beneath (hlife : LifeInv s) (h : step s a = .ok s') (ha : a.ofControl = false) :
    Beneath s s' := by
  rcases step_kind h with hc | hs
  · by_cases hr : a.requestsShutdown = true
    · cases a with
      | requestShutdown θ o =>
          obtain ⟨_, _, hreq⟩ := Res.bind_ok.mp h
          obtain ⟨s1, hclose, hret⟩ := Res.bind_ok.mp hreq
          obtain rfl := Res.pure_ok.mp hret
          exact .stays (croutineChannelShutdownAllLocked_wakes hclose).sameCore.life
      | workersAllocFail o | createWorkerFail o | shutdownCall o =>
          exact absurd ha (by simp [Action.ofControl])
      | _ => exact absurd hr (by simp [Action.requestsShutdown])
    · refine .stays ?_
      cases hc.effect with
      | wakes hw => exact hw.sameCore.life
      | enters hw hpc hframe hcaller hcall =>
          unfold workerParkCurrentOnChannelLocked
          split <;> exact hw.sameCore.life
      | shutdown ha' hclose => exact absurd ha' hr
      | returned hpc ha' hframe κ => rfl
  · exact hs.beneath hlife ha

/-- What the steps of the three functions do to the lifecycle. -/
def LifeMove (l l' : Lifecycle) : Action → Prop
  | .runtimeInit => l = .preInit ∧ l' = .inited
  | .runCall => l = .inited ∧ l' = .runSpawn
  | .workersAllocFail _ => l = .creating 0 ∧ l' = .ranOut
  | .createWorker => ∃ k, l = .creating k ∧ l' = .creating (k + 1)
  | .createWorkerFail _ => ∃ k, l = .creating k ∧ l' = .joining
  | .waitForMain => ∃ k, l = .creating k ∧ l' = .joining
  | .joinWorkers => l = .joining ∧ l' = .ranOut
  | .shutdownCall _ => (l = .inited ∨ l = .ranOut) ∧ l' = .shutJoin
  | .deinitDrain => l = .shutJoin ∧ l' = .drained
  | .deinitClose => l = .drained ∧ l' = .down
  | _ => True

/-- **Lifecycle moves.** A step of one of the three runtime functions moves the lifecycle as
the function does. -/
theorem step_lifeMove (h : step s a = .ok s') :
    LifeMove s.life s'.life a := by
  cases a with
  | runtimeInit =>
      obtain ⟨_, hg, hret⟩ := Res.bind_ok.mp h
      cases Res.pure_ok.mp hret
      simp only [Res.require_ok, Bool.and_eq_true, decide_eq_true_eq] at hg
      exact ⟨hg.1, rfl⟩
  | runCall =>
      obtain ⟨_, hg, hret⟩ := Res.bind_ok.mp h
      cases Res.pure_ok.mp hret
      simp only [Res.require_ok, Bool.and_eq_true, decide_eq_true_eq] at hg
      exact ⟨hg.1, rfl⟩
  | workersAllocFail o =>
      obtain ⟨_, hg, hreq⟩ := Res.bind_ok.mp h
      obtain ⟨s1, _, hret⟩ := Res.bind_ok.mp hreq
      cases Res.pure_ok.mp hret
      simp only [Res.require_ok, Bool.and_eq_true, decide_eq_true_eq] at hg
      exact ⟨hg.1.1, rfl⟩
  | createWorker =>
      simp only [step] at h
      split at h
      · next k hl =>
        obtain ⟨_, _, hret⟩ := Res.bind_ok.mp h
        cases Res.pure_ok.mp hret
        exact ⟨k, hl, rfl⟩
      · exact absurd h (by simp)
  | createWorkerFail o =>
      simp only [step] at h
      split at h
      · next k hl =>
        obtain ⟨_, _, hreq⟩ := Res.bind_ok.mp h
        obtain ⟨s1, _, hret⟩ := Res.bind_ok.mp hreq
        cases Res.pure_ok.mp hret
        exact ⟨k, hl, rfl⟩
      · exact absurd h (by simp)
  | waitForMain =>
      obtain ⟨_, hg, hret⟩ := Res.bind_ok.mp h
      cases Res.pure_ok.mp hret
      simp only [Res.require_ok, Bool.and_eq_true, decide_eq_true_eq] at hg
      exact ⟨_, hg.1, rfl⟩
  | joinWorkers =>
      obtain ⟨_, hg, hret⟩ := Res.bind_ok.mp h
      cases Res.pure_ok.mp hret
      simp only [Res.require_ok, Bool.and_eq_true, decide_eq_true_eq] at hg
      exact ⟨hg.1.1, rfl⟩
  | shutdownCall o =>
      obtain ⟨_, hg, hreq⟩ := Res.bind_ok.mp h
      obtain ⟨s1, _, hret⟩ := Res.bind_ok.mp hreq
      cases Res.pure_ok.mp hret
      simp only [Res.require_ok, Bool.and_eq_true, Bool.or_eq_true, decide_eq_true_eq] at hg
      exact ⟨hg.1.1, rfl⟩
  | deinitDrain =>
      obtain ⟨_, hg, hret⟩ := Res.bind_ok.mp h
      cases Res.pure_ok.mp hret
      simp only [Res.require_ok, Bool.and_eq_true, decide_eq_true_eq] at hg
      exact ⟨hg.1.1, rfl⟩
  | deinitClose =>
      obtain ⟨_, hg, hret⟩ := Res.bind_ok.mp h
      cases Res.pure_ok.mp hret
      simp only [Res.require_ok, decide_eq_true_eq] at hg
      exact ⟨hg, rfl⟩
  | _ => trivial

/-- Only `pthread_create` starts a worker. -/
theorem step_started (hagree : IoAgree s.tasks s.io) (h : step s a = .ok s')
    (ha : a ≠ .createWorker) (w : WorkerId) :
    s'.wk.pc w = .notStarted ↔ s.wk.pc w = .notStarted := by
  rcases step_moved h hagree w with heq | heq | hmove
  · rw [heq]
  · rw [heq]
    cases s.wk.pc w <;> simp [Pc.signal]
  · generalize s.wk.pc w = p at hmove ⊢
    generalize s'.wk.pc w = p' at hmove ⊢
    cases hmove with
    | start => exact absurd rfl ha
    | loop hs | wakeUp hs | pollReturn hs => cases hs <;> simp
    | switchOut => split <;> simp
    | @reread t st => rcases afterReread_cases s t st with heq | heq | heq <;> simp [heq]
    | _ => simp

/-! ## Calls under way -/

/-- A thread calls out of user code only. -/
theorem step_canAct (h : step s a = .ok s') {θ : Thread} (ha : a.acts = some θ) :
    s.canAct θ = true := by
  cases a with
  | channelCreate θ' _ _ _ =>
      cases ha
      obtain ⟨_, hg, _⟩ := Res.bind_ok.mp h
      simp only [Res.require_ok, Bool.and_eq_true] at hg
      exact hg.1
  | channelDestroy θ' _ | channelSend θ' _ _ _ | channelTrySend θ' _ _ _ | channelRecv θ' _ _ _
  | channelTryRecv θ' _ _ _ | channelClose θ' _ _ | select θ' _ _ _ _ | forgetFd θ' _ _
  | requestShutdown θ' _ | waitIo w _ _ _ =>
      cases ha
      obtain ⟨_, hg, _⟩ := Res.bind_ok.mp h
      simp only [Res.require_ok, Bool.and_eq_true] at hg
      exact hg.1.1
  | userWrite θ' _ _ | yield w | taskReturn w =>
      cases ha
      obtain ⟨_, hg, _⟩ := Res.bind_ok.mp h
      exact Res.require_ok.mp hg
  | spawnAlloc θ' r =>
      simp only [Action.acts] at ha
      split at ha
      · exact absurd ha (by simp)
      · next hm =>
        cases ha
        obtain ⟨_, hg, _⟩ := Res.bind_ok.mp h
        simp only [Res.require_ok, Bool.and_eq_true, canSpawn, if_neg hm] at hg
        exact hg.1
  | _ => exact absurd ha (by simp [Action.acts])

/-- A thread that is inside a call does not begin another. -/
theorem step_busy (h : step s a = .ok s') {θ : Thread} (hbusy : ¬ s.canAct θ = true) :
    a.acts ≠ some θ :=
  fun hacts => hbusy (step_canAct h hacts)

/-- A thread that can act owes no wake. -/
theorem Sys.canAct_owes {θ : Thread} (h : s.canAct θ = true) : θ ∉ s.wk.owes := by
  simp only [Sys.canAct, Bool.and_eq_true, Bool.not_eq_true', List.contains_eq_mem,
    decide_eq_false_iff_not] at h
  exact h.1.1

/-- How a thread comes to owe a wake of the poller. -/
inductive ComesToOwe (s s' : Sys) : Action → Thread → Prop
  | publishes {θ : Thread} {t : TaskId} {o : Oracle} (hmem : (θ, t) ∈ s.spawns)
      (hactive : s.wk.pollerWaiterActive = true) (hsig : Signals s.wk s'.wk) :
      ComesToOwe s s' (.spawnPublish θ t o) θ
  | forgets {θ : Thread} {fd : Int} {o : Oracle} (hactive : s.wk.pollerWaiterActive = true)
      (hsig : Signals s.wk s'.wk) : ComesToOwe s s' (.forgetFd θ fd o) θ
  | requests {θ : Thread} {o : Oracle} (hinit : s.initialized = true)
      (hsig : Signals s.wk s'.wk) : ComesToOwe s s' (.requestShutdown θ o) θ
  | finishes {w : WorkerId} {t : TaskId} (hpc : s'.wk.pc w = .switching t .finished) :
      ComesToOwe s s' (.finishSched w) (.worker w)
  | allocFails {o : Oracle} : ComesToOwe s s' (.workersAllocFail o) .runtime
  | createFails {o : Oracle} : ComesToOwe s s' (.createWorkerFail o) .runtime
  | shutsDown {o : Oracle} : ComesToOwe s s' (.shutdownCall o) .runtime

/-- Publishing a task adds at most the publisher to those who owe a wake, and that only while a
worker is in the poller. -/
theorem workerSpawnPublish_owes {o : Oracle} {θ ψ : Thread} {t : TaskId}
    (hψ : ψ ∈ (workerSpawnPublish o s θ t).wk.owes) :
    ψ ∈ s.wk.owes ∨ ψ = θ ∧ s.wk.pollerWaiterActive = true := by
  rcases workerSpawnPublish_cases o s θ t with heq | ⟨_, s1, hpush, heq⟩ <;> rw [heq] at hψ
  · rw [spawnFailed_eq] at hψ
    exact .inl hψ
  · have hwk := taskQueuePush_wk hpush
    obtain ⟨_, _, howes, _, hactive, _⟩ := s1.wk.condSignal_fields o.pick
    unfold published at hψ
    dsimp only at hψ hwk
    split at hψ
    · next hact =>
      rcases List.mem_cons.mp hψ with rfl | hmem
      · rw [hwk] at hact
        exact .inr ⟨rfl, hact⟩
      · rw [howes, hwk] at hmem
        exact .inl hmem
    · refine .inl ?_
      have hmem : ψ ∈ (s1.wk.condSignal o.pick).owes := hψ
      rw [howes, hwk] at hmem
      exact hmem

/-- What a step does to the calls under way. -/
structure CallsChange (s : Sys) (a : Action) (s' : Sys) : Prop where
  owes : ∀ θ ∈ s'.wk.owes, θ ∈ s.wk.owes ∨ ComesToOwe s s' a θ
  spawns : ∀ p ∈ s'.spawns, p ∈ s.spawns ∨
    s'.wk = s.wk ∧ ∃ r, a = .spawnAlloc p.1 r ∧ canSpawn s p.1 r.isMain = true

/-- A step that writes neither the debts nor the spawns. -/
theorem CallsChange.same (howes : s'.wk.owes = s.wk.owes) (hspawns : s'.spawns = s.spawns) :
    CallsChange s a s' :=
  ⟨fun _ hθ => .inl (howes ▸ hθ), fun _ hp => .inl (hspawns ▸ hp)⟩

/-- The loop body writes neither the debts nor the spawns. -/
theorem LoopOutcome.calls {w : WorkerId} {checked : Bool} (h : LoopOutcome w checked s s') :
    s'.wk.owes = s.wk.owes ∧ s'.spawns = s.spawns := by
  cases h <;> exact ⟨rfl, rfl⟩

/-- Waking waiters on a descriptor adds no debt. -/
theorem IoWoke.owes {n : Nat} (h : IoWoke s s' n) : s'.wk.owes = s.wk.owes := by
  rcases Nat.eq_zero_or_pos n with hn | hn
  · rw [(h.none hn).2]
  · rw [h.some hn]
    rfl

/-- Handling a batch of poll events writes neither the debts nor the spawns. -/
theorem pollBatch_calls {o : Oracle} {events : List PollEvent}
    (h : events.foldlM (applyPollEvent o) s = .ok s') :
    s'.wk.owes = s.wk.owes ∧ s'.spawns = s.spawns := by
  refine Res.foldlM_induct (I := fun x => x.wk.owes = s.wk.owes ∧ x.spawns = s.spawns) ?_ events
    ⟨rfl, rfl⟩ h
  intro x e x' hx hstep
  obtain ⟨n, hwake⟩ := applyPollEvent_ok hstep
  have hwoke := wakeWaitingTasksLocked_woke hwake
  exact ⟨hwoke.owes.trans hx.1, hwoke.spawns.trans hx.2⟩

/-- A spawn that begins is one of the thread that asked for it. -/
theorem workerSpawnAlloc_spawns {θ : Thread} {r : SpawnRequest} {p : Thread × TaskId}
    (hp : p ∈ (workerSpawnAlloc s θ r).spawns) : p ∈ s.spawns ∨ p.1 = θ := by
  rcases workerSpawnAlloc_cases s θ r with heq | ⟨l, _, heq⟩ | heq <;> rw [heq] at hp
  · rw [spawnFailed_eq] at hp
    exact .inl hp
  · rw [spawnFailed_eq] at hp
    exact .inl hp
  · rcases List.mem_cons.mp hp with rfl | hmem
    · exact .inr rfl
    · exact .inl hmem

/-- Publishing a task ends its spawn. -/
theorem workerSpawnPublish_spawns (o : Oracle) (s : Sys) (θ : Thread) (t : TaskId) :
    (workerSpawnPublish o s θ t).spawns = s.spawns.erase (θ, t) := by
  rcases workerSpawnPublish_cases o s θ t with heq | ⟨_, s1, hpush, heq⟩ <;> rw [heq]
  · rw [spawnFailed_eq]
    rfl
  · rcases taskQueuePush_some hpush with ⟨_, rfl⟩ | ⟨_, cap, _, rfl⟩ <;> rfl

/-- **Calls under way, scheduler.** A scheduler step begins no call but those its action names.
-/
theorem SchedStep.calls (h : SchedStep s a s') : CallsChange s a s' := by
  cases h with
  | @spawnAlloc θ r hspawn hne =>
      have hwk := workerSpawnAlloc_wk s θ r
      refine ⟨fun ψ hψ => .inl (hwk ▸ hψ), fun p hp => ?_⟩
      refine (workerSpawnAlloc_spawns hp).imp id fun hθ => ⟨hwk, r, ?_⟩
      rw [hθ]
      exact ⟨rfl, hspawn⟩
  | @spawnPublish hlock o θ t hmem =>
      refine ⟨fun ψ hψ => ?_, fun p hp => .inl ?_⟩
      · rcases workerSpawnPublish_owes hψ with hold | ⟨rfl, hactive⟩
        · exact .inl hold
        · exact .inr (.publishes hmem hactive (workerSpawnPublish_signals o s ψ t))
      · rw [workerSpawnPublish_spawns] at hp
        exact List.mem_of_mem_erase hp
  | forgetFd hlock hint hforget =>
      rcases workerForgetFd_ok hforget with ⟨_, rfl⟩ | ⟨_, s1, n, hwake, rfl⟩
      · exact .same rfl rfl
      · have hwoke := wakeWaitingTasksLocked_woke hwake
        obtain ⟨_, _, hactive⟩ := hwoke.fields
        split
        · next hact =>
          refine ⟨fun ψ hψ => ?_, fun p hp => .inl (hwoke.spawns ▸ hp)⟩
          rcases List.mem_cons.mp hψ with rfl | hmem
          · exact .inr (.forgets (hactive ▸ hact.2) hwoke.signals)
          · exact .inl (hwoke.owes ▸ hmem)
        · exact .same hwoke.owes hwoke.spawns
  | @waitIo hlock o w t fd direction hint hpc hframe =>
      rcases workerParkCurrentOnIo_form o s w t fd (IoEvents.none.put direction true) with
        ⟨_, _, heq⟩ | ⟨_, _, _, _, heq⟩ <;> (rw [heq]; exact .same rfl rfl)
  | pollerWake hmem =>
      exact ⟨fun ψ hψ => .inl (List.mem_of_mem_erase hψ), fun p hp => .inl hp⟩
  | finishSched hlock hpc =>
      refine ⟨fun ψ hψ => ?_, fun p hp => .inl hp⟩
      rcases List.mem_cons.mp hψ with rfl | hmem
      · exact .inr (.finishes (Function.update_self ..))
      · exact .inl hmem
  | @requeue hlock o w t s1 hpc hrequeue =>
      obtain ⟨s2, hpush, rfl⟩ := requeueTask_ok hrequeue
      obtain ⟨_, _, howes, _⟩ := s2.wk.condSignal_fields o.pick
      rcases taskQueuePush_some hpush with ⟨_, rfl⟩ | ⟨_, cap, _, rfl⟩
      · exact .same howes rfl
      · exact .same howes rfl
  | @loop hlock w checked hpc =>
      have hout := (loopBody_outcome w checked s).calls
      exact .same hout.1 hout.2
  | @condReturn hlock w signalled checked hpc =>
      have hout : LoopOutcome w checked _ (leaveCondWait w checked s) := loopBody_outcome ..
      exact .same hout.calls.1 hout.calls.2
  | pollReturn hlock hpc hpoll =>
      rcases leavePoll_ok hpoll with ⟨_, rfl⟩ | ⟨_, s2, hbatch, hout⟩
      · exact .same rfl rfl
      · have hs2 := pollBatch_calls hbatch
        exact .same (hout.calls.1.trans hs2.1) (hout.calls.2.trans hs2.2)
  | pollFailed hlock hpc hpoll =>
      obtain ⟨_, rfl⟩ := leavePollError_ok hpoll
      exact .same rfl rfl
  | deinitDrain hlock hlife =>
      refine .same ?_ ?_
      · show (workerDeinitDrain s).wk.owes = s.wk.owes
        rw [(DrainFrame.deinit s).eq]
      · show (workerDeinitDrain s).spawns = s.spawns
        rw [(DrainFrame.deinit s).eq]
  | _ => exact .same rfl rfl

/-- Requesting the shutdown makes the caller owe a wake, and signals the workers. -/
theorem workerRequestShutdown_calls {o : Oracle} {θ : Thread}
    (h : workerRequestShutdown o s θ = .ok s') :
    s'.wk.owes = θ :: s.wk.owes ∧ s'.spawns = s.spawns ∧ Signals s.wk s'.wk := by
  obtain ⟨s1, hclose, hret⟩ := Res.bind_ok.mp h
  cases Res.pure_ok.mp hret
  have hwakes := croutineChannelShutdownAllLocked_wakes hclose
  refine ⟨congrArg (θ :: ·) hwakes.sameCore.owes, hwakes.sameCore.spawns, ?_⟩
  exact hwakes.signals.trans (.condBroadcast s1.wk)

/-- **Calls under way.** A step begins no call but those its action names. -/
theorem step_calls (h : step s a = .ok s') : CallsChange s a s' := by
  -- a call of worker_request_shutdown: its thread comes to owe a wake
  have howe : ∀ {o : Oracle} {θ : Thread} {x : Sys}, workerRequestShutdown o s θ = .ok x →
      s'.wk = x.wk → s'.spawns = x.spawns → (Signals s.wk s'.wk → ComesToOwe s s' a θ) →
      CallsChange s a s' := by
    intro o θ x hreq hwk hspawns hcomes
    obtain ⟨howes, hsame, hsig⟩ := workerRequestShutdown_calls hreq
    refine ⟨fun ψ hψ => ?_, fun p hp => .inl (hsame ▸ hspawns ▸ hp)⟩
    rw [hwk, howes] at hψ
    rcases List.mem_cons.mp hψ with rfl | hmem
    · exact .inr (hcomes (hwk ▸ hsig))
    · exact .inl hmem
  rcases step_kind h with hc | hs
  · by_cases hr : a.requestsShutdown = true
    · cases a with
      | requestShutdown θ o =>
          obtain ⟨_, hg, hreq⟩ := Res.bind_ok.mp h
          simp only [Res.require_ok, Bool.and_eq_true] at hg
          exact howe hreq rfl rfl (.requests hg.2)
      | workersAllocFail o =>
          obtain ⟨_, _, hrest⟩ := Res.bind_ok.mp h
          obtain ⟨s1, hreq, hret⟩ := Res.bind_ok.mp hrest
          cases Res.pure_ok.mp hret
          exact howe hreq rfl rfl fun _ => .allocFails
      | createWorkerFail o =>
          simp only [step] at h
          split at h
          · obtain ⟨_, _, hrest⟩ := Res.bind_ok.mp h
            obtain ⟨s1, hreq, hret⟩ := Res.bind_ok.mp hrest
            cases Res.pure_ok.mp hret
            exact howe hreq rfl rfl fun _ => .createFails
          · exact absurd h (by simp)
      | shutdownCall o =>
          obtain ⟨_, _, hrest⟩ := Res.bind_ok.mp h
          obtain ⟨s1, hreq, hret⟩ := Res.bind_ok.mp hrest
          cases Res.pure_ok.mp hret
          exact howe hreq rfl rfl fun _ => .shutsDown
      | _ => exact absurd hr (by simp [Action.requestsShutdown])
    · cases hc.effect with
      | wakes hw => exact .same hw.sameCore.owes hw.sameCore.spawns
      | enters hw hpc hframe hacts hcall =>
          unfold workerParkCurrentOnChannelLocked
          split <;> exact .same hw.sameCore.owes hw.sameCore.spawns
      | shutdown ha hclose => exact absurd ha hr
      | returned hpc ha hframe κ => exact .same rfl rfl
  · exact hs.calls

/-! ## Where the threads are -/

/-- Where a thread can be that owes a wake of the poller. -/
def OwesAt (s : Sys) : Thread → Prop
  | .worker w => ∃ t, s.wk.pc w = .running t ∨ s.wk.pc w = .switching t .finished
  | .runtime => s.life ≠ .preInit ∧ s.life ≠ .drained ∧ s.life ≠ .down
  | .external _ => s.life ≠ .preInit

/-- Where a thread can be that has built a task and not yet pushed it. -/
def SpawnsAt (s : Sys) : Thread → Prop
  | .worker w => ∃ t, s.wk.pc w = .running t
  | .runtime => s.life = .runSpawn
  | .external _ => True

structure Engaged (s : Sys) : Prop where
  owes : ∀ θ ∈ s.wk.owes, OwesAt s θ
  spawns : ∀ p ∈ s.spawns, SpawnsAt s p.1

/-- A finished task that owes a wake stays on its worker. -/
theorem step_lateFinish (hlife : LifeInv s) (hagree : IoAgree s.tasks s.io)
    (h : step s a = .ok s') {w : WorkerId} {t : TaskId}
    (hpc : s.wk.pc w = .switching t .finished) (howes : .worker w ∈ s.wk.owes) :
    s'.wk.pc w = .switching t .finished := by
  have hstart := hlife.not_creating (w := w) (by rw [hpc]; simp)
  rcases step_moved h hagree w with heq | heq | hmove
  · exact heq.trans hpc
  · rw [heq, hpc]
    rfl
  · rw [hpc] at hmove
    generalize s'.wk.pc w = p at hmove
    cases hmove with
    | start hl => exact absurd hl hstart
    | switchOut =>
        obtain ⟨_, hg, _⟩ := Res.bind_ok.mp h
        simp only [Res.require_ok, Bool.not_eq_true', List.contains_eq_mem,
          decide_eq_false_iff_not] at hg
        exact absurd howes hg

/-- No step leads back before `croutine_runtime_init`. -/
theorem step_past_init (hlife : LifeInv s) (h : step s a = .ok s') (hs : s.life ≠ .preInit) :
    s'.life ≠ .preInit := by
  have hmove := step_lifeMove h
  cases a with
  | createWorker | createWorkerFail o | waitForMain =>
      obtain ⟨k, _, hl'⟩ := hmove
      simp [hl']
  | runtimeInit | runCall | workersAllocFail o | joinWorkers | shutdownCall o | deinitDrain
  | deinitClose =>
      obtain ⟨_, hl'⟩ := hmove
      simp [hl']
  | _ =>
      rcases step_beneath hlife h rfl with heq | ⟨_, hl' | hl', _⟩
      · rwa [heq]
      · simp [hl']
      · simp [hl']

/-- `worker_deinit` begins when the control thread has made its wake. -/
theorem step_runtime (hlife : LifeInv s) (h : step s a = .ok s')
    (hs : OwesAt s .runtime) (howes : .runtime ∈ s.wk.owes) : OwesAt s' .runtime := by
  have hmove := step_lifeMove h
  obtain ⟨hpre, hdrained, hdown⟩ := hs
  refine ⟨step_past_init hlife h hpre, ?_⟩
  cases a with
  | createWorker | createWorkerFail o | waitForMain =>
      obtain ⟨k, _, hl'⟩ := hmove
      simp [hl']
  | runtimeInit | runCall | workersAllocFail o | joinWorkers | shutdownCall o =>
      obtain ⟨_, hl'⟩ := hmove
      simp [hl']
  | deinitDrain =>
      obtain ⟨_, hg, _⟩ := Res.bind_ok.mp h
      simp only [Res.require_ok, Bool.and_eq_true, Bool.not_eq_true', List.contains_eq_mem,
        decide_eq_false_iff_not] at hg
      exact absurd howes hg.2
  | deinitClose => exact absurd hmove.1 hdrained
  | _ =>
      rcases step_beneath hlife h rfl with heq | ⟨_, hl' | hl', _⟩
      · rw [heq]
        exact ⟨hdrained, hdown⟩
      · simp [hl']
      · simp [hl']

/-- The main task is being spawned until `worker_spawn` returns. -/
theorem step_runSpawn (hlife : LifeInv s) (h : step s a = .ok s') (hs : s.life = .runSpawn)
    {p : Thread × TaskId} (hp : p ∈ s'.spawns) (hθ : p.1 = .runtime) : s'.life = .runSpawn := by
  have hmove := step_lifeMove h
  cases a with
  | createWorker | createWorkerFail o | waitForMain =>
      obtain ⟨k, hl, _⟩ := hmove
      exact absurd (hs.symm.trans hl) (by simp)
  | runtimeInit | runCall | workersAllocFail o | joinWorkers | deinitDrain | deinitClose =>
      exact absurd (hs.symm.trans hmove.1) (by simp)
  | shutdownCall o =>
      rcases hmove.1 with hl | hl
      · exact absurd (hs.symm.trans hl) (by simp)
      · exact absurd (hs.symm.trans hl) (by simp)
  | _ =>
      rcases step_beneath hlife h rfl with heq | ⟨_, _, hnone⟩
      · exact heq.trans hs
      · exact absurd hθ (hnone p hp)

/-- The poller is waited on while workers run. -/
theorem LifeInv.active (h : LifeInv s) (hroles : s.wk.Roles)
    (hactive : s.wk.pollerWaiterActive = true) : s.life ≠ .preInit := by
  obtain ⟨w, hw⟩ := hroles.active.mp hactive
  have halive : (s.wk.pc w).alive = true := by
    cases hpc : s.wk.pc w <;> rw [hpc] at hw <;> first | rfl | exact absurd hw (by simp [Pc.polls])
  intro hl
  have hwork := h.working_of_alive halive
  rw [hl] at hwork
  exact absurd hwork (by simp [Lifecycle.working])

namespace Engaged

/-- A thread that comes to owe a wake is in a call. -/
theorem comesToOwe (hs : Engaged s) (hlife : LifeInv s) (hroles : s.wk.Roles)
    (h : step s a = .ok s') {θ : Thread} (hθ : ComesToOwe s s' a θ) : OwesAt s' θ := by
  have hmove := step_lifeMove h
  have hpast := step_past_init hlife h
  -- the thread ran user code before the step, which moved no worker out of its task
  have hcall : s.canAct θ = true → Signals s.wk s'.wk → s.life ≠ .preInit → OwesAt s' θ := by
    intro hact hsig hinit
    cases θ with
    | worker w =>
        obtain ⟨t, hpc, _⟩ := Sys.canAct_worker hact
        exact ⟨t, .inl ((hsig.fixed (by rw [hpc]; rfl)).trans hpc)⟩
    | runtime => exact absurd hact (by simp [Sys.canAct])
    | external e => exact hpast hinit
  cases hθ with
  | @publishes θ t o hmem hactive hsig =>
      have hinit := hlife.active hroles hactive
      have hspawn := hs.spawns _ hmem
      cases θ with
      | worker w =>
          obtain ⟨u, hpc⟩ := hspawn
          exact ⟨u, .inl ((hsig.fixed (by rw [hpc]; rfl)).trans hpc)⟩
      | runtime =>
          have hl : s.life = .runSpawn := hspawn
          refine ⟨hpast hinit, ?_⟩
          rcases step_beneath hlife h rfl with heq | ⟨_, hl' | hl', _⟩
          · simp [heq, hl]
          · simp [hl']
          · simp [hl']
      | external e => exact hpast hinit
  | forgets hactive hsig =>
      exact hcall (step_canAct h rfl) hsig (hlife.active hroles hactive)
  | requests hinit hsig =>
      refine hcall (step_canAct h rfl) hsig ?_
      intro hl
      rw [Sys.initialized, hl] at hinit
      exact absurd hinit (by simp)
  | finishes hpc => exact ⟨_, .inr hpc⟩
  | allocFails | shutsDown =>
      obtain ⟨_, hl'⟩ := hmove
      simp [OwesAt, hl']
  | createFails =>
      obtain ⟨k, _, hl'⟩ := hmove
      simp [OwesAt, hl']

/-- **One step** leaves every thread in a call where the invariant says. -/
theorem keeps {backend : Backend} (hs : Engaged s) (hreach : (runtime backend).Reach s)
    (h : step s a = .ok s') : Engaged s' := by
  have hlife := LifeInv.reach hreach
  have hcalls := step_calls h
  refine ⟨fun θ hθ => ?_, fun p hp => ?_⟩
  · rcases hcalls.owes θ hθ with hold | hnew
    · have hin := hs.owes θ hold
      cases θ with
      | worker w =>
          obtain ⟨t, hpc | hpc⟩ := hin
          · have hbusy := step_busy h fun hact => Sys.canAct_owes hact hold
            exact ⟨t, .inl (step_running hreach h hpc hbusy)⟩
          · exact ⟨t, .inr (step_lateFinish hlife (IoInv.reach hreach).agree h hpc hold)⟩
      | runtime => exact step_runtime hlife h hin hold
      | external e => exact step_past_init hlife h hin
    · exact hs.comesToOwe hlife (SleepInv.reach hreach).roles h hnew
  · obtain ⟨θ, u⟩ := p
    rcases hcalls.spawns _ hp with hold | ⟨hwk, r, ha, hspawn⟩
    · have hin := hs.spawns _ hold
      cases θ with
      | worker w =>
          obtain ⟨t, hpc⟩ := hin
          have hbusy := step_busy h fun hact => Sys.canAct_spawns hact u hold
          exact ⟨t, step_running hreach h hpc hbusy⟩
      | runtime => exact step_runSpawn hlife h hin hp rfl
      | external e => trivial
    · unfold canSpawn at hspawn
      split at hspawn
      · simp only [Bool.and_eq_true, decide_eq_true_eq] at hspawn
        obtain ⟨⟨hθ, hl⟩, _⟩ := hspawn
        have hθ : θ = .runtime := hθ
        subst hθ
        exact step_runSpawn hlife h hl hp rfl
      · cases θ with
        | worker w =>
            obtain ⟨t, hpc, _⟩ := Sys.canAct_worker hspawn
            exact ⟨t, hwk ▸ hpc⟩
        | runtime => exact absurd hspawn (by simp [Sys.canAct])
        | external e => trivial

/-- **Engaged threads, run.** In every reachable state a thread inside a call is where the call
can be made. -/
theorem reach {backend : Backend} (h : (runtime backend).Reach s) : Engaged s := by
  refine Machine.ReachVia.invariant (I := Engaged) ?_ ?_ h
  · intro x hx
    obtain ⟨wakeFd, workers, runCapacity, ioCapacity, _, _, rfl⟩ := hx
    exact ⟨fun θ hθ => absurd hθ List.not_mem_nil, fun p hp => absurd hp List.not_mem_nil⟩
  · intro x a x' hreach hx _ hstep
    exact hx.keeps hreach hstep

end Engaged

end Croutine
