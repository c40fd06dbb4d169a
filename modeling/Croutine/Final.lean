import Croutine.Closing
import Croutine.Destroyed

/-!
# Shutdown is final

Once shutdown was requested no worker takes a task from the run queue: the loop leaves at
its next look at the flag, and so does a worker that returns from a poll.  A task that is
running goes on until it returns or yields, and is then freed; one whose worker had read the
flag before the request is put back into the queue.  Nobody parks, so that the lock is never
handed over again, no spawn publishes a task, and no value enters a channel.

`Final` says this of two states of a run, the second one any number of steps later.
-/

namespace Croutine

/-! ## The tasks in the hands of the workers -/

/-- Every worker has the same task in its hands, and none gets to the point where it puts
its task back into the queue. -/
def KeepsTasks (pc pc' : WorkerId → Pc) : Prop :=
  ∀ w, (pc' w).holds = (pc w).holds ∧ ∀ t, pc' w = .requeue t → pc w = .requeue t

namespace KeepsTasks

variable {pc pc' pc'' : WorkerId → Pc} {w : WorkerId} {p : Pc}

theorem refl (pc : WorkerId → Pc) : KeepsTasks pc pc := fun _ => ⟨rfl, fun _ => id⟩

theorem trans (h : KeepsTasks pc pc') (h' : KeepsTasks pc' pc'') : KeepsTasks pc pc'' :=
  fun w => ⟨(h' w).1.trans (h w).1, fun t ht => (h w).2 t ((h' w).2 t ht)⟩

theorem of_signals {wk wk' : Workers} (h : Signals wk wk') : KeepsTasks wk.pc wk'.pc := by
  intro w
  rcases h w with heq | heq
  · rw [heq]
    exact ⟨rfl, fun _ => id⟩
  · rw [heq]
    refine ⟨Pc.holds_signal _, fun t ht => ?_⟩
    exact Pc.eq_of_signal ht (by simp)

theorem update (pc : WorkerId → Pc) (hp : p.holds = (pc w).holds) (hne : ∀ t, p ≠ .requeue t) :
    KeepsTasks pc (Function.update pc w p) :=
  (Function.forall_update_iff pc fun v q =>
    q.holds = (pc v).holds ∧ ∀ t, q = .requeue t → pc v = .requeue t).mpr
    ⟨⟨hp, fun t ht => absurd ht (hne t)⟩, fun _ _ => ⟨rfl, fun _ => id⟩⟩

end KeepsTasks

/-! ## Two states after a request of shutdown -/

/-- What cannot happen between two states of a run after shutdown was requested in the
first: the run queue only grows until `worker_deinit` empties it, and then its tasks are
freed; no worker gets a task; a task in the hands of a worker stays there, is freed, or is
put back by a worker that was about to; no task is published; none starts to wait. -/
structure Final (s s' : Sys) : Prop where
  queue : s.runq.tasks <+: s'.runq.tasks ∨ s'.life.ending = true
  queued : ∀ t ∈ s.runq.tasks, t ∈ s'.runq.tasks ∨ (s'.ledger t).structFrees = 1
  held : ∀ w t, (s'.wk.pc w).holds = some t → (s.wk.pc w).holds = some t
  kept : ∀ w t, (s.wk.pc w).holds = some t → (s'.wk.pc w).holds = some t ∨
    (s'.ledger t).structFrees = 1 ∨ s.wk.pc w = .requeue t ∧ t ∈ s'.runq.tasks
  requeues : ∀ w t, s'.wk.pc w = .requeue t → s.wk.pc w = .requeue t
  published : ∀ t, (s'.ledger t).published = true → (s.ledger t).published = true
  freed : ∀ t, (s.ledger t).structFrees = 1 → (s'.ledger t).structFrees = 1
  waiting : ∀ t, (s'.tasks t).state.waiting = true → (s'.tasks t).state = (s.tasks t).state
  ending : s.life.ending = true → s'.life.ending = true
  lock : s'.wk.lock = none

namespace Final

variable {s s' s'' : Sys} {t : TaskId} {w : WorkerId}

theorem trans (h : Final s s') (h' : Final s' s'') : Final s s'' where
  queue := by
    rcases h.queue with hq | he
    · rcases h'.queue with hq' | he'
      · exact .inl (hq.trans hq')
      · exact .inr he'
    · exact .inr (h'.ending he)
  queued u hu := by
    rcases h.queued u hu with hu' | hfree
    · exact h'.queued u hu'
    · exact .inr (h'.freed u hfree)
  held v u hu := h.held v u (h'.held v u hu)
  kept v u hu := by
    rcases h.kept v u hu with hu' | hfree | ⟨hpc, hmem⟩
    · rcases h'.kept v u hu' with hu'' | hfree | ⟨hpc, hmem⟩
      · exact .inl hu''
      · exact .inr (.inl hfree)
      · exact .inr (.inr ⟨h.requeues v u hpc, hmem⟩)
    · exact .inr (.inl (h'.freed u hfree))
    · rcases h'.queued u hmem with hmem' | hfree
      · exact .inr (.inr ⟨hpc, hmem'⟩)
      · exact .inr (.inl hfree)
  requeues v u hu := h.requeues v u (h'.requeues v u hu)
  published u hu := h.published u (h'.published u hu)
  freed u hu := h'.freed u (h.freed u hu)
  waiting u hu := by
    have heq := h'.waiting u hu
    rw [heq] at hu ⊢
    exact h.waiting u hu
  ending he := h'.ending (h.ending he)
  lock := h'.lock

/-- A step after which every task is where it was, with the same place in the queue. -/
theorem still (hqueue : s'.runq.tasks = s.runq.tasks) (hpc : KeepsTasks s.wk.pc s'.wk.pc)
    (hpub : ∀ t, (s'.ledger t).published = true → (s.ledger t).published = true)
    (hfreed : ∀ t, (s.ledger t).structFrees = 1 → (s'.ledger t).structFrees = 1)
    (hstate : ∀ t, (s'.tasks t).state.waiting = true → (s'.tasks t).state = (s.tasks t).state)
    (hlock : s'.wk.lock = none) (hlife : s.life.ending = true → s'.life.ending = true) :
    Final s s' where
  queue := .inl ⟨[], (List.append_nil _).trans hqueue.symm⟩
  queued _ ht := .inl (by rw [hqueue]; exact ht)
  held w t ht := by rwa [(hpc w).1] at ht
  kept w t ht := .inl (by rw [(hpc w).1]; exact ht)
  requeues w t := (hpc w).2 t
  published := hpub
  freed := hfreed
  waiting := hstate
  ending := hlife
  lock := hlock

theorem refl (hlock : s.wk.lock = none) : Final s s :=
  .still rfl (.refl _) (fun _ => id) (fun _ => id) (fun _ _ => rfl) hlock id

/-- A task that does not wait after a step has not started to wait. -/
theorem state_update {tasks : TaskId → Task} {τ : Task} (hτ : τ.state.waiting = false) (u : TaskId)
    (hu : (Function.update tasks t τ u).state.waiting = true) :
    (Function.update tasks t τ u).state = (tasks u).state := by
  by_cases hut : u = t
  · subst hut
    rw [Function.update_self, hτ] at hu
    exact absurd hu (by simp)
  · rw [Function.update_of_ne hut]

/-- A worker moves on with its task, which does not start to wait. -/
theorem move {p : Pc} {tasks : TaskId → Task} (hp : p.holds = (s.wk.pc w).holds)
    (hne : ∀ t, p ≠ .requeue t) (hlock : s.wk.lock = none)
    (hstate : ∀ t, (tasks t).state.waiting = true → (tasks t).state = (s.tasks t).state) :
    Final s ({ s with tasks := tasks }.setPc w p) :=
  .still rfl (.update s.wk.pc hp hne) (fun _ => id) (fun _ => id) hstate hlock id

/-- A worker moves on and leaves its task unchanged. -/
theorem point {p : Pc} (hp : p.holds = (s.wk.pc w).holds) (hne : ∀ t, p ≠ .requeue t)
    (hlock : s.wk.lock = none) : Final s (s.setPc w p) :=
  .move hp hne hlock fun _ _ => rfl

/-- Only the workers change, and none of them its task. -/
theorem workers {wk : Workers} (hpc : KeepsTasks s.wk.pc wk.pc) (hlock : wk.lock = none) :
    Final s { s with wk := wk } :=
  .still rfl hpc (fun _ => id) (fun _ => id) (fun _ _ => rfl) hlock id

/-! ### Spawning -/

theorem spawnFailed {x : Sys} {isMain : Bool} (h : Final s x) (hlife : x.life = s.life)
    (hmain : isMain = true → s.life = .runSpawn) : Final s (spawnFailed x isMain) := by
  unfold Croutine.spawnFailed
  split
  · next hm =>
    have hrun := hmain hm
    refine ⟨h.queue.imp_right fun he => ?_, h.queued, h.held, h.kept, h.requeues, h.published,
      h.freed, h.waiting, fun he => ?_, h.lock⟩
    · rw [hlife, hrun] at he
      exact absurd he (by simp [Lifecycle.ending])
    · rw [hrun] at he
      exact absurd he (by simp [Lifecycle.ending])
  · exact h

/-- The next task is allocated; nothing is published. -/
theorem spawnAlloc {θ : Thread} {r : SpawnRequest} (htask : TaskInv s)
    (hspawn : canSpawn s θ r.isMain = true) (hlock : s.wk.lock = none) :
    Final s (workerSpawnAlloc s θ r) := by
  obtain ⟨loc, hloc⟩ := htask.placed
  have hat := hloc.next_unborn.2
  have hmain : r.isMain = true → s.life = .runSpawn := by
    intro hm
    simp only [canSpawn, hm, if_true, Bool.and_eq_true, decide_eq_true_eq] at hspawn
    exact hspawn.1.2
  have hpub : ∀ l : Ledger, l.published = false → ∀ u,
      (Function.update s.ledger s.nextTask l u).published = true →
      (s.ledger u).published = true := by
    intro l hl u hu
    by_cases hut : u = s.nextTask
    · subst hut
      rw [Function.update_self, hl] at hu
      exact absurd hu (by simp)
    · rwa [Function.update_of_ne hut] at hu
  have hfreed : ∀ (l : Ledger) u, (s.ledger u).structFrees = 1 →
      (Function.update s.ledger s.nextTask l u).structFrees = 1 := by
    intro l u hu
    by_cases hut : u = s.nextTask
    · subst hut
      rw [hat.2] at hu
      exact absurd hu (by simp)
    · rwa [Function.update_of_ne hut]
  have hgone : ∀ l : Ledger, l.published = false →
      Final s ({ s with nextTask := s.nextTask + 1 }.freeStruct s.nextTask l) :=
    fun l hl => .still rfl (.refl _) (hpub _ hl) (hfreed _) (fun _ _ => rfl) hlock id
  rcases workerSpawnAlloc_cases s θ r with heq | ⟨l, hl, heq⟩ | heq <;> rw [heq]
  · exact (Final.refl hlock).spawnFailed rfl hmain
  · refine (hgone l ?_).spawnFailed rfl hmain
    rcases hl with rfl | rfl <;> rfl
  · exact .still rfl (.refl _) (hpub _ rfl) (hfreed _) (state_update rfl) hlock id

/-- The account of a task that is freed. -/
theorem ledger_cleaned {ledger : TaskId → Ledger} {τ : Task} (howned : Owned τ (ledger t)) :
    (∀ u, (Function.update ledger t (cleanedLedger τ (ledger t)) u).published = true →
      (ledger u).published = true) ∧
    (∀ u, (ledger u).structFrees = 1 →
      (Function.update ledger t (cleanedLedger τ (ledger t)) u).structFrees = 1) ∧
    (Function.update ledger t (cleanedLedger τ (ledger t)) t).structFrees = 1 := by
  refine ⟨fun u hu => ?_, fun u hu => ?_, ?_⟩
  · by_cases hut : u = t
    · subst hut
      rwa [Function.update_self] at hu
    · rwa [Function.update_of_ne hut] at hu
  · by_cases hut : u = t
    · subst hut
      rw [howned.object.2] at hu
      exact absurd hu (by simp)
    · rwa [Function.update_of_ne hut]
  · rw [Function.update_self]
    simp [cleanedLedger, howned.object.2]

/-- A spawn that reaches its critical section after the request frees its task. -/
theorem spawnPublish {o : Oracle} {θ : Thread} (htask : TaskInv s) (hlife : LifeInv s)
    (hmem : (θ, t) ∈ s.spawns) (hdown : s.shutdownRequested = true) (hlock : s.wk.lock = none) :
    Final s (workerSpawnPublish o s θ t) := by
  obtain ⟨loc, hloc⟩ := htask.placed
  have hat := (hloc.spawned hmem).2
  obtain ⟨hpub, hfreed, _⟩ := ledger_cleaned hat.2.2.1
  rw [workerSpawnPublish_of_shutdown hdown]
  refine Final.spawnFailed (.still rfl (.refl _) hpub hfreed (state_update rfl) hlock id) rfl ?_
  exact fun hm => (hlife.mainSpawn _ hmem hm).2

/-! ### The task in a worker's hands -/

theorem cleanup (htask : TaskInv s) (hpc : s.wk.pc w = .cleanup t) (hlock : s.wk.lock = none) :
    Final s ((cleanupTask s t).setPc w (.top false)) := by
  obtain ⟨loc, hloc⟩ := htask.placed
  have hholds : (s.wk.pc w).holds = some t := by rw [hpc]; rfl
  obtain ⟨hpub, hfreed, hone⟩ := ledger_cleaned (hloc.taskHeld hholds).2.1
  refine ⟨.inl ⟨[], List.append_nil _⟩, fun _ => .inl, fun v u hu => ?_, fun v u hu => ?_,
    fun v u hu => ?_, hpub, hfreed, state_update rfl, id, hlock⟩
  · have hu : (Function.update s.wk.pc w (.top false) v).holds = some u := hu
    by_cases hv : v = w
    · subst hv
      rw [Function.update_self] at hu
      exact absurd hu (by simp [Pc.holds])
    · rwa [Function.update_of_ne hv] at hu
  · by_cases hv : v = w
    · subst hv
      rw [hholds] at hu
      cases hu
      exact .inr (.inl hone)
    · refine .inl ?_
      show (Function.update s.wk.pc w (.top false) v).holds = some u
      rwa [Function.update_of_ne hv]
  · have hu : Function.update s.wk.pc w (.top false) v = .requeue u := hu
    by_cases hv : v = w
    · subst hv
      rw [Function.update_self] at hu
      exact absurd hu (by simp)
    · rwa [Function.update_of_ne hv] at hu

/-- A worker that read the flag before the request puts its task back. -/
theorem requeue {o : Oracle} (htask : TaskInv s) (hpc : s.wk.pc w = .requeue t)
    (hrequeue : requeueTask o w t s = .ok s') (hlock : s.wk.lock = none) : Final s s' := by
  obtain ⟨s1, hpush, rfl⟩ := requeueTask_ok hrequeue
  obtain ⟨loc, hloc⟩ := htask.placed
  have hholds : (s.wk.pc w).holds = some t := by rw [hpc]; rfl
  have hqueued := (hloc.taskHeld hholds).1
  have hstate := (htask.fits hpc).1
  rcases taskQueuePush_some hpush with ⟨hq, _⟩ | ⟨_, cap, _, rfl⟩
  · exact absurd (hqueued.symm.trans hq) (by simp)
  have hkeep := KeepsTasks.of_signals (Signals.condSignal o.pick s.wk)
  have hother : ∀ v, v ≠ w →
      Function.update (s.wk.condSignal o.pick).pc w (.top false) v =
        (s.wk.condSignal o.pick).pc v := fun v hv => Function.update_of_ne hv _ _
  refine ⟨.inl ⟨[t], rfl⟩, fun u hu => .inl (List.mem_append_left _ hu), fun v u hu => ?_,
    fun v u hu => ?_, fun v u hu => ?_, fun _ => id, fun _ => id, fun u hu => ?_, id, ?_⟩
  · have hu : (Function.update (s.wk.condSignal o.pick).pc w (.top false) v).holds = some u := hu
    by_cases hv : v = w
    · subst hv
      rw [Function.update_self] at hu
      exact absurd hu (by simp [Pc.holds])
    · rwa [hother v hv, (hkeep v).1] at hu
  · by_cases hv : v = w
    · subst hv
      rw [hholds] at hu
      cases hu
      exact .inr (.inr ⟨hpc, List.mem_append_right _ List.mem_cons_self⟩)
    · refine .inl ?_
      show (Function.update (s.wk.condSignal o.pick).pc w (.top false) v).holds = some u
      rwa [hother v hv, (hkeep v).1]
  · have hu : Function.update (s.wk.condSignal o.pick).pc w (.top false) v = .requeue u := hu
    by_cases hv : v = w
    · subst hv
      exact absurd hu (by rw [Function.update_self]; simp)
    · rw [hother v hv] at hu
      exact (hkeep v).2 u hu
  · exact state_update (t := t) (τ := { s.tasks t with queued := true })
      (show (s.tasks t).state.waiting = false by rw [hstate]; rfl) u hu
  · exact (s.wk.condSignal_fields o.pick).2.1.trans hlock

/-! ### Waking the tasks of a descriptor -/

theorem wakeIo {o : Oracle} {fd : Int} {ready : IoEvents} {success : Bool} {period n : Nat}
    (h : wakeWaitingTasksLocked o s fd ready success period = .ok (s', n))
    (hlock : s.wk.lock = none) : Final s s' := by
  rcases wakeWaitingTasksLocked_ok h with ⟨_, rfl, _⟩ |
    ⟨i, e, tasks, rest, poller, s1, _, _, _, _, hfold, rfl, _⟩
  · exact .refl hlock
  have hfirst : Final s { s with poller := poller, io := ioAfterWake s.io i rest } :=
    .still rfl (.refl _) (fun _ => id) (fun _ => id) (fun _ _ => rfl) hlock id
  have hwoken : Final s s1 := by
    refine Res.foldlM_induct (I := fun x => Final s x) ?_ tasks hfirst hfold
    intro x t x' hx hstep
    obtain ⟨cap, _, rfl⟩ := wakeIoTask_ok hstep
    have hgrows : x.runq.tasks <+: (x.runq.pushed t (x.tasks t).queued cap).tasks := by
      unfold RunQueue.pushed
      dsimp only
      split
      · exact ⟨[], List.append_nil _⟩
      · exact ⟨[t], rfl⟩
    exact hx.trans ⟨.inl hgrows, fun u hu => .inl (hgrows.subset hu), fun _ _ => id,
      fun _ _ => .inl, fun _ _ => id, fun _ => id, fun _ => id, state_update rfl, id, hx.lock⟩
  split
  · exact hwoken
  · exact hwoken.trans (.workers (.of_signals (Signals.condBroadcast _)) hwoken.lock)

/-! ### Teardown -/

/-- What a drain writes of a task. -/
theorem drain_task (s : Sys) (t : TaskId) :
    ((workerDeinitDrain s).ledger t).published = (s.ledger t).published ∧
      (s.ledger t).structFrees ≤ ((workerDeinitDrain s).ledger t).structFrees ∧
      (((workerDeinitDrain s).tasks t).state.waiting = true →
        ((workerDeinitDrain s).tasks t).state = (s.tasks t).state) := by
  refine workerDeinitDrain_induct (R := fun x y =>
    (y.ledger t).published = (x.ledger t).published ∧
      (x.ledger t).structFrees ≤ (y.ledger t).structFrees ∧
      ((y.tasks t).state.waiting = true → (y.tasks t).state = (x.tasks t).state))
    (fun _ => ⟨rfl, Nat.le_refl _, fun _ => rfl⟩) ?_ ?_ ?_
    (fun _ _ => ⟨rfl, Nat.le_refl _, fun _ => rfl⟩) s
  · rintro x y z ⟨hp, hf, hs⟩ ⟨hp', hf', hs'⟩
    refine ⟨hp'.trans hp, Nat.le_trans hf hf', fun hw => ?_⟩
    have heq := hs' hw
    rw [heq] at hw ⊢
    exact hs hw
  · intro x x1 u hpop
    unfold taskQueuePop at hpop
    split at hpop
    · exact absurd hpop (by simp)
    · next head rest hq =>
      obtain ⟨rfl, rfl⟩ := Prod.mk.inj (Option.some.inj hpop)
      refine ⟨rfl, Nat.le_refl _, fun _ => ?_⟩
      by_cases hut : t = head
      · subst hut
        simp [Sys.setTask]
      · simp [Sys.setTask, hut]
  · intro x u
    rw [cleanupTask_eq]
    refine ⟨?_, ?_, state_update rfl t⟩
    · by_cases hut : t = u
      · subst hut
        simp [cleanedLedger]
      · simp [hut]
    · by_cases hut : t = u
      · subst hut
        simp [cleanedLedger]
      · simp [hut]

/-- A task's object was freed as often as its place says. -/
theorem structFrees_eq {loc : TaskId → Place} (hloc : s.Placed loc) (t : TaskId) :
    (s.ledger t).structFrees = if loc t = .freed then 1 else 0 := by
  have hat := hloc.taskAt t
  cases hl : loc t with
  | freed =>
      rw [hl] at hat
      simpa using hat.2.2.object.2
  | unborn =>
      rw [hl] at hat
      simp [hat.2]
  | spawning =>
      rw [hl] at hat
      simpa using hat.2.2.1.object.2
  | exec w | queue | io | channel =>
      rw [hl] at hat
      simpa using hat.2.1.object.2

/-- **The drain frees what is left in the queue.** -/
theorem deinitDrain {backend : Backend} (h : NarrowRun backend s) (hlock : s.wk.lock = none)
    (h' : NarrowRun backend { workerDeinitDrain s with life := .drained }) :
    Final s { workerDeinitDrain s with life := .drained } := by
  have hframe := (DrainFrame.deinit s).eq
  have hwk : (workerDeinitDrain s).wk = s.wk := by rw [hframe]
  have hdrained := h'.taskInv
  obtain ⟨_, hempty, hio⟩ := workerDeinitDrain_inv h.taskInv hlock
  obtain ⟨loc, hloc⟩ := h.taskInv.placed
  obtain ⟨loc', hloc'⟩ := hdrained.placed
  have hone := Final.structFrees_eq hloc'
  have hfreed : ∀ t ∈ s.runq.tasks, loc' t = .freed := by
    intro t ht
    have hold : loc t = .queue := (hloc.queued.mem t).mp ht
    refine hdrained.freed_of_nowhere hloc' ?_ ?_ (fun w hheld => ?_) ?_ hio (fun hwaits => ?_)
    · show t < (workerDeinitDrain s).nextTask
      rw [hframe]
      refine Nat.lt_of_not_le fun hge => absurd ((hloc.unborn t).mp hge) ?_
      rw [hold]
      simp
    · show t ∉ (workerDeinitDrain s).spawns.map Prod.snd
      rw [hframe]
      intro hmem
      exact absurd ((hloc.spawning.mem t).mp hmem) (by rw [hold]; simp)
    · have hheld : ((workerDeinitDrain s).wk.pc w).holds = some t := hheld
      rw [hwk] at hheld
      exact absurd ((hloc.held w t).mp hheld) (by rw [hold]; simp)
    · show t ∉ (workerDeinitDrain s).runq.tasks
      rw [hempty]
      exact List.not_mem_nil
    · -- a task in the queue did not sleep, and the drain puts none to sleep
      have hat := hloc.taskAt t
      rw [hold] at hat
      have hsame := (drain_task s t).2.2 (by rw [hwaits]; rfl)
      rw [hwaits, hat.1.state] at hsame
      exact absurd hsame (by simp)
  refine ⟨.inr rfl, fun t ht => .inr ?_, fun w t ht => ?_, fun w t ht => .inl ?_,
    fun w t ht => ?_, fun t ht => ?_, fun t ht => ?_, fun t => (drain_task s t).2.2, fun _ => rfl,
    ?_⟩
  · have := hone t
    rwa [if_pos (hfreed t ht)] at this
  · have ht : ((workerDeinitDrain s).wk.pc w).holds = some t := ht
    rwa [hwk] at ht
  · show ((workerDeinitDrain s).wk.pc w).holds = some t
    rwa [hwk]
  · have ht : (workerDeinitDrain s).wk.pc w = .requeue t := ht
    rwa [hwk] at ht
  · exact (drain_task s t).1.symm.trans ht
  · have hle := (drain_task s t).2.1
    have hcount : ((workerDeinitDrain s).ledger t).structFrees = _ := hone t
    show ((workerDeinitDrain s).ledger t).structFrees = 1
    split at hcount <;> omega
  · show (workerDeinitDrain s).wk.lock = none
    rwa [hwk]

/-! ### A worker and its task -/

/-- A worker without a task leaves its loop. -/
theorem exits {p : Pc} {wk : Workers} (hpc : s.wk.pc w = p) (hp : p.holds = none)
    (hkeep : KeepsTasks s.wk.pc wk.pc) (hlock : wk.lock = none) :
    Final s ({ s with wk := wk }.setPc w .exited) := by
  refine .workers (hkeep.trans (.update _ ?_ (by simp))) hlock
  rw [(hkeep w).1, hpc, hp]
  rfl

/-- A task that is resumed by the scheduler does not start to wait. -/
theorem runs (htask : TaskInv s) (hpc : s.wk.pc w = .dispatched t) (hlock : s.wk.lock = none) :
    Final s ((s.setTask t { s.tasks t with contextSaved := false }).setPc w (.running t)) := by
  refine .move (by rw [hpc]; rfl) (by simp) hlock (fun u hu => ?_)
  refine Final.state_update ?_ u hu
  show (s.tasks t).state.waiting = false
  rw [(htask.fits hpc).1]
  rfl

/-- A task comes back from a wait for a descriptor. -/
theorem returnIo (htask : TaskInv s) (hpc : s.wk.pc w = .running t) (hlock : s.wk.lock = none) :
    Final s (s.setTask t { s.tasks t with frame := .user }) := by
  have hrunning : (s.tasks t).state.waiting = false := by
    rw [(htask.running hpc).1]
    rfl
  refine .still rfl (.refl _) (fun _ => id) (fun _ => id) (fun u hu => ?_) hlock id
  refine Final.state_update ?_ u hu
  exact hrunning

/-- The function of a task returns. -/
theorem taskReturn (hpc : s.wk.pc w = .running t) (hlock : s.wk.lock = none) :
    Final s (Croutine.taskReturn s w t) := by
  unfold Croutine.taskReturn
  refine .move ?_ ?_ hlock (Final.state_update rfl)
  · rw [hpc]
    split <;> rfl
  · split <;> simp

/-- The main task ends and wakes everybody. -/
theorem finishSched (hpc : s.wk.pc w = .finishSched t) (hlock : s.wk.lock = none) :
    Final s ({ s with schedulerMainFinished := true }.mapWk fun wk =>
      (wk.condBroadcast.setPc w (.switching t .finished)).owe (.worker w)) := by
  have hkeep := KeepsTasks.of_signals (Signals.condBroadcast s.wk)
  refine .still rfl (hkeep.trans (.update _ ?_ (by simp))) (fun _ => id) (fun _ => id)
    (fun _ _ => rfl) hlock id
  rw [(hkeep w).1, hpc]
  rfl

/-- No task is on its way into a wait, since it would hold the lock. -/
theorem not_parking (htask : TaskInv s) (hlock : s.wk.lock = none) (w : WorkerId) :
    (s.wk.pc w).parking = false := by
  obtain ⟨loc, hloc⟩ := htask.placed
  have hlocked := hloc.locked
  rw [hlock] at hlocked
  exact hlocked.not_parking w

theorem switchOut {st : TaskState} (htask : TaskInv s) (hpc : s.wk.pc w = .switching t st)
    (hlock : s.wk.lock = none) :
    Final s ((s.setTask t { s.tasks t with contextSaved := true }).setPc w
      (if st.waiting then .returned t st else .reread t st)) := by
  have hst : st.waiting = false := by
    have hnot := not_parking htask hlock w
    rwa [hpc] at hnot
  rw [hst, if_neg (by simp)]
  refine .move ?_ (by simp) hlock (fun u hu => ?_)
  · rw [hpc]
    simp [Pc.holds, hst]
  · refine Final.state_update ?_ u hu
    show (s.tasks t).state.waiting = false
    rw [(htask.fits hpc).1]
    exact hst

/-- After the request a task that switched back is not queued again. -/
theorem reread {st : TaskState} (hdown : s.shutdownRequested = true)
    (hpc : s.wk.pc w = .reread t st) (hlock : s.wk.lock = none) :
    Final s (s.setPc w (afterReread s t st)) := by
  refine .point ?_ ?_ hlock
  · rw [hpc]
    cases st <;> simp [afterReread, hdown, Pc.holds, TaskState.waiting]
  · cases st <;> simp [afterReread, hdown]

/-! ### Descriptors, and the control thread -/

/-- The tasks of a descriptor that is forgotten are queued. -/
theorem forgetFd {o : Oracle} {θ : Thread} {fd : Int}
    (hforget : workerForgetFd o s θ fd = .ok s') (hlock : s.wk.lock = none) : Final s s' := by
  rcases workerForgetFd_ok hforget with ⟨_, rfl⟩ | ⟨_, s1, n, hwake, rfl⟩
  · exact .refl hlock
  · have hwoken := Final.wakeIo hwake hlock
    split
    · exact hwoken.trans (.workers (.refl _) hwoken.lock)
    · exact hwoken

/-- The control thread moves on from a stage before the end. -/
theorem stage {life : Lifecycle} (hl : s.life.ending = false) (hlock : s.wk.lock = none) :
    Final s { s with life := life } := by
  refine .still rfl (.refl _) (fun _ => id) (fun _ => id) (fun _ _ => rfl) hlock fun he => ?_
  exact absurd (hl.symm.trans he) (by simp)

/-- A worker that is started after the request has no task. -/
theorem createWorker {k : Nat} (hlife : LifeInv s) (hl : s.life = .creating k)
    (hlock : s.wk.lock = none) :
    Final s { s.setPc k (.top false) with life := .creating (k + 1) } := by
  have hquiet : s.wk.pc k = .notStarted := by
    by_contra hne
    have hlt := hlife.started k hne
    rw [hl] at hlt
    exact absurd hlt (Nat.lt_irrefl k)
  refine .still rfl (.update s.wk.pc (by rw [hquiet]; rfl) (by simp)) (fun _ => id)
    (fun _ => id) (fun _ _ => rfl) hlock fun he => ?_
  rw [hl] at he
  exact absurd he (by simp [Lifecycle.ending])

/-- The run queue is empty when `worker_deinit` gives it up. -/
theorem deinitClose {backend : Backend} (h : NarrowRun backend s) (hl : s.life = .drained)
    (hlock : s.wk.lock = none) : Final s (workerDeinitClose s) := by
  refine ⟨.inr rfl, fun t ht => ?_, fun _ _ => id, fun _ _ => .inl, fun _ _ => id, fun _ => id,
    fun _ => id, fun _ _ => rfl, fun _ => rfl, hlock⟩
  rw [h.drained_queue hl] at ht
  exact absurd ht List.not_mem_nil

end Final

/-! ## Every step -/

theorem loopBody_of_stopping {s : Sys} {w : WorkerId} {checked : Bool} (h : s.stopping = true) :
    loopBody w checked s = s.setPc w .exited :=
  if_pos h

/-- After the request no step of the scheduler gives a worker a task or lets one wait. -/
theorem SchedStep.final {backend : Backend} {s s' : Sys} {a : Action} (h : NarrowRun backend s)
    (h' : NarrowRun backend s') (hdown : s.shutdownRequested = true) (hlock : s.wk.lock = none)
    (hstep : SchedStep s a s') : Final s s' := by
  have htask := h.taskInv
  have hlife := LifeInv.reach h
  have hstop : s.stopping = true := by simp [Sys.stopping, hdown]
  cases hstep with
  | spawnAlloc hspawn hne => exact .spawnAlloc htask hspawn hlock
  | spawnPublish _ hmem => exact .spawnPublish htask hlife hmem hdown hlock
  | forgetFd _ hint hforget => exact .forgetFd hforget hlock
  | pollerWake hmem => exact .workers (.refl _) hlock
  | waitIo _ hint hpc hframe =>
      unfold workerParkCurrentOnIo
      rw [if_pos (by simp [hdown])]
      exact .refl hlock
  | yield hpc hframe | kernelReturn hpc hbatch | kernelError hpc =>
      exact .point (by rw [hpc]; rfl) (by simp) hlock
  | returnIo hpc hframe => exact .returnIo htask hpc hlock
  | taskReturn hpc hframe => exact .taskReturn hpc hlock
  | finishMain hpc =>
      exact .still rfl (.update s.wk.pc (by rw [hpc]; rfl) (by simp)) (fun _ => id) (fun _ => id)
        (fun _ _ => rfl) hlock id
  | finishSched _ hpc => exact .finishSched hpc hlock
  | switchOut hpc => exact .switchOut htask hpc hlock
  | @release w t st hpc =>
      have hnot := Final.not_parking htask hlock w
      rw [hpc] at hnot
      exact absurd ((htask.fits hpc).2.1.symm.trans hnot) (by simp)
  | reread _ hpc => exact .reread hdown hpc hlock
  | requeue _ hpc hrequeue => exact .requeue htask hpc hrequeue hlock
  | cleanup hpc => exact .cleanup htask hpc hlock
  | loop _ hpc =>
      rw [loopBody_of_stopping hstop]
      exact .exits hpc rfl (.refl _) hlock
  | condReturn _ hpc =>
      unfold leaveCondWait
      rw [loopBody_of_stopping (s := s.mapWk _) hstop]
      exact .exits hpc rfl (.refl _) hlock
  | filterBatch hpc => exact .workers (.update s.wk.pc (by rw [hpc]; rfl) (by simp)) hlock
  | pollReturn _ hpc hpoll =>
      rcases leavePoll_ok hpoll with ⟨_, rfl⟩ | ⟨hgo, _⟩
      · exact .exits hpc rfl (.of_signals (Signals.condBroadcast s.wk)) hlock
      · exact absurd (hstop.symm.trans hgo) (by simp)
  | pollFailed _ hpc hpoll =>
      obtain ⟨_, rfl⟩ := leavePollError_ok hpoll
      exact .exits hpc rfl (.of_signals (Signals.condBroadcast s.wk)) hlock
  | resume hpc => exact .runs htask hpc hlock
  | setReady fd mask =>
      exact .still rfl (.refl _) (fun _ => id) (fun _ => id) (fun _ _ => rfl) hlock id
  | runtimeInit _ hl => exact absurd (hstop.symm.trans (hlife.fresh hl)) (by simp)
  | runCall hl | waitForMain hl | joinWorkers hl => exact .stage (by rw [hl]; rfl) hlock
  | createWorker hl hk howes => exact .createWorker hlife hl hlock
  | deinitDrain _ hl => exact .deinitDrain h hlock h'
  | deinitClose hl => exact .deinitClose h hl hlock

/-- A channel operation leaves the end of the runtime where it is. -/
theorem ChanView.ending {s s' : Sys} (h : ChanView s s') (he : s.life.ending = true) :
    s'.life.ending = true := by
  cases h with
  | memory κ | returned hpc κ => exact he
  | wakes hlock hw => rw [hw.sameCore.life]; exact he
  | park hlock hw hpc hframe frame =>
      unfold workerParkCurrentOnChannelLocked
      split <;> rw [← hw.sameCore.life] at he <;> exact he
  | shutdown hlock hmove hclose =>
      cases hmove with
      | request hinit => exact he
      | allocFailed hl | createFailed hl =>
          rw [hl] at he
          exact absurd he (by simp [Lifecycle.ending])
      | shutdownCall hl => rfl

/-- A step that moves no task. -/
theorem Quiet.final {s s' : Sys} (h : Quiet s s') (hlock : s.wk.lock = none)
    (hlife : s.life.ending = true → s'.life.ending = true) : Final s s' := by
  refine .still (by rw [h.runq]) (.of_signals h.signals) (fun t => ?_) (fun t => ?_)
    (fun t _ => h.state t) (h.lock.trans hlock) hlife
  · rw [h.ledger]
    exact id
  · rw [h.ledger]
    exact id

theorem NarrowRun.step_final {backend : Backend} {s s' : Sys} {a : Action}
    (h : NarrowRun backend s) (ha : a.narrow = true) (hstep : step s a = .ok s')
    (hdown : s.shutdownRequested = true) (hlock : s.wk.lock = none) : Final s s' := by
  rcases step_kind hstep with hc | hs
  · exact (h.quiet hdown (h.form hc)).final hlock hc.view.ending
  · exact hs.final h (.step h ha hstep) hdown hlock

/-- **After the request of shutdown no task holds the scheduler lock.** -/
theorem NarrowRun.unlocked {backend : Backend} {s : Sys} (h : NarrowRun backend s) :
    s.shutdownRequested = true → s.wk.lock = none := by
  refine Machine.ReachVia.invariant
    (I := fun x => x.shutdownRequested = true → x.wk.lock = none) ?_ ?_ h
  · intro x hx _
    obtain ⟨wakeFd, workers, runCapacity, ioCapacity, _, _, rfl⟩ := hx
    rfl
  · intro x a x' hx hI ha hstep hdown'
    have hx : NarrowRun backend x := hx
    by_cases hdown : x.shutdownRequested = true
    · exact (hx.step_final ha hstep hdown (hI hdown)).lock
    · rcases step_kind hstep with hc | hs
      · cases hc.view with
        | memory κ | returned hpc κ => exact absurd hdown' hdown
        | wakes hlock hw => exact absurd (hw.sameCore.shutdownRequested.symm.trans hdown') hdown
        | park hlock hw hpc hframe frame =>
            refine absurd ?_ hdown
            rw [← hw.sameCore.shutdownRequested, ← hdown']
            unfold workerParkCurrentOnChannelLocked
            split <;> rfl
        | shutdown hlock hmove hclose =>
            exact (croutineChannelShutdownAllLocked_wakes hclose).sameCore.lock.trans hlock
      · have hsame := (hs.unchanged hx.taskInv (LifeInv.reach hx)).shutdown
        exact absurd (hsame.symm.trans hdown') hdown

/-- **Shutdown is final.**  In runs without a select of more than `2 ^ 32` cases, from a state
in which shutdown was requested every continuation leads to a state in which no worker has
taken a task, no task was published or has started to wait, and a task in the hands of a
worker is still there, was freed, or was put back by a worker that was about to.  Nothing
was sent on any channel, and a send is refused. -/
theorem shutdown_is_final {backend : Backend} {s s' : Sys} (h : NarrowRun backend s)
    (hdown : s.shutdownRequested = true) {l : List Action} (hl : ∀ a ∈ l, a.narrow = true)
    (hrun : (runtime backend).run s l = .ok s') :
    Final s s' ∧ (∀ c, s'.ch.sent c = s.ch.sent c) ∧
      ∀ o c offer value,
        ∃ κ, trySendLocked o s' c offer value = .ok ({ s' with ch := κ }, .closed) := by
  obtain ⟨_, hdown', hfinal, hsent⟩ := Machine.ReachVia.run_invariant
    (I := fun x => x.shutdownRequested = true ∧ Final s x ∧ ∀ c, x.ch.sent c = s.ch.sent c)
    (fun x a x' hx hI ha hstep => by
      obtain ⟨hshut, hfinal, hsent⟩ := hI
      have hx : NarrowRun backend x := hx
      exact ⟨(step_stays hx hstep).2 hshut,
        hfinal.trans (hx.step_final ha hstep hshut hfinal.lock),
        fun c => (hx.sent_of_closed hstep (.inr hshut)).trans (hsent c)⟩)
    l h ⟨hdown, .refl (h.unlocked hdown), fun _ => rfl⟩ (fun a ha _ => hl a ha) hrun
  refine ⟨hfinal, hsent, fun o c offer value =>
    ⟨s'.ch.record (.closed c offer (s'.ch.chan c).closed), ?_⟩⟩
  unfold trySendLocked
  rw [if_pos (by rw [hdown']; simp)]
  rfl

/-- The main task runs when shutdown is requested. -/
def shutDownWhileRunning : List Action :=
  oneChannel ++ [.requestShutdown (.external 0) .calm]

theorem shutdown_is_final_running :
    ∃ s s', NarrowRun .epoll s ∧ s.shutdownRequested = true ∧ s.wk.pc 0 = .running 0 ∧
      (runtime .epoll).run s [.yield 0, .switchOut 0, .rereadShutdown 0, .cleanup 0, .loop 0] =
        .ok s' ∧
      Final s s' ∧ s'.wk.pc 0 = .exited ∧ (s'.ledger 0).structFrees = 1 := by
  have hrun : NarrowRun .epoll ((runtime .epoll).after (small 1) shutDownWhileRunning) :=
    .after (small_init 1 (by decide)) (by decide) (by decide +kernel)
  have hlater := Machine.run_eq_after (M := runtime .epoll)
    (s := (runtime .epoll).after (small 1) shutDownWhileRunning)
    (l := [.yield 0, .switchOut 0, .rereadShutdown 0, .cleanup 0, .loop 0]) (by decide +kernel)
  have hfinal := (shutdown_is_final hrun (by decide +kernel) (by decide) hlater).1
  exact ⟨_, _, hrun, by decide +kernel, by decide +kernel, hlater, hfinal, by decide +kernel,
    by decide +kernel⟩

/-- A sender that a select of `2 ^ 32 + 1` cases parked on a closed channel is served by a
receive after the request of shutdown. -/
theorem wide_select_sends_after_shutdown :
    ∃ s s', (runtime .epoll).Reach s ∧ s.shutdownRequested = true ∧ s.ch.sent 0 = [] ∧
      (runtime .epoll).run s [.channelTryRecv (.external 0) 0 0 .calm] = .ok s' ∧
      (s'.ch.sent 0).map Prod.fst = [⟨0, 2 ^ 32⟩] := by
  obtain ⟨W, cases, hreach⟩ := @reach_wideSelect
    (oneChannel ++ [.channelClose (.external 0) 0 .calm])
    (handOver 0 ++ [.requestShutdown (.external 1) .calm]) 0 .send 0
    (by decide +kernel) (by decide +kernel) (fun _ _ => rfl)
  exact ⟨_, _, hreach, rfl, rfl, Machine.run_eq_after rfl, rfl⟩

end Croutine
