import Mathlib.Data.List.Nodup
import Croutine.WorkerSpec

/-!
# The lifecycle of the runtime

Which workers can have been started at each point of `croutine_runtime_run`, and
which `worker_spawn` calls can be under way.  Outside the stretch between the
first `pthread_create` and the last `pthread_join` every worker has not started or
has exited.
-/

namespace Croutine

/-- The number of workers that may have been started. -/
def Lifecycle.started (count : Nat) : Lifecycle → Nat
  | .preInit | .inited | .runSpawn => 0
  | .creating k => k
  | .joining | .ranOut | .shutJoin | .drained | .down => count

/-- Worker threads may be running. -/
def Lifecycle.working : Lifecycle → Bool
  | .creating _ | .joining => true
  | .preInit | .inited | .runSpawn | .ranOut | .shutJoin | .drained | .down => false

/-- `croutine_runtime_shutdown` has passed its request. -/
def Lifecycle.ending : Lifecycle → Bool
  | .shutJoin | .drained | .down => true
  | .preInit | .inited | .runSpawn | .creating _ | .joining | .ranOut => false

/-- A worker thread that was started and has not left its loop. -/
def Pc.alive : Pc → Bool
  | .notStarted | .exited => false
  | _ => true

structure LifeInv (s : Sys) : Prop where
  creating : ∀ k, s.life = .creating k → k ≤ s.wk.count
  started : ∀ w, s.wk.pc w ≠ .notStarted → w < s.life.started s.wk.count
  quiet : s.life.working = false → ∀ w, (s.wk.pc w).alive = false
  spawners : (s.spawns.map Prod.fst).Nodup
  spawned : ∀ p ∈ s.spawns, p.2 < s.nextTask
  mainSpawn : ∀ p ∈ s.spawns, (s.tasks p.2).isMain = true →
    p.1 = .runtime ∧ s.life = .runSpawn
  ending : s.life.ending = true → s.shutdownRequested = true
  fresh : s.life = .preInit → s.stopping = false

namespace LifeInv

variable {s s' : Sys}

theorem started_lt_count (h : LifeInv s) {w : WorkerId} (hw : s.wk.pc w ≠ .notStarted) :
    w < s.wk.count := by
  have hlt := h.started w hw
  cases hlife : s.life with
  | creating k =>
      have := h.creating k hlife
      rw [hlife] at hlt
      exact Nat.lt_of_lt_of_le hlt this
  | preInit | inited | runSpawn =>
      rw [hlife] at hlt
      exact absurd hlt (Nat.not_lt_zero w)
  | joining | ranOut | shutJoin | drained | down =>
      rw [hlife] at hlt
      exact hlt

/-- A worker that does something works within the stretch in which workers run. -/
theorem working_of_alive (h : LifeInv s) {w : WorkerId} (hw : (s.wk.pc w).alive = true) :
    s.life.working = true := by
  by_contra hne
  have := h.quiet (by simpa using hne) w
  rw [hw] at this
  exact absurd this (by simp)

/-- While a worker has a thread the scheduler is not drained. -/
theorem not_drained (h : LifeInv s) {w : WorkerId} (hw : (s.wk.pc w).alive = true) :
    s.life ≠ .drained := by
  intro hd
  have hwork := h.working_of_alive hw
  rw [hd] at hwork
  exact absurd hwork (by simp [Lifecycle.working])

/-- The invariant carries over when the lifecycle and the spawns under way stay as
they are and no worker comes to life. -/
theorem frame (h : LifeInv s) (hlife : s'.life = s.life) (hcount : s'.wk.count = s.wk.count)
    (hspawns : s'.spawns = s.spawns) (hnext : s'.nextTask = s.nextTask)
    (hmain : ∀ t, (s'.tasks t).isMain = true → (s.tasks t).isMain = true)
    (hshut : s.shutdownRequested = true → s'.shutdownRequested = true)
    (hstop : s.life = .preInit → s.stopping = false → s'.stopping = false)
    (hstarted : ∀ w, s'.wk.pc w ≠ .notStarted → s.wk.pc w ≠ .notStarted)
    (halive : s.life.working = false → ∀ w, (s'.wk.pc w).alive = true →
      (s.wk.pc w).alive = true) : LifeInv s' where
  creating := by rw [hlife, hcount]; exact h.creating
  started := by
    intro w hw
    rw [hlife, hcount]
    exact h.started w (hstarted w hw)
  quiet := by
    intro hwork w
    rw [hlife] at hwork
    by_contra hne
    have := halive hwork w (by simpa using hne)
    rw [h.quiet hwork w] at this
    exact absurd this (by simp)
  spawners := by rw [hspawns]; exact h.spawners
  spawned := by rw [hspawns, hnext]; exact h.spawned
  mainSpawn := by
    intro p hp hm
    rw [hspawns] at hp
    rw [hlife]
    exact h.mainSpawn p hp (hmain p.2 hm)
  ending := by
    intro he
    rw [hlife] at he
    exact hshut (h.ending he)
  fresh := by
    intro hpre
    rw [hlife] at hpre
    exact hstop hpre (h.fresh hpre)

/-- No step of a worker happens before `croutine_runtime_init`. -/
theorem not_preInit (h : LifeInv s) {w : WorkerId} (hw : (s.wk.pc w).alive = true) :
    s.life ≠ .preInit := by
  intro hpre
  have := h.working_of_alive hw
  rw [hpre] at this
  exact absurd this (by simp [Lifecycle.working])

/-- A step of one live worker that moves only its program point. -/
theorem workerStep (h : LifeInv s) {w : WorkerId} (hw : (s.wk.pc w).alive = true)
    (hlife : s'.life = s.life) (hcount : s'.wk.count = s.wk.count)
    (hspawns : s'.spawns = s.spawns) (hnext : s'.nextTask = s.nextTask)
    (hmain : ∀ t, (s'.tasks t).isMain = true → (s.tasks t).isMain = true)
    (hshut : s.shutdownRequested = true → s'.shutdownRequested = true)
    (hpc : ∀ v, v ≠ w → s'.wk.pc v ≠ .notStarted → s.wk.pc v ≠ .notStarted) :
    LifeInv s' := by
  refine h.frame hlife hcount hspawns hnext hmain hshut ?_ ?_ ?_
  · intro hpre
    exact absurd hpre (h.not_preInit hw)
  · intro v hv
    by_cases hvw : v = w
    · subst hvw
      intro hns
      rw [hns] at hw
      exact absurd hw (by simp [Pc.alive])
    · exact hpc v hvw hv
  · intro hwork
    rw [h.working_of_alive hw] at hwork
    exact absurd hwork (by simp)

/-- The thread in `croutine_runtime_run` or `croutine_runtime_shutdown` moves on to
another stage.  No spawn of a main task is under way outside its own stage. -/
theorem stage (h : LifeInv s) (hcount : s'.wk.count = s.wk.count)
    (hspawns : s'.spawns = s.spawns) (hnext : s'.nextTask = s.nextTask)
    (hmain : ∀ t, (s'.tasks t).isMain = true → (s.tasks t).isMain = true)
    (hcreating : ∀ k, s'.life = .creating k → k ≤ s.wk.count)
    (hstarted : ∀ w, s'.wk.pc w ≠ .notStarted → w < s'.life.started s.wk.count)
    (hquiet : s'.life.working = false → ∀ w, (s'.wk.pc w).alive = false)
    (hrun : s.life ≠ .runSpawn ∨ s'.life = .runSpawn)
    (hending : s'.life.ending = true → s'.shutdownRequested = true)
    (hpre : s'.life ≠ .preInit) : LifeInv s' where
  creating := by rw [hcount]; exact hcreating
  started := by rw [hcount]; exact hstarted
  quiet := hquiet
  spawners := by rw [hspawns]; exact h.spawners
  spawned := by rw [hspawns, hnext]; exact h.spawned
  mainSpawn := by
    intro p hp hm
    rw [hspawns] at hp
    obtain ⟨hθ, hlife⟩ := h.mainSpawn p hp (hmain p.2 hm)
    exact ⟨hθ, hrun.resolve_left fun hne => hne hlife⟩
  ending := hending
  fresh := fun hp => absurd hp hpre

end LifeInv

/-! ## Signals do not start or stop a worker -/

@[simp] theorem Pc.alive_signal (pc : Pc) : pc.signal.alive = pc.alive := by
  cases pc <;> rfl

@[simp] theorem Pc.signal_eq_notStarted (pc : Pc) : pc.signal = .notStarted ↔ pc = .notStarted := by
  cases pc <;> simp [Pc.signal]

namespace Signals

variable {wk wk' : Workers} (h : Signals wk wk')
include h

theorem alive (w : WorkerId) : (wk'.pc w).alive = (wk.pc w).alive := by
  rcases h w with heq | heq <;> simp [heq]

theorem notStarted {w : WorkerId} (hw : wk'.pc w ≠ .notStarted) : wk.pc w ≠ .notStarted := by
  rcases h w with heq | heq
  · rwa [heq] at hw
  · intro hns
    rw [heq, hns] at hw
    exact hw rfl

end Signals

theorem LifeInv.signals {s s' : Sys} (h : LifeInv s) (hlife : s'.life = s.life)
    (hcount : s'.wk.count = s.wk.count) (hspawns : s'.spawns = s.spawns)
    (hnext : s'.nextTask = s.nextTask)
    (hmain : ∀ t, (s'.tasks t).isMain = true → (s.tasks t).isMain = true)
    (hshut : s'.shutdownRequested = s.shutdownRequested)
    (hfin : s'.schedulerMainFinished = s.schedulerMainFinished)
    (hpc : Signals s.wk s'.wk) : LifeInv s' := by
  refine h.frame hlife hcount hspawns hnext hmain (by rw [hshut]; exact id) ?_
    (fun w => hpc.notStarted) fun _ w => by rw [hpc.alive w]; exact id
  intro _ hstop
  rw [Sys.stopping, hshut, hfin]
  exact hstop

/-- A channel operation keeps the lifecycle invariant. -/
theorem LifeInv.wakes {s s' : Sys} (hs : LifeInv s) (h : Wakes s s') : LifeInv s' := by
  refine Wakes.invariant (I := LifeInv) ?_ ?_ h hs
  · intro x κ hx
    exact hx.signals rfl rfl rfl rfl (fun _ => id) rfl rfl fun _ => .inl rfl
  · intro o x t success x' hx hwake
    obtain ⟨_, cap, _, rfl⟩ := workerWakeTaskLocked_some hwake
    refine hx.signals rfl (x.wk.wakeForTask_fields o.pick).1 rfl rfl ?_ rfl rfl
      (Signals.wakeForTask o.pick x.wk)
    intro u hu
    by_cases hut : u = t
    · subst hut
      simpa [Task.requeued] using hu
    · simpa [hut] using hu

/-! ## Preservation -/

namespace LifeInv

variable {s s' : Sys} {w : WorkerId} {t : TaskId}

theorem isMain_update {f : TaskId → Task} {task : Task} (h : task.isMain = (f t).isMain) :
    ∀ u, (Function.update f t task u).isMain = true → (f u).isMain = true := by
  intro u hu
  by_cases hut : u = t
  · subst hut
    rwa [Function.update_self, h] at hu
  · rwa [Function.update_of_ne hut] at hu

theorem park (h : LifeInv s) (hpc : s.wk.pc w = .running t) (frame : Bool → Frame) :
    LifeInv (workerParkCurrentOnChannelLocked s w t frame) := by
  have halive : (s.wk.pc w).alive = true := by rw [hpc]; rfl
  unfold workerParkCurrentOnChannelLocked
  split
  · exact h.signals rfl rfl rfl rfl (isMain_update rfl) rfl rfl fun _ => .inl rfl
  · refine h.workerStep halive rfl rfl rfl rfl (isMain_update rfl) id ?_
    intro v hv
    simp [Sys.mapWk, Sys.setTask, Workers.setPc, hv]

/-- A request for shutdown, whatever it does to the lifecycle. -/
theorem shutdown {s1 : Sys} {o : Oracle} {θ : Thread} {life : Lifecycle} (hs : LifeInv s)
    (hmove : ShutdownMove s life)
    (h : croutineChannelShutdownAllLocked o { s with shutdownRequested := true } = .ok s1) :
    LifeInv { s1 with
      wk := s1.wk.condBroadcast.owe θ, mainFinished := true, life := life } := by
  have hpre : s.life ≠ .preInit := by
    cases hmove with
    | request hinit => intro hp; simp [Sys.initialized, hp] at hinit
    | allocFailed hl | createFailed hl => rw [hl]; simp
    | shutdownCall hl => rcases hl with hl | hl <;> rw [hl] <;> simp
  have h0 : LifeInv { s with shutdownRequested := true } :=
    hs.frame rfl rfl rfl rfl (fun _ => id) (fun _ => rfl) (fun hp => absurd hp hpre)
      (fun _ => id) fun _ _ => id
  have hwakes := croutineChannelShutdownAllLocked_wakes h
  have h1 : LifeInv s1 := h0.wakes hwakes
  have hlife : s1.life = s.life := hwakes.sameCore.life
  have hshut : s1.shutdownRequested = true := hwakes.sameCore.shutdownRequested
  have hsig : Signals s1.wk (s1.wk.condBroadcast.owe θ) := Signals.condBroadcast s1.wk
  have hrun : s1.life ≠ .runSpawn ∨ life = .runSpawn := by
    rw [hlife]
    cases hmove with
    | request hinit => exact (Decidable.em (s.life = .runSpawn)).symm
    | allocFailed hl | createFailed hl => rw [hl]; exact .inl (by simp)
    | shutdownCall hl => rcases hl with hl | hl <;> · rw [hl]; exact .inl (by simp)
  refine h1.stage rfl rfl rfl (fun _ => id) ?_ ?_ ?_ hrun (fun _ => hshut) ?_
  · intro k hk
    cases hmove with
    | request hinit => exact h1.creating k (hlife.trans hk)
    | allocFailed hl | createFailed hl | shutdownCall hl => exact absurd hk (by simp)
  · intro v hv
    have hlt := h1.started v (hsig.notStarted hv)
    have hcount := h1.started_lt_count (hsig.notStarted hv)
    cases hmove with
    | request hinit => rwa [hlife] at hlt
    | allocFailed hl | createFailed hl | shutdownCall hl => exact hcount
  · intro hwork v
    have hquiet : (s1.wk.pc v).alive = false := by
      cases hmove with
      | request hinit => exact h1.quiet (by rw [hlife]; exact hwork) v
      | allocFailed hl =>
          have hns : s1.wk.pc v = .notStarted := by
            by_contra hne
            have hlt := h1.started v hne
            rw [hlife, hl] at hlt
            exact absurd hlt (Nat.not_lt_zero v)
          rw [hns]; rfl
      | createFailed hl => exact absurd hwork (by simp [Lifecycle.working])
      | shutdownCall hl =>
          refine h1.quiet ?_ v
          rcases hl with hl | hl <;> · rw [hlife, hl]; rfl
    exact (hsig.alive v).trans hquiet
  · cases hmove with
    | request hinit => exact hpre
    | allocFailed hl | createFailed hl | shutdownCall hl => simp

theorem chanView (hs : LifeInv s) (h : ChanView s s') : LifeInv s' := by
  cases h with
  | memory κ => exact hs.wakes (.chans s κ)
  | wakes hlock h => exact hs.wakes h
  | @park _ s1 h w t hpc hframe frame =>
      have hpc1 : s1.wk.pc w = .running t := by
        rw [h.signals.fixed (by rw [hpc]; rfl), hpc]
      exact (hs.wakes h).park hpc1 frame
  | shutdown hlock hlife h => exact hs.shutdown hlife h
  | returned hpc κ =>
      exact hs.signals rfl rfl rfl rfl (isMain_update rfl) rfl rfl fun _ => .inl rfl

/-- A spawn that allocates: the new task is under way, or was freed at once. -/
theorem spawnAlloc {θ : Thread} {r : SpawnRequest} (h : LifeInv s)
    (hspawn : canSpawn s θ r.isMain = true) : LifeInv (workerSpawnAlloc s θ r) := by
  -- the thread of a main spawn is the one in croutine_runtime_run
  have hmain : r.isMain = true → θ = .runtime ∧ s.life = .runSpawn := by
    intro hm
    simp only [canSpawn, hm, if_true, Bool.and_eq_true, decide_eq_true_eq] at hspawn
    exact hspawn.1
  have hnone : ∀ u, (θ, u) ∉ s.spawns := by
    unfold canSpawn at hspawn
    split at hspawn
    · simp only [Bool.and_eq_true, Bool.not_eq_true', List.any_eq_false] at hspawn
      intro u hu
      exact hspawn.2 _ hu (by simp)
    · exact fun u => Sys.canAct_spawns hspawn u
  -- a spawn that fails leaves no trace but the counters
  have hfail : ∀ x : Sys, LifeInv x → x.life = s.life → x.spawns = s.spawns →
      LifeInv (spawnFailed x r.isMain) := by
    intro x hx hlife hspawns
    unfold spawnFailed
    split
    · next hm =>
      have hrun : x.life = .runSpawn := hlife.trans (hmain hm).2
      have hnot : ∀ v, x.wk.pc v = .notStarted := by
        intro v
        by_contra hne
        have := hx.started v hne
        rw [hrun] at this
        exact absurd this (Nat.not_lt_zero v)
      refine ⟨?_, ?_, ?_, hx.spawners, hx.spawned, ?_, ?_, ?_⟩
      · intro k hk; exact absurd hk (by simp)
      · intro v hv; exact absurd (hnot v) hv
      · intro _ v; show (x.wk.pc v).alive = false; rw [hnot v]; rfl
      · intro p hp hpm
        have hθ := (hx.mainSpawn p hp hpm).1
        rw [hspawns] at hp
        exact absurd (show (θ, p.2) ∈ s.spawns by rw [(hmain hm).1, ← hθ]; exact hp)
          (hnone p.2)
      · intro he; exact absurd he (by simp [Lifecycle.ending])
      · intro hp; exact absurd hp (by simp)
    · exact hx
  have hnext : ∀ x : Sys, x.life = s.life → x.spawns = s.spawns → x.nextTask = s.nextTask + 1 →
      x.tasks = s.tasks → x.wk = s.wk → x.stopping = s.stopping →
      x.shutdownRequested = s.shutdownRequested → LifeInv x := by
    intro x hlife hspawns hn htasks hwk hstop hshut
    refine ⟨?_, ?_, ?_, ?_, ?_, ?_, ?_, ?_⟩
    · rw [hlife, hwk]; exact h.creating
    · rw [hlife, hwk]; exact h.started
    · rw [hlife, hwk]; exact h.quiet
    · rw [hspawns]; exact h.spawners
    · rw [hspawns, hn]; exact fun p hp => Nat.lt_succ_of_lt (h.spawned p hp)
    · rw [hspawns, htasks, hlife]; exact h.mainSpawn
    · rw [hlife, hshut]; exact h.ending
    · rw [hlife, hstop]; exact h.fresh
  rcases workerSpawnAlloc_cases s θ r with heq | ⟨l, _, heq⟩ | heq <;> rw [heq]
  · exact hfail s h rfl rfl
  · exact hfail _ (hnext _ rfl rfl rfl rfl rfl rfl rfl) rfl rfl
  · have hx : LifeInv { s with nextTask := s.nextTask + 1 } :=
      hnext _ rfl rfl rfl rfl rfl rfl rfl
    refine ⟨hx.creating, hx.started, hx.quiet, ?_, ?_, ?_, hx.ending, hx.fresh⟩
    · simp only [List.map_cons, List.nodup_cons]
      refine ⟨?_, h.spawners⟩
      intro hθ
      obtain ⟨p, hp, hpθ⟩ := List.mem_map.mp hθ
      exact hnone p.2 (by rw [← hpθ]; exact hp)
    · intro p hp
      rcases List.mem_cons.mp hp with rfl | hp
      · exact Nat.lt_succ_self _
      · exact Nat.lt_succ_of_lt (h.spawned p hp)
    · intro p hp hpm
      rcases List.mem_cons.mp hp with rfl | hp
      · refine hmain ?_
        simpa [Sys.setTask] using hpm
      · have hne : p.2 ≠ s.nextTask := Nat.ne_of_lt (h.spawned p hp)
        exact h.mainSpawn p hp (by simpa [Sys.setTask, hne] using hpm)

/-- The pending spawn of a main task ends, and with it that stage of
`croutine_runtime_run`. -/
theorem spawnPublish {o : Oracle} {θ : Thread} (h : LifeInv s) (hmem : (θ, t) ∈ s.spawns) :
    LifeInv (workerSpawnPublish o s θ t) := by
  have hsub : (s.spawns.erase (θ, t)).Sublist s.spawns := List.erase_sublist
  have hothers : ∀ p ∈ s.spawns.erase (θ, t), p.1 ≠ θ := by
    intro p hp hpθ
    have hnodup : s.spawns.Nodup := List.Nodup.of_map _ h.spawners
    have hp' : p ∈ s.spawns := hsub.subset hp
    have hinj := List.inj_on_of_nodup_map h.spawners hp' hmem hpθ
    subst hinj
    exact hnodup.not_mem_erase hp
  have hx : LifeInv { s with spawns := s.spawns.erase (θ, t) } :=
    ⟨h.creating, h.started, h.quiet, h.spawners.sublist (hsub.map _),
      fun p hp => h.spawned p (hsub.subset hp), fun p hp => h.mainSpawn p (hsub.subset hp),
      h.ending, h.fresh⟩
  -- a main task leaves the stage in which it was spawned, and no other one is under way
  have hlast : (s.tasks t).isMain = true → ∀ p ∈ s.spawns.erase (θ, t),
      (s.tasks p.2).isMain ≠ true := by
    intro hm p hp hpm
    have hθ := (h.mainSpawn _ hmem hm).1
    exact hothers p hp ((h.mainSpawn p (hsub.subset hp) hpm).1.trans hθ.symm)
  have hnot : (s.tasks t).isMain = true → ∀ v, s.wk.pc v = .notStarted := by
    intro hm v
    by_contra hne
    have hlt := h.started v hne
    rw [(h.mainSpawn _ hmem hm).2] at hlt
    exact absurd hlt (Nat.not_lt_zero v)
  have hfail : LifeInv (spawnFailed
      (cleanupTask { s with spawns := s.spawns.erase (θ, t) } t) (s.tasks t).isMain) := by
    have hclean := DrainFrame.cleanup { s with spawns := s.spawns.erase (θ, t) } t
    have hc : LifeInv (cleanupTask { s with spawns := s.spawns.erase (θ, t) } t) :=
      hx.signals rfl rfl rfl rfl hclean.isMain rfl rfl fun _ => .inl rfl
    unfold spawnFailed
    split
    · next hm =>
      refine ⟨?_, ?_, ?_, hc.spawners, hc.spawned, ?_, ?_, ?_⟩
      · intro k hk; exact absurd hk (by simp)
      · intro v hv; exact absurd (hnot hm v) hv
      · intro _ v
        show (s.wk.pc v).alive = false
        rw [hnot hm v]; rfl
      · intro p hp hpm
        exact absurd (hclean.isMain p.2 hpm) (hlast hm p hp)
      · intro he; exact absurd he (by simp [Lifecycle.ending])
      · intro hp; exact absurd hp (by simp)
    · exact hc
  rcases workerSpawnPublish_cases o s θ t with heq | ⟨_, s1, hpush, heq⟩ <;> rw [heq]
  · exact hfail
  · have hs1 : LifeInv s1 ∧ s1.spawns = s.spawns.erase (θ, t) ∧ s1.wk = s.wk ∧
        ∀ u, (s1.tasks u).isMain = (s.tasks u).isMain := by
      rcases taskQueuePush_some hpush with ⟨_, rfl⟩ | ⟨_, cap, _, rfl⟩
      · exact ⟨hx, rfl, rfl, fun _ => rfl⟩
      · refine ⟨?_, rfl, rfl, ?_⟩
        · exact hx.signals rfl rfl rfl rfl (isMain_update rfl) rfl rfl fun _ => .inl rfl
        · intro u
          by_cases hut : u = t
          · subst hut; simp [taskQueueAppend, Sys.setTask]
          · simp [taskQueueAppend, Sys.setTask, hut]
    obtain ⟨h1, hspawns, hwk, hmain⟩ := hs1
    have hsig := published_signals s1 o θ t (s.tasks t).isMain
    have hcount := (published_fields s1 o θ t (s.tasks t).isMain).2.1
    by_cases hm : (s.tasks t).isMain = true
    · have hnot1 : ∀ v, (published s1 o θ t (s.tasks t).isMain).wk.pc v = .notStarted := by
        intro v
        by_contra hne
        have := hsig.notStarted hne
        rw [hwk] at this
        exact this (hnot hm v)
      refine ⟨?_, ?_, ?_, h1.spawners, h1.spawned, ?_, ?_, ?_⟩
      · intro k hk
        simp only [published, hm, if_true] at hk
        cases hk
        exact Nat.zero_le _
      · intro v hv; exact absurd (hnot1 v) hv
      · intro _ v
        rw [hnot1 v]; rfl
      · intro p hp hpm
        have hp' : p ∈ s.spawns.erase (θ, t) := by rw [← hspawns]; exact hp
        exact absurd ((hmain p.2).symm.trans hpm) (hlast hm p hp')
      · intro he; simp [published, hm, Lifecycle.ending] at he
      · intro hp; simp [published, hm] at hp
    · refine h1.signals ?_ hcount rfl rfl (fun _ => id) rfl rfl hsig
      simp [published, hm]

theorem wokeIo {n : Nat} (hs : LifeInv s) (h : IoWoke s s' n) : LifeInv s' :=
  hs.signals h.life h.fields.1 h.spawns h.nextTask (fun t => by rw [h.isMain t]; exact id)
    h.shutdownRequested h.schedulerMainFinished h.signals

/-- Applying a batch of events keeps the worker that applies it where it is. -/
theorem pollBatch {o : Oracle} {events : List PollEvent} (hs : LifeInv s)
    (h : events.foldlM (applyPollEvent o) s = .ok s') :
    LifeInv s' ∧ ∀ w, (s'.wk.pc w).alive = (s.wk.pc w).alive := by
  refine Res.foldlM_induct (I := fun x => LifeInv x ∧
    ∀ w, (x.wk.pc w).alive = (s.wk.pc w).alive) ?_ events ⟨hs, fun _ => rfl⟩ h
  intro x e x' hx hstep
  obtain ⟨n, hwake⟩ := applyPollEvent_ok hstep
  have hwoke := wakeWaitingTasksLocked_woke hwake
  refine ⟨hx.1.wokeIo hwoke, fun w => ?_⟩
  rw [← hx.2 w]
  exact hwoke.signals.alive w

/-- One iteration of the scheduling loop by a live worker. -/
theorem loopOutcome {checked : Bool} (h : LifeInv s) (hw : (s.wk.pc w).alive = true)
    (hout : LoopOutcome w checked s s') : LifeInv s' := by
  have hupdate : ∀ (pc : Pc) v, v ≠ w → Function.update s.wk.pc w pc v ≠ .notStarted →
      s.wk.pc v ≠ .notStarted := by
    intro pc v hv hne
    rwa [Function.update_of_ne hv] at hne
  cases hout with
  | exit hstop => exact h.workerStep hw rfl rfl rfl rfl (fun _ => id) id (hupdate _)
  | poll hgo hidle htimeout =>
      exact h.workerStep hw rfl rfl rfl rfl (fun _ => id) id (hupdate _)
  | dispatch hgo hqueue =>
      exact h.workerStep hw rfl rfl rfl rfl (isMain_update rfl) id (hupdate _)
  | sleep hgo hactive hqueue =>
      exact h.workerStep hw rfl rfl rfl rfl (fun _ => id) id (hupdate _)

/-- A worker whose program point is not written was started before. -/
theorem started_of_update {p : Pc} (v : WorkerId) (hv : v ≠ w)
    (hne : Function.update s.wk.pc w p v ≠ .notStarted) : s.wk.pc v ≠ .notStarted := by
  rwa [Function.update_of_ne hv] at hne

/-- A thread forgets a descriptor. -/
theorem forgetFd {o : Oracle} {θ : Thread} {fd : Int} (h : LifeInv s)
    (hforget : workerForgetFd o s θ fd = .ok s') : LifeInv s' := by
  rcases workerForgetFd_ok hforget with ⟨_, rfl⟩ | ⟨_, s1, n, hwake, rfl⟩
  · exact h
  · have h1 := h.wokeIo (wakeWaitingTasksLocked_woke hwake)
    split
    · exact h1.signals rfl rfl rfl rfl (fun _ => id) rfl rfl fun _ => .inl rfl
    · exact h1

/-- A task waits for a descriptor. -/
theorem waitIo {o : Oracle} {fd : Int} {events : IoEvents} (h : LifeInv s)
    (hpc : s.wk.pc w = .running t) : LifeInv (workerParkCurrentOnIo o s w t fd events) := by
  have halive : (s.wk.pc w).alive = true := by rw [hpc]; rfl
  rcases workerParkCurrentOnIo_form o s w t fd events with
    ⟨io, poller, heq⟩ | ⟨_, _, _, _, heq⟩ <;> rw [heq]
  · exact h.signals rfl rfl rfl rfl (fun _ => id) rfl rfl fun _ => .inl rfl
  · exact h.workerStep halive rfl rfl rfl rfl (isMain_update rfl) id (started_of_update)

/-- The main task ends. -/
theorem finishSched (h : LifeInv s) (hpc : s.wk.pc w = .finishSched t) :
    LifeInv ({ s with schedulerMainFinished := true }.mapWk fun wk =>
      (wk.condBroadcast.setPc w (.switching t .finished)).owe (.worker w)) := by
  refine h.workerStep (w := w) (by rw [hpc]; rfl) rfl rfl rfl rfl (fun _ => id) id ?_
  intro v hv hne
  refine (Signals.condBroadcast s.wk).notStarted (w := v) ?_
  simpa [Sys.mapWk, Workers.owe, Workers.setPc, hv] using hne

/-- A worker puts a task back into the run queue. -/
theorem requeue {o : Oracle} (h : LifeInv s) (hpc : s.wk.pc w = .requeue t)
    (hrequeue : requeueTask o w t s = .ok s') : LifeInv s' := by
  obtain ⟨s2, hpush, rfl⟩ := requeueTask_ok hrequeue
  have halive : (s.wk.pc w).alive = true := by rw [hpc]; rfl
  have hfields : s2.wk = s.wk ∧ s2.life = s.life ∧ s2.spawns = s.spawns ∧
      s2.nextTask = s.nextTask ∧ s2.shutdownRequested = s.shutdownRequested ∧
      ∀ u, (s2.tasks u).isMain = true → (s.tasks u).isMain = true := by
    rcases taskQueuePush_some hpush with ⟨_, rfl⟩ | ⟨_, cap, _, rfl⟩
    · exact ⟨rfl, rfl, rfl, rfl, rfl, fun _ => id⟩
    · exact ⟨rfl, rfl, rfl, rfl, rfl, isMain_update rfl⟩
  obtain ⟨hwk, hlife, hspawns, hnext, hshut, hmain⟩ := hfields
  refine h.workerStep halive hlife
    ((s2.wk.condSignal_fields o.pick).1.trans (by rw [hwk])) hspawns hnext hmain
    (by rw [← hshut]; exact id) ?_
  intro v hv hne
  rw [← hwk]
  refine (Signals.condSignal o.pick s2.wk).notStarted (w := v) ?_
  simpa [Sys.mapWk, Workers.setPc, hv] using hne

/-- A worker is back from `pthread_cond_wait`. -/
theorem condReturn {signalled checked : Bool} (h : LifeInv s)
    (hpc : s.wk.pc w = .condWait signalled checked) : LifeInv (leaveCondWait w checked s) := by
  have h1 : LifeInv (s.mapWk fun wk => { wk with idleWorkers := wk.idleWorkers - 1 }) :=
    h.signals rfl rfl rfl rfl (fun _ => id) rfl rfl fun _ => .inl rfl
  exact h1.loopOutcome (w := w) (by show (s.wk.pc w).alive = true; rw [hpc]; rfl)
    (loopBody_outcome w checked _)

/-- A worker is back from the poller with a batch. -/
theorem pollReturn {o : Oracle} {events : List PollEvent} (h : LifeInv s)
    (hpc : s.wk.pc w = .filtered events) (hpoll : leavePoll o w events s = .ok s') :
    LifeInv s' := by
  have hrelease : LifeInv (releasePoller s) :=
    h.signals rfl rfl rfl rfl (fun _ => id) rfl rfl (Signals.condBroadcast s.wk)
  have halive : ((releasePoller s).wk.pc w).alive = true := by
    show ((s.wk.pc w).signal).alive = true
    rw [hpc]; rfl
  rcases leavePoll_ok hpoll with ⟨_, rfl⟩ | ⟨_, s2, hbatch, hout⟩
  · refine hrelease.workerStep halive rfl rfl rfl rfl (fun _ => id) id ?_
    intro v hv
    simp [Sys.setPc, hv]
  · obtain ⟨h2, hsame⟩ := hrelease.pollBatch hbatch
    exact h2.loopOutcome (by rw [hsame w]; exact halive) hout

/-- A worker is back from a wait that failed. -/
theorem pollFailed (h : LifeInv s) (hpc : s.wk.pc w = .pollError)
    (hpoll : leavePollError w s = .ok s') : LifeInv s' := by
  obtain ⟨_, rfl⟩ := leavePollError_ok hpoll
  refine h.workerStep (w := w) (by rw [hpc]; rfl) rfl rfl rfl rfl (fun _ => id) id ?_
  intro v hv hne
  refine (Signals.condBroadcast s.wk).notStarted (w := v) ?_
  simpa [Sys.setPc, releasePoller, Sys.mapWk, hv] using hne

/-- `croutine_runtime_init`. -/
theorem runtimeInit (h : LifeInv s) (hlife : s.life = .preInit) :
    LifeInv { s with
      shutdownRequested := false, schedulerMainFinished := false, mainFinished := false
      mainSpawned := false, life := .inited
      wk := { s.wk with pollerWaiterActive := false } } := by
  refine h.stage rfl rfl rfl (fun _ => id) (fun k hk => absurd hk (by simp)) ?_
    (fun _ => h.quiet (by rw [hlife]; rfl)) (.inl (by rw [hlife]; simp))
    (fun he => absurd he (by simp [Lifecycle.ending])) (by simp)
  intro v hv
  have hlt := h.started v hv
  rwa [hlife] at hlt

/-- `croutine_runtime_run` begins. -/
theorem runCall (h : LifeInv s) (hlife : s.life = .inited) :
    LifeInv { s with life := .runSpawn } := by
  refine h.stage rfl rfl rfl (fun _ => id) (fun k hk => absurd hk (by simp)) ?_
    (fun _ => h.quiet (by rw [hlife]; rfl)) (.inr rfl)
    (fun he => absurd he (by simp [Lifecycle.ending])) (by simp)
  intro v hv
  have hlt := h.started v hv
  rwa [hlife] at hlt

/-- The next worker is started. -/
theorem createWorker {k : Nat} (h : LifeInv s) (hlife : s.life = .creating k)
    (hk : k < s.wk.count) :
    LifeInv { s.setPc k (.top false) with life := .creating (k + 1) } := by
  refine h.stage rfl rfl rfl (fun _ => id) (fun j hj => by cases hj; exact hk) ?_
    (fun hwork => absurd hwork (by simp [Lifecycle.working]))
    (.inl (by rw [hlife]; simp)) (fun he => absurd he (by simp [Lifecycle.ending])) (by simp)
  intro v hv
  show v < k + 1
  by_cases hvk : v = k
  · subst hvk; exact Nat.lt_succ_self v
  · have hlt := h.started v (by simpa [Sys.setPc, hvk] using hv)
    rw [hlife] at hlt
    exact Nat.lt_succ_of_lt hlt

/-- All workers are started. -/
theorem waitForMain (h : LifeInv s) (hlife : s.life = .creating s.wk.count) :
    LifeInv { s with life := .joining } := by
  exact h.stage rfl rfl rfl (fun _ => id) (fun k hk => absurd hk (by simp))
    (fun v hv => h.started_lt_count hv)
    (fun hwork => absurd hwork (by simp [Lifecycle.working]))
    (.inl (by rw [hlife]; simp)) (fun he => absurd he (by simp [Lifecycle.ending])) (by simp)

/-- All workers are joined, so none is alive. -/
theorem joinWorkers (h : LifeInv s) (hlife : s.life = .joining)
    (hall : ∀ w < s.wk.count, s.wk.pc w = .exited ∨ s.wk.pc w = .notStarted) :
    LifeInv { s with life := .ranOut } := by
  refine h.stage rfl rfl rfl (fun _ => id) (fun k hk => absurd hk (by simp))
    (fun v hv => h.started_lt_count hv) ?_
    (.inl (by rw [hlife]; simp)) (fun he => absurd he (by simp [Lifecycle.ending])) (by simp)
  intro _ v
  show (s.wk.pc v).alive = false
  by_cases hns : s.wk.pc v = .notStarted
  · rw [hns]; rfl
  · rcases hall v (h.started_lt_count hns) with he | he <;> · rw [he]; rfl

/-- `worker_deinit` frees the tasks that are left. -/
theorem deinitDrain (h : LifeInv s) (hlife : s.life = .shutJoin) :
    LifeInv { workerDeinitDrain s with life := .drained } := by
  have hframe := DrainFrame.deinit s
  have hwk : (workerDeinitDrain s).wk = s.wk := by rw [hframe.eq]
  have hshut : (workerDeinitDrain s).shutdownRequested = true := by
    rw [hframe.eq]; exact h.ending (by rw [hlife]; rfl)
  refine h.stage (by rw [hwk]) (by rw [hframe.eq]) (by rw [hframe.eq]) hframe.isMain
    (fun k hk => absurd hk (by simp)) ?_ ?_ (.inl (by rw [hlife]; simp)) (fun _ => hshut)
    (by simp)
  · intro v hv
    exact h.started_lt_count (by rw [← hwk]; exact hv)
  · intro _ v
    show ((workerDeinitDrain s).wk.pc v).alive = false
    rw [hwk]
    exact h.quiet (by rw [hlife]; rfl) v

/-- `worker_deinit` closes the poller. -/
theorem deinitClose (h : LifeInv s) (hlife : s.life = .drained) :
    LifeInv (workerDeinitClose s) := by
  exact h.stage rfl rfl rfl (fun _ => id)
    (fun k hk => absurd hk (by simp [workerDeinitClose]))
    (fun v hv => h.started_lt_count hv) (fun _ => h.quiet (by rw [hlife]; rfl))
    (.inl (by rw [hlife]; simp)) (fun _ => h.ending (by rw [hlife]; rfl))
    (by simp [workerDeinitClose])

/-- **Every step of the scheduler keeps the invariant.** -/
theorem schedStep {a : Action} (h : LifeInv s) (hstep : SchedStep s a s') : LifeInv s' := by
  cases hstep with
  | spawnAlloc hspawn hlife => exact h.spawnAlloc hspawn
  | spawnPublish hlock hmem => exact h.spawnPublish hmem
  | forgetFd hlock hint hforget => exact h.forgetFd hforget
  | waitIo hlock hint hpc hframe => exact h.waitIo hpc
  | yield hpc hframe | finishMain hpc | release hpc | reread hlock hpc | kernelReturn hpc hbatch
  | kernelError hpc | filterBatch hpc =>
      exact h.workerStep (by rw [hpc]; rfl) rfl rfl rfl rfl (fun _ => id) id started_of_update
  | taskReturn hpc hframe | switchOut hpc | resume hpc =>
      exact h.workerStep (by rw [hpc]; rfl) rfl rfl rfl rfl (isMain_update rfl) id
        started_of_update
  | returnIo hpc hframe =>
      exact h.signals rfl rfl rfl rfl (isMain_update rfl) rfl rfl fun _ => .inl rfl
  | finishSched hlock hpc => exact h.finishSched hpc
  | requeue hlock hpc hrequeue => exact h.requeue hpc hrequeue
  | @cleanup w t hpc =>
      exact h.workerStep (by rw [hpc]; rfl) rfl rfl rfl rfl (DrainFrame.cleanup s t).isMain id
        started_of_update
  | loop hlock hpc => exact h.loopOutcome (by rw [hpc]; rfl) (loopBody_outcome _ _ s)
  | condReturn hlock hpc => exact h.condReturn hpc
  | pollReturn hlock hpc hpoll => exact h.pollReturn hpc hpoll
  | pollFailed hlock hpc hpoll => exact h.pollFailed hpc hpoll
  | pollerWake hmem | setReady fd mask =>
      exact h.signals rfl rfl rfl rfl (fun _ => id) rfl rfl fun _ => .inl rfl
  | runtimeInit hlock hlife => exact h.runtimeInit hlife
  | runCall hlife => exact h.runCall hlife
  | createWorker hlife hk howes => exact h.createWorker hlife hk
  | waitForMain hlife => exact h.waitForMain hlife
  | joinWorkers hlife hall => exact h.joinWorkers hlife hall
  | deinitDrain hlock hlife => exact h.deinitDrain hlife
  | deinitClose hlife => exact h.deinitClose hlife

end LifeInv

/-- The lifecycle invariant holds in every state of every run. -/
theorem LifeInv.reach {backend : Backend} {allowed : Sys → Action → Prop} {s : Sys}
    (h : (runtime backend).ReachVia allowed s) : LifeInv s := by
  refine Machine.ReachVia.invariant ?_ ?_ h
  · rintro x ⟨wakeFd, workers, runCapacity, ioCapacity, _, _, rfl⟩
    exact ⟨fun k hk => absurd hk (by simp [initial]), fun w hw => absurd rfl hw,
      fun _ _ => rfl, by simp [initial], by simp [initial], by simp [initial],
      fun he => absurd he (by simp [initial, Lifecycle.ending]), fun _ => rfl⟩
  · intro x a x' _ hx _ hstep
    rcases step_kind hstep with hc | hs
    · exact hx.chanView hc.view
    · exact hx.schedStep hs

end Croutine
