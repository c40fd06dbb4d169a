import Croutine.OnePlace
import Croutine.Registry
import Croutine.WideSelect

/-!
# Shutdown reaches every channel

`worker_request_shutdown` closes the registered channels one after the other.  A select
with cases on several of them is completed by the first close that finds it and skipped by
the others, so its task is queued once.  Afterwards every queue is empty: a channel that
was open has been drained, and one that was closed before had no waiters left.
-/

namespace Croutine

/-- A wake puts a task into the run queue, and nothing in a channel operation takes one
out. -/
theorem Wakes.woken {s s' : Sys} (h : Wakes s s') {t : TaskId}
    (hwait : (s.tasks t).state = .waitingChannel) (hqueued : (s.tasks t).queued = false) :
    ((s'.tasks t).state = .waitingChannel ∧ (s'.tasks t).queued = false) ∨
      t ∈ s'.runq.tasks := by
  refine Wakes.invariant (I := fun x => ((x.tasks t).state = .waitingChannel ∧
    (x.tasks t).queued = false) ∨ t ∈ x.runq.tasks) (fun _ _ hx => hx) ?_ h
    (.inl ⟨hwait, hqueued⟩)
  intro o x u success x' hx hwake
  obtain ⟨_, cap, _, rfl⟩ := workerWakeTaskLocked_some hwake
  have hgrows : ∀ {v}, v ∈ x.runq.tasks →
      v ∈ (x.runq.pushed u (x.tasks u).queued cap).tasks := by
    intro v hv
    unfold RunQueue.pushed
    dsimp only
    split
    · exact hv
    · exact List.mem_append_left _ hv
  rcases hx with ⟨hstate, hq⟩ | hmem
  · by_cases htu : t = u
    · subst htu
      refine .inr ?_
      show t ∈ (x.runq.pushed t (x.tasks t).queued cap).tasks
      rw [hq]
      exact List.mem_append_right _ (List.mem_singleton.mpr rfl)
    · exact .inl (by simpa [htu] using ⟨hstate, hq⟩)
  · exact .inr (hgrows hmem)

/-- The steps that request shutdown are the calls of `worker_request_shutdown`. -/
theorem step_requestsShutdown {s s' : Sys} {a : Action} (ha : a.requestsShutdown = true)
    (hstep : step s a = .ok s') :
    s.wk.lock = none ∧ ∃ o θ s1 life, ShutdownMove s life ∧
      croutineChannelShutdownAllLocked o { s with shutdownRequested := true } = .ok s1 ∧
      s' = { s1 with wk := s1.wk.condBroadcast.owe θ, mainFinished := true, life := life } := by
  rcases step_kind hstep with hc | hs
  · cases hc with
    | shutdown hlock ha hlife h => exact ⟨hlock, _, _, _, _, hlife, h, rfl⟩
    | _ => simp [Action.requestsShutdown] at ha
  · cases hs <;> simp [Action.requestsShutdown] at ha

/-- A request neither finds the runtime down nor takes it down. -/
theorem ShutdownMove.running {s : Sys} {life : Lifecycle} (h : ShutdownMove s life) :
    life ≠ .down ∧ s.life ≠ .down := by
  cases h with
  | request h =>
      unfold Sys.initialized at h
      simp only [Bool.and_eq_true, decide_eq_true_eq] at h
      exact ⟨h.2, h.2⟩
  | allocFailed h | createFailed h => exact ⟨by simp, by rw [h]; simp⟩
  | shutdownCall h => rcases h with h | h <;> exact ⟨by simp, by rw [h]; simp⟩

/-- The results of destroying the channels of a list one after the other. -/
def destroyEach : List ChanId → Chans → List Bool
  | [], _ => []
  | c :: rest, κ => κ.destroyable c :: destroyEach rest (croutineChannelDestroy κ c)

/-- Destroying a channel writes no other one. -/
theorem destroyable_after_destroy (κ : Chans) (c c' : ChanId) :
    (croutineChannelDestroy κ c).destroyable c' = κ.destroyable c' := by
  unfold croutineChannelDestroy
  split <;> rfl

/-- Destroying channels one after the other answers as each would alone. -/
theorem destroyEach_eq : ∀ (l : List ChanId) (κ : Chans),
    destroyEach l κ = l.map κ.destroyable := by
  intro l
  induction l with
  | nil => exact fun _ => rfl
  | cons c rest ih =>
      intro κ
      rw [destroyEach, ih, List.map_cons]
      congr 1
      exact List.map_congr_left fun c' _ => destroyable_after_destroy κ c c'

/-- **Shutdown reaches every channel.**  In every run the registry has the channels
created and not destroyed, each once, and the loop along its pointers visits them.  When no
select of the run had more than `2 ^ 32` cases, after `worker_request_shutdown` all of them
are closed and without waiters, every task that waited on channels is queued once, and each
channel can be destroyed, in any order. -/
theorem shutdown_reaches_every_channel {backend : Backend} {x : Tracked}
    (h : (tracked backend).Reach x) :
    (x.sys.ch.registry.Nodup ∧
      (∀ c, c ∈ x.sys.ch.registry ↔ c ∈ x.created ∧ ∀ ch, (c, ch) ∉ x.destroyed) ∧
      x.registry.Represents x.sys.ch.registry ∧
      ∀ n, x.sys.ch.registry.length ≤ n →
        Intrusive.walk x.registry.links.next n x.registry.head = x.sys.ch.registry) ∧
    ((tracked backend).ReachVia (fun _ a => a.thorough = true) x →
      ∀ a x', a.requestsShutdown = true → (tracked backend).step x a = .ok x' →
      (∀ c ∈ x'.sys.ch.registry, (x'.sys.ch.chan c).closed = true ∧
        ∀ op, x'.sys.ch.queue c op = []) ∧
      (∀ t, (x.sys.tasks t).state = .waitingChannel → x'.sys.runq.tasks.count t = 1) ∧
      ∀ l, l.Perm x'.sys.ch.registry → ∀ b ∈ destroyEach l x'.sys.ch, b = true) := by
  have hinv := @TrackedInv.reach backend (fun _ _ => True) x h
  refine ⟨⟨hinv.nodup, hinv.members, hinv.represents, fun n hn => ?_⟩, ?_⟩
  · rw [hinv.represents.head]
    exact hinv.represents.chained.walk_eq hn
  intro hthorough a x' ha hstep
  have hrun : ThoroughRun backend x.sys := Tracked.reachVia hthorough
  obtain ⟨s', hs', rfl⟩ := tracked_step hstep
  rw [Tracked.follow_sys]
  obtain ⟨hlock, o, θ, s1, life, hlife, hclose, heq⟩ := step_requestsShutdown ha hs'
  have hrun' : ThoroughRun backend s' := by
    refine .step (a := a) hrun ?_ hs'
    cases a <;> first | rfl | simp [Action.requestsShutdown] at ha
  have hwakes := croutineChannelShutdownAllLocked_wakes hclose
  have hdown : s'.shutdownRequested = true := by
    rw [heq]
    exact hwakes.sameCore.shutdownRequested
  have hempty := hrun'.queue_of_shutdown hdown
  have hregistry : s'.ch.registry = x.sys.ch.registry := by
    rw [heq]
    exact (croutineChannelShutdownAllLocked_moves hclose).keeps.1
  have hclosed : ∀ c ∈ s'.ch.registry, (s'.ch.chan c).closed = true := by
    intro c hc
    rw [hregistry] at hc
    rw [heq]
    exact (shutdownAll_empties hclose).1 c hc
  refine ⟨fun c hc => ⟨hclosed c hc, hempty c⟩, fun t ht => ?_, fun l hl b hb => ?_⟩
  · have htask := TaskInv.reach hrun hlife.running.2
    have htask' := TaskInv.reach hrun' (by rw [heq]; exact hlife.running.1)
    obtain ⟨loc, hloc⟩ := htask.placed
    obtain ⟨loc', hloc'⟩ := htask'.placed
    have hqueued : (x.sys.tasks t).queued = false := by
      have hat := hloc.taskAt t
      rw [((htask.isAt_iff (WaitInv.reach hrun) hlock hloc .parked).mp
        ⟨ht, (WaitInv.reach hrun).parked_waiter ht⟩)] at hat
      exact hat.1.queued
    have hmem : t ∈ s'.runq.tasks := by
      rcases hwakes.woken (t := t) ht hqueued with ⟨hstill, _⟩ | hmem
      · -- a task that still waits would have a waiter in a queue
        obtain ⟨w, c, op, hw, _⟩ := (WaitInv.reach hrun').parked_waiter (t := t)
          (by rw [heq]; exact hstill)
        rw [hempty] at hw
        exact absurd hw List.not_mem_nil
      · rw [heq]
        exact hmem
    exact List.count_eq_one_of_mem hloc'.queued.nodup hmem
  · rw [destroyEach_eq] at hb
    obtain ⟨c, hc, rfl⟩ := List.mem_map.mp hb
    unfold Chans.destroyable
    rw [hclosed c (hl.mem_iff.mp hc), hempty, hempty]
    rfl

/-- The main task waits in a select on two channels. -/
def selectsOnTwo : List Action :=
  startUp 1 ++ dispatchOn 0 ++
    [.channelCreate (.external 0) 1 0 true, .channelCreate (.external 0) 1 0 true,
      .select (.worker 0) [⟨some 0, .recv, 0⟩, ⟨some 1, .send, 1⟩] false ⟨1, 0, true, true⟩
        .calm] ++ handOver 0

theorem shutdown_reaches_selects_on_two :
    ∃ x x', (tracked .epoll).ReachVia (fun _ a => a.thorough = true) x ∧
      (tracked .epoll).step x (.requestShutdown (.external 0) .calm) = .ok x' ∧
      x.sys.ch.queue 0 .recv = [⟨0, 0⟩] ∧ x.sys.ch.queue 1 .send = [⟨0, 1⟩] ∧
      x'.sys.runq.tasks.count 0 = 1 ∧ ∀ b ∈ destroyEach [0, 1] x'.sys.ch, b = true := by
  have hreach : (tracked .epoll).ReachVia (fun _ a => a.thorough = true)
      ((tracked .epoll).after ⟨small 1, .empty, [], []⟩ selectsOnTwo) :=
    Machine.reachVia_after ⟨small_init 1 (by decide), rfl, rfl, rfl⟩
      (fun a ha _ => List.all_eq_true.mp (by decide : selectsOnTwo.all Action.thorough = true) a ha)
      (by decide +kernel)
  have hstep := Machine.step_eq_after (M := tracked .epoll)
    (s := (tracked .epoll).after ⟨small 1, .empty, [], []⟩ selectsOnTwo)
    (a := .requestShutdown (.external 0) .calm) (by decide +kernel)
  obtain ⟨_, hcount, hdestroy⟩ :=
    (shutdown_reaches_every_channel hreach.reach).2 hreach _ _ rfl hstep
  refine ⟨_, _, hreach, hstep, by decide +kernel, by decide +kernel,
    hcount 0 (by decide +kernel), hdestroy [0, 1] ?_⟩
  decide +kernel

/-- A select of `2 ^ 32 + 1` cases parked on a closed channel is not reached. -/
theorem shutdown_misses_wide_select :
    ∃ x x', (tracked .epoll).Reach x ∧
      (tracked .epoll).step x (.requestShutdown (.external 0) .calm) = .ok x' ∧
      (x.sys.tasks 0).state = .waitingChannel ∧ x'.sys.ch.registry = [0] ∧
      x'.sys.ch.queue 0 .recv = [⟨0, 2 ^ 32⟩] ∧ x'.sys.runq.tasks.count 0 = 0 ∧
      destroyEach [0] x'.sys.ch = [false] := by
  obtain ⟨W, cases, hreach⟩ := @reach_wideSelect
    (oneChannel ++ [.channelClose (.external 0) 0 .calm]) (handOver 0) 0 .recv 0
    (by decide +kernel) (by decide +kernel) (fun _ _ => rfl)
  obtain ⟨x, hx, hsys⟩ := Tracked.of_reachVia hreach
  have hruns : (runtime .epoll).runs x.sys [.requestShutdown (.external 0) .calm] = true := by
    rw [hsys]
    rfl
  refine ⟨x, { x with sys := (runtime .epoll).after x.sys [.requestShutdown (.external 0) .calm] },
    hx, ?_, ?_⟩
  · show step x.sys _ >>= _ = _
    rw [show step x.sys (.requestShutdown (.external 0) .calm) = _ from
      Machine.step_eq_after hruns]
    rfl
  · rw [hsys]
    exact ⟨rfl, rfl, rfl, rfl, rfl⟩

end Croutine
