import Croutine.Api
import Croutine.LifeMoves

/-!
# What the process holds

Every way through `croutine_runtime_init`, `croutine_runtime_run` and
`croutine_runtime_shutdown` releases what it acquired, once.  `ApiInv` says at each point of the
lifecycle what is held: the queue, the table and the descriptors from the one successful
`worker_init` to `worker_deinit`, and a thread handle for each worker that was started and not
yet joined.
-/

namespace Croutine

/-! ## What one call acquires and releases -/

theorem closeIfOpen_shows {a : Holdings} {f : Resource → Bool} (h : a.Shows f) (r : Resource) :
    (closeIfOpen a r).Shows (Function.update f r false) := by
  unfold closeIfOpen
  rw [h.held]
  cases hr : f r with
  | true => exact h.release hr
  | false =>
      refine h.congr fun q => ?_
      by_cases hq : q = r
      · subst hq
        rw [Function.update_self, hr]
      · rw [Function.update_of_ne hq]

/-- The descriptors of the poller are open besides `f`. -/
def withPoller (backend : Backend) (f : Resource → Bool) : Resource → Bool
  | .pollerFd | .wakeFd => true
  | .wakeWriteFd => backend = .kqueue
  | r => f r

section Poller

variable {backend : Backend} {a : Holdings} {f : Resource → Bool}

/-- **`croutine_poller_init`** opens all descriptors of the poller or none. -/
theorem croutinePollerInit_shows (ans : InitAnswers) (h : a.Shows f) (hpoller : f .pollerFd = false)
    (hwake : f .wakeFd = false) (hwrite : f .wakeWriteFd = false) :
    (croutinePollerInit backend ans a).1.Shows
      (if (croutinePollerInit backend ans a).2 then withPoller backend f else f) := by
  have h1 := h.acquire hpoller
  unfold croutinePollerInit
  rw [h.held, hpoller, if_neg Bool.false_ne_true]
  cases ans.pollerOk with
  | false => exact h
  | true =>
      have h2 := h1.acquire (r := .wakeFd) (by simp [hwake])
      cases backend with
      | epoll =>
          cases ans.wakeOk with
          | false =>
              refine (h1.release (r := .pollerFd) (by simp)).congr fun r => ?_
              cases r <;> simp [hpoller]
          | true =>
              cases ans.registerOk with
              | false =>
                  have h3 := h2.release (r := .wakeFd) (by simp)
                  refine (h3.release (r := .pollerFd) (by simp)).congr fun r => ?_
                  cases r <;> simp [hpoller, hwake]
              | true =>
                  refine h2.congr fun r => ?_
                  cases r <;> simp [withPoller, hwrite]
      | kqueue =>
          unfold createWakePipe
          cases ans.wakeOk with
          | false =>
              refine (closeIfOpen_shows h1 .pollerFd).congr fun r => ?_
              cases r <;> simp [hpoller]
          | true =>
              have h3 := h2.acquire (r := .wakeWriteFd) (by simp [hwrite])
              cases ans.prepareOk with
              | false =>
                  have h4 := h3.release (r := .wakeFd) (by simp)
                  have h5 := h4.release (r := .wakeWriteFd) (by simp)
                  refine (closeIfOpen_shows h5 .pollerFd).congr fun r => ?_
                  cases r <;> simp [hpoller, hwake, hwrite]
              | true =>
                  cases ans.registerOk with
                  | false =>
                      have h4 := closeIfOpen_shows (closeIfOpen_shows h3 .wakeWriteFd) .wakeFd
                      refine (closeIfOpen_shows h4 .pollerFd).congr fun r => ?_
                      cases r <;> simp [hpoller, hwake, hwrite]
                  | true =>
                      refine h3.congr fun r => ?_
                      cases r <;> simp [withPoller]

/-- **`croutine_poller_deinit`** closes them. -/
theorem croutinePollerDeinit_shows (h : a.Shows (withPoller backend f))
    (hpoller : f .pollerFd = false) (hwake : f .wakeFd = false)
    (hwrite : f .wakeWriteFd = false) : (croutinePollerDeinit backend a).Shows f := by
  cases backend with
  | epoll =>
      refine (closeIfOpen_shows (closeIfOpen_shows h .wakeFd) .pollerFd).congr fun r => ?_
      cases r <;> simp [withPoller, hpoller, hwake, hwrite]
  | kqueue =>
      have h1 := closeIfOpen_shows (closeIfOpen_shows h .wakeWriteFd) .wakeFd
      refine (closeIfOpen_shows h1 .pollerFd).congr fun r => ?_
      cases r <;> simp [withPoller, hpoller, hwake, hwrite]

end Poller

/-- The queue, the table and the descriptors. -/
def basics (backend : Backend) : Resource → Bool
  | .runQueue | .ioWaits | .pollerFd | .wakeFd => true
  | .wakeWriteFd => backend = .kqueue
  | _ => false

/-- **`runtime_init_impl`** acquires all it needs or nothing. -/
theorem runtimeInitImpl_shows (backend : Backend) (ans : InitAnswers) {a : Holdings}
    (h : a.Shows fun _ => false) :
    (runtimeInitImpl backend ans a).1.Shows
      (if (runtimeInitImpl backend ans a).2 then basics backend else fun _ => false) := by
  have h1 := h.acquire (r := .runQueue) rfl
  have h2 := h1.acquire (r := .ioWaits) (by simp)
  have hinit : (croutinePollerInit backend ans _).1.Shows _ :=
    croutinePollerInit_shows ans h2 (by simp) (by simp) (by simp)
  unfold runtimeInitImpl
  cases ans.queueOk with
  | false => exact h
  | true =>
      cases ans.tableOk with
      | false =>
          refine (h1.release (r := .runQueue) (by simp)).congr fun r => ?_
          cases r <;> simp
      | true =>
          simp only [Bool.not_true, Bool.false_eq_true, if_false]
          generalize croutinePollerInit backend ans _ = p at hinit ⊢
          obtain ⟨a', ok⟩ := p
          cases ok with
          | false =>
              have h3 := hinit.release (r := .ioWaits) (by simp)
              refine (h3.release (r := .runQueue) (by simp)).congr fun r => ?_
              cases r <;> simp
          | true =>
              refine hinit.congr fun r => ?_
              cases r <;> simp [basics, withPoller]

/-! ## What a step can do -/

/-- The steps of a process: of all other threads, of `worker_init`, of the calls that are refused
at once, and of the three functions. -/
inductive ApiMove (backend : Backend) (x : Api) : Api → Prop
  | act {a : Action} {s : Sys} (ha : a.ofControl = false) (hs : step x.sys a = .ok s) :
      ApiMove backend x { x with sys := s }
  | mainRefused {a : Action} {s : Sys} (ha : a.ofControl = false) (hs : step x.sys a = .ok s) :
      ApiMove backend x (({ x with sys := s } : Api).returns (.ran (-1)))
  | workerInit (ans : InitAnswers) : ApiMove backend x (x.workerInit backend ans)
  | setExitCode (code : Int) : ApiMove backend x { x with mainExitCode := code }
  | refused {r : Returned} (hr : r = .init false ∨ r = .ran (-1) ∨ r = .shutdown) :
      ApiMove backend x (x.returns r)
  | initFails {ans : InitAnswers} {stackSize : BitVec 64}
      (hever : x.runtimeEverInitialized = false)
      (hok : (x.workerInit backend ans).runtimeInitOk = false) :
      ApiMove backend x (({ x.workerInit backend ans with
        stackSize := stackSize, mainExitCode := 0, runtimeEverInitialized := true } :
          Api).returns (.init false))
  | initSucceeds {ans : InitAnswers} {stackSize : BitVec 64} {s : Sys}
      (hever : x.runtimeEverInitialized = false)
      (hok : (x.workerInit backend ans).runtimeInitOk = true)
      (hs : step (x.workerInit backend ans).sys .runtimeInit = .ok s) :
      ApiMove backend x (({ x.workerInit backend ans with
        stackSize := stackSize, mainExitCode := 0, sys := s, runtimeEverInitialized := true
        runtimeWorkerCount := x.sys.wk.count, runtimeInitialized := true } :
          Api).returns (.init true))
  | run {s : Sys} (hs : step x.sys .runCall = .ok s) :
      ApiMove backend x { x with sys := s, runtimeRan := true }
  | allocWorkers (hl : x.sys.life = .creating 0) (hnone : x.runtimeWorkers = false) :
      ApiMove backend x { x with
        runtimeWorkers := true, account := x.account.acquire .workerArray }
  | allocFails {o : Oracle} {s : Sys} (hnone : x.runtimeWorkers = false)
      (hs : step x.sys (.workersAllocFail o) = .ok s) :
      ApiMove backend x (({ x with sys := s } : Api).returns (.ran (-1)))
  | createWorker {s : Sys} (hs : step x.sys .createWorker = .ok s) :
      ApiMove backend x { x with
        sys := s, runtimeStartedWorkers := x.runtimeStartedWorkers + 1
        account := x.account.acquire (.thread x.runtimeStartedWorkers) }
  | createFails {o : Oracle} {s : Sys} (hs : step x.sys (.createWorkerFail o) = .ok s) :
      ApiMove backend x { x with sys := s, exitCode := -1 }
  | waitForMain {s : Sys} (hcount : x.runtimeStartedWorkers = x.runtimeWorkerCount)
      (hs : step x.sys .waitForMain = .ok s) :
      ApiMove backend x { x with sys := s, exitCode := x.mainExitCode }
  | joinWorkers {s : Sys} (hs : step x.sys .joinWorkers = .ok s) :
      ApiMove backend x (({ x with sys := s } : Api).joinAll.returns (.ran x.exitCode))
  | shutdown {o : Oracle} {s : Sys} (hs : step x.sys (.shutdownCall o) = .ok s) :
      ApiMove backend x { x with sys := s }
  | deinitDrain {s : Sys} (hs : step x.sys .deinitDrain = .ok s) :
      ApiMove backend x ({ x with sys := s } : Api).joinAll
  | deinitClose {s : Sys} (hs : step x.sys .deinitClose = .ok s) :
      ApiMove backend x (({ x with
        sys := s
        account := ((croutinePollerDeinit backend x.account).release .ioWaits).release .runQueue
        runtimeInitOk := false, runtimeInitialized := false } : Api).returns .shutdown)

theorem Api.workerInit_sys (backend : Backend) (x : Api) (ans : InitAnswers) :
    (x.workerInit backend ans).sys = x.sys := by
  unfold Api.workerInit
  split <;> rfl

theorem apiStep_move {backend : Backend} {x x' : Api} {b : ApiAction}
    (hs : apiStep backend x b = .ok x') : ApiMove backend x x' := by
  cases b with
  | act a =>
      obtain ⟨_, hg, hrest⟩ := Res.bind_ok.mp hs
      obtain ⟨s, hstep, hret⟩ := Res.bind_ok.mp hrest
      simp only [Res.require_ok, Bool.and_eq_true, Bool.not_eq_true'] at hg
      split at hret
      · cases Res.pure_ok.mp hret
        exact .mainRefused hg.1 hstep
      · cases Res.pure_ok.mp hret
        exact .act hg.1 hstep
  | workerInit ans =>
      cases hs
      exact .workerInit ans
  | setExitCode code =>
      cases hs
      exact .setExitCode code
  | init config online ans =>
      obtain ⟨_, _, hrest⟩ := Res.bind_ok.mp hs
      split at hrest
      · cases Res.pure_ok.mp hrest
        exact .refused (.inl rfl)
      · next hno =>
        simp only [Bool.or_eq_true, not_or, Bool.not_eq_true] at hno
        split at hrest
        · dsimp only at hrest
          split at hrest
          · next hfail =>
            cases Res.pure_ok.mp hrest
            exact .initFails hno.2 (by simpa using hfail)
          · next hok =>
            obtain ⟨_, hcount, hrest⟩ := Res.bind_ok.mp hrest
            obtain ⟨s, hstep, hret⟩ := Res.bind_ok.mp hrest
            cases Res.pure_ok.mp hret
            rw [Res.require_ok, decide_eq_true_eq, Api.workerInit_sys] at hcount
            subst hcount
            exact .initSucceeds hno.2 (by simpa using hok) hstep
        · cases Res.pure_ok.mp hrest
          exact .refused (.inl rfl)
  | run mainFn =>
      obtain ⟨_, _, hrest⟩ := Res.bind_ok.mp hs
      split at hrest
      · cases Res.pure_ok.mp hrest
        exact .refused (.inr (.inl rfl))
      · obtain ⟨s, hstep, hret⟩ := Res.bind_ok.mp hrest
        cases Res.pure_ok.mp hret
        exact .run hstep
  | allocWorkers ok o =>
      obtain ⟨_, hg, hrest⟩ := Res.bind_ok.mp hs
      simp only [Res.require_ok, Bool.and_eq_true, decide_eq_true_eq, Bool.not_eq_true'] at hg
      split at hrest
      · cases Res.pure_ok.mp hrest
        exact .allocWorkers hg.1.1 hg.1.2
      · obtain ⟨s, hstep, hret⟩ := Res.bind_ok.mp hrest
        cases Res.pure_ok.mp hret
        exact .allocFails hg.1.2 hstep
  | createWorker ok o =>
      obtain ⟨_, _, hrest⟩ := Res.bind_ok.mp hs
      split at hrest
      · obtain ⟨s, hstep, hret⟩ := Res.bind_ok.mp hrest
        cases Res.pure_ok.mp hret
        exact .createWorker hstep
      · obtain ⟨s, hstep, hret⟩ := Res.bind_ok.mp hrest
        cases Res.pure_ok.mp hret
        exact .createFails hstep
  | waitForMain =>
      obtain ⟨_, hg, hrest⟩ := Res.bind_ok.mp hs
      obtain ⟨s, hstep, hret⟩ := Res.bind_ok.mp hrest
      cases Res.pure_ok.mp hret
      simp only [Res.require_ok, Bool.and_eq_true, decide_eq_true_eq] at hg
      exact .waitForMain hg.2 hstep
  | joinWorkers =>
      obtain ⟨s, hstep, hret⟩ := Res.bind_ok.mp hs
      cases Res.pure_ok.mp hret
      exact .joinWorkers hstep
  | shutdown o =>
      obtain ⟨_, _, hrest⟩ := Res.bind_ok.mp hs
      split at hrest
      · cases Res.pure_ok.mp hrest
        exact .refused (.inr (.inr rfl))
      · obtain ⟨s, hstep, hret⟩ := Res.bind_ok.mp hrest
        cases Res.pure_ok.mp hret
        exact .shutdown hstep
  | deinitDrain =>
      obtain ⟨s, hstep, hret⟩ := Res.bind_ok.mp hs
      cases Res.pure_ok.mp hret
      exact .deinitDrain hstep
  | deinitClose =>
      obtain ⟨s, hstep, hret⟩ := Res.bind_ok.mp hs
      cases Res.pure_ok.mp hret
      exact .deinitClose hstep

/-! ## The invariant -/

/-- What the process is meant to hold. -/
def Api.holds (backend : Backend) (x : Api) : Resource → Bool
  | .workerArray => x.runtimeWorkers
  | .thread k => k < x.runtimeStartedWorkers
  | r => x.runtimeInitOk && basics backend r

structure ApiInv (backend : Backend) (x : Api) : Prop where
  reach : (runtime backend).Reach x.sys
  account : x.account.Shows (x.holds backend)
  once : x.runtimeInitOnce = false →
    x.runtimeInitOk = false ∧ x.runtimeEverInitialized = false
  initialized : x.runtimeInitialized = x.sys.initialized
  ever : x.sys.life ≠ .preInit → x.runtimeEverInitialized = true
  usable : x.runtimeEverInitialized = true → x.runtimeInitOk = x.runtimeInitialized
  array : x.runtimeWorkers = true → x.sys.life.working = true
  threads : ∀ k, k < x.runtimeStartedWorkers ↔
    x.sys.life.working = true ∧ x.sys.wk.pc k ≠ .notStarted
  creating : ∀ k, x.sys.life = .creating k → x.runtimeStartedWorkers = k

namespace ApiInv

variable {backend : Backend} {x : Api}

theorem init (h : (api backend).init x) : ApiInv backend x := by
  obtain ⟨hsys, hx⟩ := h
  have hlife : x.sys.life = .preInit := by
    obtain ⟨fd, n, c, d, _, _, heq⟩ := hsys
    rw [heq]
    rfl
  have hreach : (runtime backend).Reach x.sys := .init hsys
  generalize x.sys = s at hx hlife hreach
  subst hx
  refine ⟨hreach, ⟨funext fun r => ?_, rfl⟩, fun _ => ⟨rfl, rfl⟩, ?_, ?_, ?_, ?_, ?_, ?_⟩
  · cases r <;> simp [Api.holds]
  · simp [Sys.initialized, hlife]
  · simp [hlife]
  · simp
  · simp
  · simp [hlife, Lifecycle.working]
  · simp [hlife]

theorem initOk_of_initialized (h : ApiInv backend x) (hi : x.runtimeInitialized = true) :
    x.runtimeInitOk = true := by
  have hlife : x.sys.life ≠ .preInit := by
    intro hl
    rw [h.initialized, Sys.initialized, hl] at hi
    exact absurd hi (by simp)
  rw [h.usable (h.ever hlife), hi]

/-- While no worker runs there is no handle of one. -/
theorem idle_workers (h : ApiInv backend x) (hl : x.sys.life.working = false) :
    x.runtimeWorkers = false ∧ x.runtimeStartedWorkers = 0 := by
  refine ⟨?_, ?_⟩
  · cases hw : x.runtimeWorkers with
    | false => rfl
    | true => exact absurd (h.array hw) (by simp [hl])
  · refine Nat.eq_zero_of_not_pos fun hpos => ?_
    have := ((h.threads 0).mp hpos).1
    rw [hl] at this
    exact absurd this (by simp)

/-- **`worker_init`**, by whichever thread. -/
theorem workerInit (h : ApiInv backend x) (ans : InitAnswers) :
    ApiInv backend (x.workerInit backend ans) := by
  unfold Api.workerInit
  split
  · exact h
  · next honce =>
    obtain ⟨hok, hever⟩ := h.once (by simpa using honce)
    have hlife : x.sys.life = .preInit := by
      by_contra hne
      rw [h.ever hne] at hever
      exact absurd hever (by simp)
    obtain ⟨hworkers, hstarted⟩ := h.idle_workers (by rw [hlife]; rfl)
    have hnone : x.account.Shows fun _ => false := by
      refine h.account.congr fun r => ?_
      cases r <;> simp [Api.holds, hok, hworkers, hstarted]
    have hshows := runtimeInitImpl_shows backend ans hnone
    generalize runtimeInitImpl backend ans x.account = p at hshows
    obtain ⟨a, ok⟩ := p
    refine ⟨h.reach, hshows.congr fun r => ?_, by simp, h.initialized, h.ever, ?_, h.array,
      h.threads, h.creating⟩
    · cases ok <;> cases r <;> simp [Api.holds, basics, hworkers, hstarted]
    · intro he
      rw [show x.runtimeEverInitialized = true from he] at hever
      exact absurd hever (by simp)

/-- The invariant says nothing about the results and settings. -/
theorem besides (h : ApiInv backend x) (ran : Bool) (count : Nat) (stackSize : BitVec 64)
    (main exit : Int) (returned : List Returned) :
    ApiInv backend { x with
      runtimeRan := ran, runtimeWorkerCount := count, stackSize := stackSize
      mainExitCode := main, exitCode := exit, returned := returned } :=
  ⟨h.reach, h.account, h.once, h.initialized, h.ever, h.usable, h.array, h.threads, h.creating⟩

theorem returns (h : ApiInv backend x) (r : Returned) : ApiInv backend (x.returns r) :=
  h.besides _ _ _ _ _ _

variable {a : Action} {s : Sys}

theorem reach_step (h : ApiInv backend x) (hs : step x.sys a = .ok s) :
    (runtime backend).Reach s :=
  .step h.reach trivial hs

/-- A step of the scheduler that starts no worker. -/
theorem follows (h : ApiInv backend x) (hs : step x.sys a = .ok s) (ha : a ≠ .createWorker)
    (hinit : s.initialized = x.sys.initialized)
    (hpre : x.sys.life = .preInit → s.life = .preInit)
    (hwork : s.life.working = x.sys.life.working ∨ x.runtimeWorkers = false ∧
      x.runtimeStartedWorkers = 0 ∧ ∀ k, s.life.working = true → s.wk.pc k = .notStarted)
    (hcreating : ∀ k, s.life = .creating k → x.runtimeStartedWorkers = k) :
    ApiInv backend { x with sys := s } := by
  have hpc := step_started (IoInv.reach h.reach).agree hs ha
  refine ⟨h.reach_step hs, h.account, h.once, h.initialized.trans hinit.symm,
    fun hl => h.ever fun hp => hl (hpre hp), h.usable, ?_, ?_, hcreating⟩
  · intro hw
    rcases hwork with hwork | ⟨hnone, _⟩
    · exact hwork.trans (h.array hw)
    · exact absurd (hnone.symm.trans hw) (by simp)
  · intro k
    rcases hwork with hwork | ⟨_, hzero, hnone⟩
    · exact (h.threads k).trans (by rw [hwork, ne_eq, ne_eq, hpc k])
    · show k < x.runtimeStartedWorkers ↔ s.life.working = true ∧ s.wk.pc k ≠ .notStarted
      rw [hzero]
      exact ⟨fun hk => absurd hk (Nat.not_lt_zero k), fun hk => absurd (hnone k hk.1) hk.2⟩

/-- Steps of all other threads. -/
theorem beneath (h : ApiInv backend x) (hs : step x.sys a = .ok s) (ha : a.ofControl = false) :
    ApiInv backend { x with sys := s } := by
  have hlife := LifeInv.reach h.reach
  have hne : a ≠ .createWorker := by
    intro heq
    rw [heq] at ha
    exact absurd ha (by simp [Action.ofControl])
  have hpc := step_started (IoInv.reach h.reach).agree hs hne
  rcases step_beneath hlife hs ha with heq | ⟨hspawn, hnew, _⟩
  · refine h.follows hs hne ?_ (fun hp => heq.trans hp) (.inl (by rw [heq])) ?_
    · rw [Sys.initialized, Sys.initialized, heq]
    · rw [heq]
      exact h.creating
  · obtain ⟨hworkers, hstarted⟩ := h.idle_workers (by rw [hspawn]; rfl)
    have hnone : ∀ k, s.wk.pc k = .notStarted := by
      intro k
      rw [hpc k]
      by_contra hk
      have hlt := hlife.started k hk
      rw [hspawn] at hlt
      exact absurd hlt (Nat.not_lt_zero k)
    refine h.follows hs hne ?_ ?_ (.inr ⟨hworkers, hstarted, fun k _ => hnone k⟩) ?_
    · rcases hnew with hl | hl <;> simp [Sys.initialized, hspawn, hl]
    · simp [hspawn]
    · intro k hk
      rcases hnew with hl | hl
      · rw [hl, Lifecycle.creating.injEq] at hk
        rw [hstarted, hk]
      · exact absurd (hl.symm.trans hk) (by simp)

/-- `pthread_join` for all workers and `free`. -/
theorem joinAll_shows (h : x.account.Shows (x.holds backend)) :
    x.joinAll.account.Shows (x.joinAll.holds backend) := by
  have hnodup : ((List.range x.runtimeStartedWorkers).map Resource.thread).Nodup :=
    List.Nodup.map (fun _ _ heq => by cases heq; rfl) List.nodup_range
  have hall : ∀ r ∈ (List.range x.runtimeStartedWorkers).map Resource.thread,
      x.holds backend r = true := by
    intro r hr
    obtain ⟨k, hk, rfl⟩ := List.mem_map.mp hr
    simpa [Api.holds] using hk
  refine (closeIfOpen_shows (h.releaseAll _ hnodup hall) .workerArray).congr fun r => ?_
  cases r <;> simp [Api.joinAll, Api.holds]

/-- Steps after which the threads are joined. -/
theorem joins (h : ApiInv backend x) (hs : step x.sys a = .ok s)
    (hlife : s.life = .ranOut ∨ s.life = .drained)
    (hold : x.sys.life = .joining ∨ x.sys.life = .shutJoin) :
    ApiInv backend ({ x with sys := s } : Api).joinAll := by
  have hinit : s.initialized = x.sys.initialized := by
    rcases hlife with hl | hl <;> rcases hold with ho | ho <;> simp [Sys.initialized, hl, ho]
  have hwork : s.life.working = false := by
    rcases hlife with hl | hl <;> rw [hl] <;> rfl
  refine ⟨h.reach_step hs, joinAll_shows h.account, h.once,
    h.initialized.trans hinit.symm, fun _ => h.ever ?_, h.usable, ?_, ?_, ?_⟩
  · rcases hold with ho | ho <;> simp [ho]
  · simp [Api.joinAll]
  · simp [Api.joinAll, hwork]
  · intro k hk
    have hk : s.life = .creating k := hk
    rcases hlife with hl | hl <;> simp [hl] at hk

/-- A started worker has a handle. -/
theorem createWorker (h : ApiInv backend x) (hs : step x.sys .createWorker = .ok s) :
    ApiInv backend { x with
      sys := s, runtimeStartedWorkers := x.runtimeStartedWorkers + 1
      account := x.account.acquire (.thread x.runtimeStartedWorkers) } := by
  have hreach := h.reach_step hs
  simp only [step] at hs
  split at hs
  · next k hl =>
    obtain ⟨_, _, hret⟩ := Res.bind_ok.mp hs
    cases Res.pure_ok.mp hret
    have hk := h.creating k hl
    refine ⟨hreach, ?_, h.once, ?_, fun _ => h.ever (by simp [hl]), h.usable, fun _ => rfl, ?_, ?_⟩
    · refine (h.account.acquire (by simp [Api.holds])).congr fun r => ?_
      cases r with
      | thread j =>
          by_cases hj : j = x.runtimeStartedWorkers
          · simp [Api.holds, hj]
          · have : j < x.runtimeStartedWorkers + 1 ↔ j < x.runtimeStartedWorkers := by omega
            simp [Api.holds, hj, this]
      | _ => simp [Api.holds]
    · rw [h.initialized]
      simp [Sys.initialized, hl]
    · intro j
      have hj := h.threads j
      rw [hl, hk] at hj
      show j < x.runtimeStartedWorkers + 1 ↔
        Lifecycle.working (.creating (k + 1)) = true ∧
          Function.update x.sys.wk.pc k (.top false) j ≠ .notStarted
      rw [hk]
      by_cases heq : j = k
      · subst heq
        simp [Lifecycle.working]
      · rw [Function.update_of_ne heq]
        simp only [Lifecycle.working, true_and] at hj ⊢
        rw [← hj]
        omega
    · intro j hj
      cases hj
      exact congrArg (· + 1) hk
  · exact absurd hs (by simp)

/-- The end of **`worker_deinit`**. -/
theorem deinitClose (h : ApiInv backend x) (hs : step x.sys .deinitClose = .ok s) :
    ApiInv backend { x with
      sys := s
      account := ((croutinePollerDeinit backend x.account).release .ioWaits).release .runQueue
      runtimeInitOk := false, runtimeInitialized := false } := by
  obtain ⟨hl, hl'⟩ := step_lifeMove hs
  have hinit : x.runtimeInitialized = true := by
    rw [h.initialized]
    simp [Sys.initialized, hl]
  have hok := h.initOk_of_initialized hinit
  have hever := h.ever (by simp [hl])
  obtain ⟨hworkers, hstarted⟩ := h.idle_workers (by rw [hl]; rfl)
  have honce : x.runtimeInitOnce = true := by
    by_contra hne
    rw [(h.once (by simpa using hne)).1] at hok
    exact absurd hok (by simp)
  have hheld : x.account.Shows (withPoller backend fun r => r = .runQueue || r = .ioWaits) := by
    refine h.account.congr fun r => ?_
    cases r <;> simp [Api.holds, withPoller, basics, hok, hworkers, hstarted]
  have h1 := croutinePollerDeinit_shows hheld rfl rfl rfl
  have h2 := h1.release (r := .ioWaits) rfl
  have h3 := h2.release (r := .runQueue) (by simp)
  refine ⟨h.reach_step hs, h3.congr fun r => ?_, ?_, ?_, fun _ => hever, fun _ => rfl,
    ?_, ?_, ?_⟩
  · cases r <;> simp [Api.holds, hworkers, hstarted]
  · intro hne
    exact absurd (honce.symm.trans hne) (by simp)
  · simp [Sys.initialized, hl']
  · simp [hworkers]
  · simp [hstarted, hl', Lifecycle.working]
  · simp [hl']

theorem workerInit_once (x : Api) (ans : InitAnswers) :
    (x.workerInit backend ans).runtimeInitOnce = true := by
  unfold Api.workerInit
  split
  · next honce => exact honce
  · rfl

/-- Before **`croutine_runtime_init`** came as far as `worker_init` nothing has begun. -/
theorem preInit (h : ApiInv backend x) (hever : x.runtimeEverInitialized = false) :
    x.sys.life = .preInit := by
  by_contra hne
  rw [h.ever hne] at hever
  exact absurd hever (by simp)

theorem initFails (h : ApiInv backend x) (honce : x.runtimeInitOnce = true)
    (hlife : x.sys.life = .preInit) (hok : x.runtimeInitOk = false) :
    ApiInv backend { x with runtimeEverInitialized := true } := by
  have hinit : x.runtimeInitialized = false := by
    rw [h.initialized]
    simp [Sys.initialized, hlife]
  refine ⟨h.reach, h.account, ?_, h.initialized, fun _ => rfl, fun _ => hok.trans hinit.symm,
    h.array, h.threads, h.creating⟩
  intro hne
  exact absurd (honce.symm.trans hne) (by simp)

theorem initSucceeds (h : ApiInv backend x) (honce : x.runtimeInitOnce = true)
    (hok : x.runtimeInitOk = true) (hs : step x.sys .runtimeInit = .ok s) :
    ApiInv backend { x with
      sys := s, runtimeEverInitialized := true, runtimeInitialized := true } := by
  obtain ⟨hl, hl'⟩ := step_lifeMove hs
  obtain ⟨hworkers, hstarted⟩ := h.idle_workers (by rw [hl]; rfl)
  refine ⟨h.reach_step hs, h.account, ?_, ?_, fun _ => rfl, fun _ => hok, ?_, ?_, ?_⟩
  · intro hne
    exact absurd (honce.symm.trans hne) (by simp)
  · simp [Sys.initialized, hl']
  · simp [hworkers]
  · simp [hstarted, hl', Lifecycle.working]
  · simp [hl']

/-- Steps of the three functions that neither start nor join workers. -/
theorem controls (h : ApiInv backend x) (hs : step x.sys a = .ok s)
    (ha : a = .runCall ∨ a = .waitForMain ∨ (∃ o, a = .createWorkerFail o) ∨
      (∃ o, a = .shutdownCall o) ∨ ∃ o, a = .workersAllocFail o ∧ x.runtimeWorkers = false) :
    ApiInv backend { x with sys := s } := by
  rcases ha with rfl | rfl | ⟨o, rfl⟩ | ⟨o, rfl⟩ | ⟨o, rfl, hworkers⟩
  · obtain ⟨hl, hl'⟩ := step_lifeMove hs
    exact h.follows hs (by simp) (by simp [Sys.initialized, hl, hl']) (by simp [hl])
      (.inl (by rw [hl, hl']; rfl)) (by simp [hl'])
  · obtain ⟨k, hl, hl'⟩ := step_lifeMove hs
    exact h.follows hs (by simp) (by simp [Sys.initialized, hl, hl']) (by simp [hl])
      (.inl (by rw [hl, hl']; rfl)) (by simp [hl'])
  · obtain ⟨k, hl, hl'⟩ := step_lifeMove hs
    exact h.follows hs (by simp) (by simp [Sys.initialized, hl, hl']) (by simp [hl])
      (.inl (by rw [hl, hl']; rfl)) (by simp [hl'])
  · obtain ⟨hl, hl'⟩ := step_lifeMove hs
    rcases hl with hl | hl <;>
      exact h.follows hs (by simp) (by simp [Sys.initialized, hl, hl']) (by simp [hl])
        (.inl (by rw [hl, hl']; rfl)) (by simp [hl'])
  · obtain ⟨hl, hl'⟩ := step_lifeMove hs
    exact h.follows hs (by simp) (by simp [Sys.initialized, hl, hl']) (by simp [hl])
      (.inr ⟨hworkers, h.creating 0 hl, by simp [hl', Lifecycle.working]⟩) (by simp [hl'])

/-- **`calloc`** for the handles. -/
theorem allocWorkers (h : ApiInv backend x) (hl : x.sys.life = .creating 0)
    (hnone : x.runtimeWorkers = false) :
    ApiInv backend { x with
      runtimeWorkers := true, account := x.account.acquire .workerArray } := by
  refine ⟨h.reach, ?_, h.once, h.initialized, h.ever, h.usable, ?_, h.threads, h.creating⟩
  · refine (h.account.acquire (by simp [Api.holds, hnone])).congr fun r => ?_
    cases r <;> simp [Api.holds]
  · simp [hl, Lifecycle.working]

/-- **One step** keeps the invariant. -/
theorem keeps (h : ApiInv backend x) {x' : Api} (hmove : ApiMove backend x x') :
    ApiInv backend x' := by
  -- croutine_runtime_init past its checks
  have hinit : x.runtimeEverInitialized = false → ∀ ans,
      (x.workerInit backend ans).runtimeInitOnce = true ∧
        (x.workerInit backend ans).sys.life = .preInit := by
    intro hever ans
    rw [Api.workerInit_sys]
    exact ⟨workerInit_once x ans, h.preInit hever⟩
  cases hmove with
  | act ha hs => exact h.beneath hs ha
  | mainRefused ha hs => exact (h.beneath hs ha).returns _
  | workerInit ans => exact h.workerInit ans
  | setExitCode code => exact h.besides _ _ _ _ _ _
  | refused hr => exact h.returns _
  | @initFails ans stackSize hever hok =>
      obtain ⟨honce, hlife⟩ := hinit hever ans
      exact ((h.workerInit ans).initFails honce hlife hok).besides _ _ _ _ _ _
  | @initSucceeds ans stackSize s hever hok hs =>
      obtain ⟨honce, _⟩ := hinit hever ans
      exact ((h.workerInit ans).initSucceeds honce hok hs).besides _ _ _ _ _ _
  | run hs => exact (h.controls hs (.inl rfl)).besides _ _ _ _ _ _
  | allocWorkers hl hnone => exact h.allocWorkers hl hnone
  | allocFails hnone hs =>
      exact (h.controls hs (.inr (.inr (.inr (.inr ⟨_, rfl, hnone⟩))))).returns _
  | createWorker hs => exact h.createWorker hs
  | createFails hs =>
      exact (h.controls hs (.inr (.inr (.inl ⟨_, rfl⟩)))).besides _ _ _ _ _ _
  | waitForMain hcount hs => exact (h.controls hs (.inr (.inl rfl))).besides _ _ _ _ _ _
  | joinWorkers hs =>
      obtain ⟨hl, hl'⟩ := step_lifeMove hs
      exact (h.joins hs (.inl hl') (.inl hl)).returns _
  | shutdown hs => exact h.controls hs (.inr (.inr (.inr (.inl ⟨_, rfl⟩))))
  | deinitDrain hs =>
      obtain ⟨hl, hl'⟩ := step_lifeMove hs
      exact h.joins hs (.inr hl') (.inr hl)
  | deinitClose hs => exact (h.deinitClose hs).returns _

/-- It holds in every reachable state. -/
theorem reachable (h : (api backend).Reach x) : ApiInv backend x :=
  Machine.ReachVia.invariant (fun _ => init) (fun _ _ _ _ hx _ hs => keeps hx (apiStep_move hs)) h

end ApiInv

/-! ## Results -/

variable {backend : Backend} {x : Api}

/-- What a `worker_init` that succeeded has acquired is there until `worker_deinit`. -/
theorem ApiInv.basics_held_of_initOk (h : ApiInv backend x) (hok : x.runtimeInitOk = true)
    {r : Resource} (hr : basics backend r = true) : x.account.held r = true := by
  rw [h.account.held]
  cases r with
  | workerArray | thread k => exact absurd hr (by simp [basics])
  | _ => simpa [Api.holds, hok] using hr

/-- While the runtime is initialized its queue, table and descriptors are there. -/
theorem ApiInv.basics_held (h : ApiInv backend x) (hpre : x.sys.life ≠ .preInit)
    (hdown : x.sys.life ≠ .down) {r : Resource} (hr : basics backend r = true) :
    x.account.held r = true := by
  have hinit : x.runtimeInitialized = true := by
    rw [h.initialized]
    simp [Sys.initialized, hpre, hdown]
  exact h.basics_held_of_initOk (h.initOk_of_initialized hinit) hr

/-- Without a `worker_init` in force nothing is held. -/
theorem ApiInv.nothing_held (h : ApiInv backend x) (hok : x.runtimeInitOk = false)
    (r : Resource) : x.account.held r = false := by
  have hwork : x.sys.life.working = false := by
    have hinit := mt h.initOk_of_initialized (by rw [hok]; exact Bool.false_ne_true)
    rw [h.initialized, Sys.initialized] at hinit
    cases hl : x.sys.life with
    | creating k => simp [hl] at hinit
    | joining => simp [hl] at hinit
    | _ => rfl
  obtain ⟨hworkers, hstarted⟩ := h.idle_workers hwork
  rw [h.account.held]
  cases r <;> simp [Api.holds, hok, hworkers, hstarted]

/-- `croutine_runtime_shutdown` returns at once while `croutine_runtime_init` has not
succeeded. -/
theorem apiStep_shutdown_early {o : Oracle} {x' : Api} (hinit : x.runtimeInitialized = false)
    (h : (api backend).step x (.shutdown o) = .ok x') : x'.account = x.account := by
  obtain ⟨_, _, hrest⟩ := Res.bind_ok.mp h
  rw [hinit] at hrest
  cases Res.pure_ok.mp hrest
  rfl

/-- **What the process holds.**  In any order of calls of the three functions, and whichever
allocation, `pthread_create` or kernel call fails, no descriptor or block is taken twice or given
back twice.  The queue, the table and the descriptors are held while the runtime is initialized.
Nothing is held after a `worker_init` that failed, in `croutine_runtime_init` or in a spawn, or
after `worker_deinit`, with which `croutine_runtime_shutdown` ends on an initialized runtime.
What a `worker_init` in a spawn has acquired is leaked by a `croutine_runtime_shutdown` without
`croutine_runtime_init`: it returns and releases nothing.  There is a thread handle for exactly
the workers that were started and not yet joined. -/
theorem holds_what_it_needs (h : (api backend).Reach x) :
    (runtime backend).Reach x.sys ∧ x.account.misused = false ∧
      (x.runtimeInitialized = true → ∀ r, basics backend r = true → x.account.held r = true) ∧
      (x.runtimeInitOk = false → ∀ r, x.account.held r = false) ∧
      (x.sys.life = .down → ∀ r, x.account.held r = false) ∧
      (x.runtimeInitialized = false → x.runtimeInitOk = true →
        ∀ o x', (api backend).step x (.shutdown o) = .ok x' →
          ∀ r, basics backend r = true → x'.account.held r = true) ∧
      ∀ k, x.account.held (.thread k) = true ↔
        x.sys.life.working = true ∧ x.sys.wk.pc k ≠ .notStarted := by
  have hinv := ApiInv.reachable h
  refine ⟨hinv.reach, hinv.account.fair, fun hinit r hr => ?_, hinv.nothing_held, fun hdown => ?_,
    fun hinit hok o x' hstep r hr => ?_, fun k => ?_⟩
  · exact hinv.basics_held_of_initOk (hinv.initOk_of_initialized hinit) hr
  · refine hinv.nothing_held ?_
    rw [hinv.usable (hinv.ever (by simp [hdown])), hinv.initialized]
    simp [Sys.initialized, hdown]
  · rw [apiStep_shutdown_early hinit hstep]
    exact hinv.basics_held_of_initOk hok hr
  · rw [hinv.account.held, ← hinv.threads k]
    simp [Api.holds]

/-- Answers under which `worker_init` succeeds. -/
def InitAnswers.fine : InitAnswers := ⟨true, true, true, true, true, true⟩

/-- A process that asks for two workers and gets one. -/
def secondCreateFails : List ApiAction :=
  [.init (some ⟨2, 0⟩) 8 .fine, .run true, .act (.spawnAlloc .runtime (.plain true)),
    .act (.spawnPublish .runtime 0 .calm), .allocWorkers true .calm, .createWorker true .calm,
    .createWorker false .calm]

/-- A process that spawns a task and never calls `croutine_runtime_init`. -/
def spawnsWithoutInit : List ApiAction :=
  [.workerInit .fine, .act (.spawnAlloc (.external 0) (.plain false)),
    .act (.spawnPublish (.external 0) 0 .calm)]

theorem holds_what_it_needs_leaks :
    (∃ x, (api .epoll).Reach x ∧ x.sys.life = .joining ∧ x.account.held (.thread 0) = true ∧
      x.account.held (.thread 1) = false ∧ x.account.misused = false) ∧
    ∃ x x', (api .epoll).Reach x ∧ (api .epoll).step x (.shutdown .calm) = .ok x' ∧
      x'.returned = [.shutdown] ∧ x'.account.held .runQueue = true := by
  have hreach : (api .epoll).Reach ((api .epoll).after { sys := small 2 } secondCreateFails) :=
    Machine.reach_after ⟨small_init 2 (by decide), rfl⟩ (by decide)
  have hleaks : (api .epoll).Reach ((api .epoll).after { sys := small 1 } spawnsWithoutInit) :=
    Machine.reach_after ⟨small_init 1 (by decide), rfl⟩ (by decide)
  have hstep := Machine.step_eq_after (M := api .epoll)
    (s := (api .epoll).after { sys := small 1 } spawnsWithoutInit) (a := .shutdown .calm)
    (by decide)
  refine ⟨⟨_, hreach, by decide, by decide, by decide, (holds_what_it_needs hreach).2.1⟩,
    _, _, hleaks, hstep, by decide, ?_⟩
  exact (holds_what_it_needs hleaks).2.2.2.2.2.1 (by decide) (by decide) _ _ hstep .runQueue rfl

/-- **The poller is closed behind the runtime's own threads.**  A worker thread finds the queue,
the table and the descriptors in place from its first instruction to its last, and so does a
worker or the control thread in the middle of a spawn or before a `croutine_poller_wake` that it
makes outside the lock.  Only a thread from outside can be late with its wake, and only after
`worker_deinit`. -/
theorem closes_behind_its_threads (h : (api backend).Reach x) :
    (∀ w, (x.sys.wk.pc w).alive = true →
      ∀ r, basics backend r = true → x.account.held r = true) ∧
    (∀ θ ∈ x.sys.wk.owes, (∀ r, basics backend r = true → x.account.held r = true) ∨
      x.sys.life = .down ∧ ∃ e, θ = .external e) ∧
    ∀ p ∈ x.sys.spawns, (∀ r, basics backend r = true → x.account.held r = true) ∨
      ∃ e, p.1 = .external e := by
  have hinv := ApiInv.reachable h
  have hengaged := Engaged.reach hinv.reach
  have hworker : ∀ w, (x.sys.wk.pc w).alive = true →
      ∀ r, basics backend r = true → x.account.held r = true := by
    intro w hw r hr
    have hwork := (LifeInv.reach hinv.reach).working_of_alive hw
    refine hinv.basics_held ?_ ?_ hr
    · intro hl
      rw [hl] at hwork
      exact absurd hwork (by simp [Lifecycle.working])
    · intro hl
      rw [hl] at hwork
      exact absurd hwork (by simp [Lifecycle.working])
  refine ⟨hworker, fun θ hθ => ?_, fun p hp => ?_⟩
  · have hat := hengaged.owes θ hθ
    cases θ with
    | worker w =>
        obtain ⟨t, hpc | hpc⟩ := hat
        · exact .inl (hworker w (by rw [hpc]; rfl))
        · exact .inl (hworker w (by rw [hpc]; rfl))
    | runtime => exact .inl fun r hr => hinv.basics_held hat.1 hat.2.2 hr
    | external e =>
        by_cases hl : x.sys.life = .down
        · exact .inr ⟨hl, e, rfl⟩
        · exact .inl fun r hr => hinv.basics_held hat hl hr
  · obtain ⟨θ, u⟩ := p
    have hat := hengaged.spawns _ hp
    cases θ with
    | worker w =>
        obtain ⟨t, hpc⟩ := hat
        exact .inl (hworker w (by rw [hpc]; rfl))
    | runtime =>
        have hl : x.sys.life = .runSpawn := hat
        exact .inl fun r hr => hinv.basics_held (by simp [hl]) (by simp [hl]) hr
    | external e => exact .inr ⟨e, rfl⟩

/-- A thread from outside requests the shutdown and is still before its wake when the control
thread has closed the poller. -/
def lateRequest : List ApiAction :=
  [.init (some ⟨1, 0⟩) 8 .fine, .act (.requestShutdown (.external 0) .calm), .shutdown .calm,
    .act (.pollerWake .runtime), .deinitDrain, .deinitClose]

theorem closes_behind_its_threads_late_request :
    ∃ x, (api .epoll).Reach x ∧ .external 0 ∈ x.sys.wk.owes ∧ x.account.held .wakeFd = false ∧
      x.sys.life = .down := by
  have hreach : (api .epoll).Reach ((api .epoll).after { sys := small 1 } lateRequest) :=
    Machine.reach_after ⟨small_init 1 (by decide), rfl⟩ (by decide)
  have hmem : .external 0 ∈ ((api .epoll).after { sys := small 1 } lateRequest).sys.wk.owes := by
    decide
  have hclosed : ((api .epoll).after { sys := small 1 } lateRequest).account.held .wakeFd =
      false := by
    decide
  rcases (closes_behind_its_threads hreach).2.1 _ hmem with hheld | ⟨hdown, _⟩
  · exact absurd (hheld .wakeFd rfl) (by simp [hclosed])
  · exact ⟨_, hreach, hmem, hclosed, hdown⟩

end Croutine
