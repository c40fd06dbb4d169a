import Croutine.ApiRuns
import Croutine.WindDown

/-!
# What the three functions return

A process can call `croutine_runtime_init`, `croutine_runtime_run` and
`croutine_runtime_shutdown` in any order and any number of times.  The results it gets say what
has happened: one initialization succeeds at most, one run at most returns the exit code of the
program, and it does so when the main task is over and every worker has left its loop.
-/

namespace Croutine

/-- `croutine_runtime_run` returned an exit code of the program, which is not its own `-1`. -/
def Returned.genuine : Returned → Bool
  | .ran code => code ≠ -1
  | _ => false

/-- No call of `croutine_runtime_run` is to come or under way. -/
def Lifecycle.pastRun : Lifecycle → Bool
  | .ranOut | .shutJoin | .drained | .down => true
  | _ => false

section Steps

variable {backend : Backend} {s s' : Sys} {a : Action}

theorem step_pastRun (hlife : LifeInv s) (h : step s a = .ok s') (hs : s.life.pastRun = true) :
    s'.life.pastRun = true := by
  have hmove := step_lifeMove h
  cases a with
  | createWorker | createWorkerFail o | waitForMain =>
      obtain ⟨k, hl, _⟩ := hmove
      rw [hl] at hs
      exact absurd hs (by simp [Lifecycle.pastRun])
  | runtimeInit | runCall | workersAllocFail o | joinWorkers | shutdownCall o | deinitDrain
  | deinitClose =>
      obtain ⟨hl, hl'⟩ := hmove
      rw [hl']
      first | rfl | (rw [hl] at hs; exact absurd hs (by simp [Lifecycle.pastRun]))
  | _ =>
      rcases step_beneath hlife h rfl with heq | ⟨hl, _⟩
      · rwa [heq]
      · rw [hl] at hs
        exact absurd hs (by simp [Lifecycle.pastRun])

/-- A thread that has left `worker_loop` is gone. -/
theorem step_exited (hlife : LifeInv s) (hagree : IoAgree s.tasks s.io) (h : step s a = .ok s')
    {w : WorkerId} (hpc : s.wk.pc w = .exited) : s'.wk.pc w = .exited := by
  rcases step_moved h hagree w with heq | heq | hmove
  · exact heq.trans hpc
  · rw [heq, hpc]
    rfl
  · rw [hpc] at hmove
    generalize s'.wk.pc w = p at hmove
    cases hmove with
    | start hl => exact absurd hl (hlife.not_creating (by simp [hpc]))

theorem step_mainFinished (hagree : IoAgree s.tasks s.io) (h : step s a = .ok s')
    (hl : s.life ≠ .preInit) (hm : s.mainFinished = true) : s'.mainFinished = true := by
  cases step_flagMove h hagree with
  | kept hsame => exact hsame.main.trans hm
  | finishMain hstop hmain | requested hstop hmain => exact hmain
  | finishSched hpc hstop hmain => exact hmain.trans hm
  | reset hlife hlife' hstop => exact absurd hlife hl

end Steps

structure ResultInv (x : Api) : Prop where
  inits : x.returned.count (.init true) = if x.sys.life = .preInit then 0 else 1
  code : x.sys.life = .joining → x.exitCode ≠ -1 →
    x.sys.mainFinished = true ∧ x.runtimeStartedWorkers = x.runtimeWorkerCount
  runs : x.returned.countP Returned.genuine ≤ if x.sys.life.pastRun then 1 else 0
  genuine : 0 < x.returned.countP Returned.genuine →
    x.sys.mainFinished = true ∧ ∀ w < x.runtimeWorkerCount, x.sys.wk.pc w = .exited

namespace ResultInv

variable {backend : Backend} {x : Api} {s : Sys} {a : Action}

/-- A result that neither is the successful initialization nor comes from the program. -/
theorem returns (h : ResultInv x) {r : Returned} (hinit : r ≠ .init true)
    (hgenuine : r.genuine = false) : ResultInv (x.returns r) := by
  have hcount : (x.returns r).returned.count (.init true) = x.returned.count (.init true) := by
    simp [Api.returns, List.count_append, hinit]
  have hcountP : (x.returns r).returned.countP Returned.genuine =
      x.returned.countP Returned.genuine := by
    simp [Api.returns, List.countP_append, hgenuine]
  refine ⟨hcount.trans h.inits, h.code, ?_, ?_⟩
  · rw [hcountP]
    exact h.runs
  · rw [hcountP]
    exact h.genuine

/-- While a call of `croutine_runtime_run` is to come or under way, no exit code was returned. -/
theorem none_before (h : ResultInv x) (hl : x.sys.life.pastRun = false) :
    x.returned.countP Returned.genuine = 0 := by
  have hruns := h.runs
  rw [hl] at hruns
  exact Nat.le_zero.mp hruns

/-- Steps of the scheduler after `croutine_runtime_init` or before it. -/
theorem follows (h : ResultInv x) (hinv : ApiInv backend x) (hs : step x.sys a = .ok s)
    (code : Int) (hpre : s.life = .preInit ↔ x.sys.life = .preInit)
    (hcode : s.life = .joining → code ≠ -1 →
      s.mainFinished = true ∧ x.runtimeStartedWorkers = x.runtimeWorkerCount) :
    ResultInv { x with sys := s, exitCode := code } := by
  have hlife := LifeInv.reach hinv.reach
  have hagree := (IoInv.reach hinv.reach).agree
  refine ⟨?_, hcode, ?_, fun hpos => ?_⟩
  · refine h.inits.trans ?_
    by_cases hl : x.sys.life = .preInit
    · rw [if_pos hl, if_pos (hpre.mpr hl)]
    · rw [if_neg hl, if_neg fun hl' => hl (hpre.mp hl')]
  · refine Nat.le_trans h.runs ?_
    cases hl : x.sys.life.pastRun with
    | false => exact Nat.zero_le _
    | true =>
        show 1 ≤ if s.life.pastRun = true then 1 else 0
        rw [if_pos (step_pastRun hlife hs hl)]
  · obtain ⟨hmain, hexited⟩ := h.genuine hpos
    have hl : x.sys.life ≠ .preInit := by
      intro hl
      have hnone := h.none_before (by rw [hl]; rfl)
      exact absurd hpos (by rw [show x.returned.countP _ = 0 from hnone]; simp)
    exact ⟨step_mainFinished hagree hs hl hmain,
      fun w hw => step_exited hlife hagree hs (hexited w hw)⟩

/-- A step that leads neither into `croutine_runtime_run`'s joins nor out of the time before
`croutine_runtime_init`. -/
theorem control (h : ResultInv x) (hinv : ApiInv backend x) (hs : step x.sys a = .ok s)
    (hpre : x.sys.life ≠ .preInit) (hjoin : s.life ≠ .joining) :
    ResultInv { x with sys := s } := by
  have hpast := step_past_init (LifeInv.reach hinv.reach) hs hpre
  exact h.follows hinv hs x.exitCode (iff_of_false hpast hpre) fun hj => absurd hj hjoin

/-- Steps of all other threads. -/
theorem beneath (h : ResultInv x) (hinv : ApiInv backend x) (hs : step x.sys a = .ok s)
    (ha : a.ofControl = false) : ResultInv { x with sys := s } := by
  rcases step_beneath (LifeInv.reach hinv.reach) hs ha with heq | ⟨hl, hl', _⟩
  · refine h.follows hinv hs x.exitCode (by rw [heq]) fun hj hne => ?_
    rw [heq] at hj
    obtain ⟨hmain, hcount⟩ := h.code hj hne
    exact ⟨step_mainFinished (IoInv.reach hinv.reach).agree hs (by simp [hj]) hmain, hcount⟩
  · refine h.control hinv hs (by simp [hl]) ?_
    rcases hl' with hl' | hl' <;> simp [hl']

theorem workerInit (h : ResultInv x) (ans : InitAnswers) :
    ResultInv (x.workerInit backend ans) := by
  unfold Api.workerInit
  split
  · exact h
  · exact ⟨h.inits, h.code, h.runs, h.genuine⟩

/-- The one successful **`croutine_runtime_init`**. -/
theorem initSucceeds (h : ResultInv x) (hs : step x.sys .runtimeInit = .ok s)
    {stackSize : BitVec 64} {count : Nat} :
    ResultInv (({ x with
      stackSize := stackSize, mainExitCode := 0, sys := s, runtimeEverInitialized := true
      runtimeWorkerCount := count, runtimeInitialized := true } : Api).returns (.init true)) := by
  obtain ⟨hl, hl'⟩ := step_lifeMove hs
  have hnone := h.none_before (by rw [hl]; rfl)
  have hinits := h.inits
  rw [if_pos hl] at hinits
  refine ⟨?_, fun hj => absurd (hl'.symm.trans hj) (by simp), ?_, fun hpos => ?_⟩
  · simp [Api.returns, List.count_append, hinits, hl']
  · simp [Api.returns, List.countP_append, hnone, Returned.genuine]
  · simp [Api.returns, List.countP_append, hnone, Returned.genuine] at hpos

/-- The end of **`croutine_runtime_run`**: an exit code of the program is returned when all
workers were started, and then they have all exited. -/
theorem joinWorkers (h : ResultInv x) (hinv : ApiInv backend x)
    (hs : step x.sys .joinWorkers = .ok s) :
    ResultInv (({ x with sys := s } : Api).joinAll.returns (.ran x.exitCode)) := by
  have hlife := LifeInv.reach hinv.reach
  obtain ⟨_, hg, hret⟩ := Res.bind_ok.mp hs
  cases Res.pure_ok.mp hret
  simp only [Res.require_ok, Bool.and_eq_true, decide_eq_true_eq, List.all_eq_true,
    List.mem_range, Bool.or_eq_true] at hg
  obtain ⟨⟨hl, _⟩, hall⟩ := hg
  have hnone := h.none_before (by rw [hl]; rfl)
  have hinits := h.inits
  rw [if_neg (by simp [hl])] at hinits
  refine ⟨?_, fun hj => absurd hj (by simp [Api.returns, Api.joinAll]), ?_, fun hpos => ?_⟩
  · simp [Api.returns, Api.joinAll, List.count_append, hinits]
  · have hone := List.countP_le_length (p := Returned.genuine) (l := [.ran x.exitCode])
    simpa [Api.returns, Api.joinAll, List.countP_append, hnone, Lifecycle.pastRun] using hone
  · have hne : x.exitCode ≠ -1 := by
      intro heq
      simp [Api.returns, Api.joinAll, List.countP_append, hnone, Returned.genuine, heq] at hpos
    obtain ⟨hmain, hcount⟩ := h.code hl hne
    refine ⟨hmain, fun w hw => ?_⟩
    have hstarted := ((hinv.threads w).mp (hcount ▸ hw)).2
    exact (hall w (hlife.started_lt_count hstarted)).resolve_right hstarted

/-- **One step** keeps the results in order. -/
theorem keeps (h : ResultInv x) (hinv : ApiInv backend x) {x' : Api}
    (hmove : ApiMove backend x x') : ResultInv x' := by
  cases hmove with
  | act ha hs => exact h.beneath hinv hs ha
  | mainRefused ha hs => exact (h.beneath hinv hs ha).returns (by simp) rfl
  | workerInit ans => exact h.workerInit ans
  | setExitCode code => exact ⟨h.inits, h.code, h.runs, h.genuine⟩
  | refused hr => rcases hr with rfl | rfl | rfl <;> exact h.returns (by simp) rfl
  | @initFails ans stackSize hever hok =>
      have h1 : ResultInv (x.workerInit backend ans) := h.workerInit ans
      refine returns ?_ (by simp) rfl
      exact ⟨h1.inits, h1.code, h1.runs, h1.genuine⟩
  | @initSucceeds ans stackSize s hever hok hs =>
      have h1 : ResultInv (x.workerInit backend ans) := h.workerInit ans
      exact h1.initSucceeds hs
  | run hs =>
      obtain ⟨hl, hl'⟩ := step_lifeMove hs
      have h1 := h.control hinv hs (by simp [hl]) (by simp [hl'])
      exact ⟨h1.inits, h1.code, h1.runs, h1.genuine⟩
  | allocWorkers hl hnone => exact ⟨h.inits, h.code, h.runs, h.genuine⟩
  | allocFails hnone hs =>
      obtain ⟨hl, hl'⟩ := step_lifeMove hs
      exact (h.control hinv hs (by simp [hl]) (by simp [hl'])).returns (by simp) rfl
  | createWorker hs =>
      obtain ⟨k, hl, hl'⟩ := step_lifeMove hs
      have h1 := h.control hinv hs (by simp [hl]) (by simp [hl'])
      exact ⟨h1.inits, fun hj => absurd (hl'.symm.trans hj) (by simp), h1.runs, h1.genuine⟩
  | createFails hs =>
      obtain ⟨k, hl, hl'⟩ := step_lifeMove hs
      exact h.follows hinv hs (-1) (by simp [hl, hl']) fun _ hne => absurd rfl hne
  | @waitForMain s hcount hs =>
      obtain ⟨k, hl, hl'⟩ := step_lifeMove hs
      refine h.follows hinv hs x.mainExitCode (by simp [hl, hl']) fun _ _ => ⟨?_, hcount⟩
      obtain ⟨_, hg, hret⟩ := Res.bind_ok.mp hs
      cases Res.pure_ok.mp hret
      simp only [Res.require_ok, Bool.and_eq_true] at hg
      exact hg.2
  | joinWorkers hs => exact h.joinWorkers hinv hs
  | shutdown hs =>
      obtain ⟨hl, hl'⟩ := step_lifeMove hs
      exact h.control hinv hs (by rcases hl with hl | hl <;> simp [hl]) (by simp [hl'])
  | deinitDrain hs =>
      obtain ⟨hl, hl'⟩ := step_lifeMove hs
      have h1 := h.control hinv hs (by simp [hl]) (by simp [hl'])
      exact ⟨h1.inits, fun hj => absurd (hl'.symm.trans hj) (by simp), h1.runs, h1.genuine⟩
  | deinitClose hs =>
      obtain ⟨hl, hl'⟩ := step_lifeMove hs
      have h1 := h.control hinv hs (by simp [hl]) (by simp [hl'])
      refine returns ?_ (by simp) rfl
      exact ⟨h1.inits, h1.code, h1.runs, h1.genuine⟩

theorem reachable (h : (api backend).Reach x) : ResultInv x := by
  refine Machine.ReachVia.invariant (I := ResultInv) ?_ ?_ h
  · intro y hy
    obtain ⟨hsys, heq⟩ := hy
    have hl : y.sys.life = .preInit := by
      obtain ⟨fd, n, c, d, _, _, hsys⟩ := hsys
      rw [hsys]
      rfl
    generalize y.sys = s at heq hl
    subst heq
    exact ⟨by simp [hl], fun hj => absurd (hl.symm.trans hj) (by simp), by simp, by simp⟩
  · intro y b y' hreach hy _ hs
    exact hy.keeps (ApiInv.reachable hreach) (apiStep_move hs)

end ResultInv

/-- **One initialization succeeds, and one run returns the program's exit code.**  In any order
of calls `croutine_runtime_init` returns `true` at most once, and `croutine_runtime_run` returns
something else than `-1` at most once.  When it has, it was after that initialization; the main
task has finished or the shutdown was requested, and each of the configured workers was started,
has left its loop and was joined. -/
theorem run_result_is_final {backend : Backend} {x : Api} (h : (api backend).Reach x) :
    x.returned.count (.init true) ≤ 1 ∧ x.returned.countP Returned.genuine ≤ 1 ∧
      ∀ code, code ≠ -1 → .ran code ∈ x.returned →
        .init true ∈ x.returned ∧ x.sys.mainFinished = true ∧
          ∀ w < x.runtimeWorkerCount, x.sys.wk.pc w = .exited ∧
            x.account.held (.thread w) = false := by
  have hres := ResultInv.reachable h
  have hinv := ApiInv.reachable h
  refine ⟨?_, ?_, fun code hne hmem => ?_⟩
  · rw [hres.inits]
    split <;> omega
  · refine Nat.le_trans hres.runs ?_
    split <;> omega
  · have hpos : 0 < x.returned.countP Returned.genuine :=
      List.countP_pos_iff.mpr ⟨_, hmem, by simpa [Returned.genuine] using hne⟩
    have hpast : x.sys.life.pastRun = true := by
      by_contra hl
      rw [hres.none_before (by simpa using hl)] at hpos
      exact absurd hpos (Nat.lt_irrefl 0)
    obtain ⟨hmain, hexited⟩ := hres.genuine hpos
    refine ⟨List.count_pos_iff.mp ?_, hmain, fun w hw => ⟨hexited w hw, ?_⟩⟩
    · rw [hres.inits, if_neg]
      · exact Nat.one_pos
      · intro hl
        rw [hl] at hpast
        exact absurd hpast (by simp [Lifecycle.pastRun])
    · have hidle : x.sys.life.working = false := by
        cases hl : x.sys.life <;> rw [hl] at hpast <;>
          first | rfl | exact absurd hpast (by simp [Lifecycle.pastRun])
      rw [hinv.account.held]
      simp [Api.holds, (hinv.idle_workers hidle).2]

/-- The main task of a program with one worker sets the exit code 7 and returns. -/
def exitsWithSeven : List ApiAction :=
  [.init (some ⟨1, 0⟩) 8 .fine, .run true, .act (.spawnAlloc .runtime (.plain true)),
    .act (.spawnPublish .runtime 0 .calm), .allocWorkers true .calm, .createWorker true .calm] ++
  (dispatchOn 0).map ApiAction.act ++ [.setExitCode 7] ++
  [.taskReturn 0, .finishMain 0, .finishSched 0, .pollerWake (.worker 0), .switchOut 0,
    .rereadShutdown 0, .cleanup 0, .loop 0].map ApiAction.act ++ [.waitForMain, .joinWorkers]

theorem run_result_is_final_exits_with_seven :
    ∃ x, (api .epoll).Reach x ∧ .ran 7 ∈ x.returned ∧ x.runtimeWorkerCount = 1 ∧
      x.sys.wk.pc 0 = .exited := by
  have hreach : (api .epoll).Reach ((api .epoll).after { sys := small 1 } exitsWithSeven) :=
    Machine.reach_after ⟨small_init 1 (by decide), rfl⟩ (by decide +kernel)
  have hmem : .ran 7 ∈ ((api .epoll).after { sys := small 1 } exitsWithSeven).returned := by
    decide +kernel
  have hcount : ((api .epoll).after { sys := small 1 } exitsWithSeven).runtimeWorkerCount = 1 := by
    decide +kernel
  have hfinal := ((run_result_is_final hreach).2.2 7 (by decide) hmem).2.2
  exact ⟨_, hreach, hmem, hcount, (hfinal 0 (by rw [hcount]; exact Nat.one_pos)).1⟩

end Croutine
