import Croutine.Lib.Since
import Croutine.TaskMoves

/-!
# How a wait for readiness ends

`worker_park_current_on_io` comes back with `CROUTINE_IO_WAIT_READY` or
`CROUTINE_IO_WAIT_CLOSED` long after it was called, possibly on another worker.  What it
returns is one flag in the task, stored by whoever took the task out of the wait table.  Here
the history of the wait is read off the run: when the task parked, that it waited for the same
direction of the same descriptor ever since, which step ended the wait, and that nothing
touched the outcome before the task came back.
-/

namespace Croutine

/-- Task `t` calls `croutine_io_wait_readable` or `croutine_io_wait_writable`. -/
def CallsWait (t : TaskId) (fd : Int) (d : Filter) (s : Sys) (a : Action) : Prop :=
  ∃ w o, a = .waitIo w fd d o ∧ s.wk.pc w = .running t ∧ (s.tasks t).frame = .user

/-- The task parked on a direction of a descriptor and has been waiting for it ever since. -/
def WaitingSince (backend : Backend) (s₀ : Sys) (t : TaskId) (fd : Int) (d : Filter) :
    List Action → Sys → Prop :=
  (runtime backend).Since s₀ (fun _ => CallsWait t fd d) fun s => (s.tasks t).WaitsFor fd d

/-- The action ends a wait: the batch of a worker back from the poller announces the
direction, or the descriptor is forgotten. -/
inductive EndsWait (s : Sys) (fd : Int) (d : Filter) : Action → Bool → Prop
  | ready {w : WorkerId} {o : Oracle} {events : List PollEvent}
      (hpc : s.wk.pc w = .filtered events) (hann : Announces events fd d) :
      EndsWait s fd d (.pollReturn w o) true
  | forgotten {θ : Thread} {o : Oracle} : EndsWait s fd d (.forgetFd θ fd o) false

/-- The task is inside `worker_park_current_on_io` and waits no more. -/
def Task.Woken (τ : Task) (success : Bool) : Prop :=
  τ.frame = .ioWait ∧ τ.ioWakeSuccess = success ∧ ∀ fd d, ¬τ.WaitsFor fd d

/-- The task waited for a direction of a descriptor until an action ended the wait with this
outcome, which nothing changed since. -/
def WaitEnded (backend : Backend) (s₀ : Sys) (t : TaskId) (fd : Int) (d : Filter)
    (success : Bool) : List Action → Sys → Prop :=
  (runtime backend).Since s₀
    (fun l s a => WaitingSince backend s₀ t fd d l s ∧ (s.tasks t).WaitsFor fd d ∧
      EndsWait s fd d a success)
    fun s => (s.tasks t).Woken success

/-- What a run says about a task inside `worker_park_current_on_io`. -/
def WaitTold (backend : Backend) (s₀ : Sys) (t : TaskId) (l : List Action) (s : Sys) : Prop :=
  (s.tasks t).hasStack = true → (s.tasks t).frame = .ioWait →
    (∃ fd d, (s.tasks t).WaitsFor fd d ∧ WaitingSince backend s₀ t fd d l s) ∨
    ∃ fd d success, (s.tasks t).Woken success ∧ WaitEnded backend s₀ t fd d success l s

variable {backend : Backend} {s₀ s s' : Sys} {t : TaskId} {l : List Action} {a : Action}

/-- A record that says the same about the wait. -/
theorem Task.Kept.woken {τ τ' : Task} {success : Bool} (h : τ.Kept τ')
    (hw : τ.Woken success) : τ'.Woken success :=
  ⟨h.frame.trans hw.1, h.outcome.trans hw.2.1, fun fd d hd => hw.2.2 fd d ((h.waits fd d).mp hd)⟩

/-- A task whose wait has just ended. -/
theorem Task.requeued_woken {τ : Task} (hframe : τ.frame = .ioWait) (success : Bool) :
    Task.Woken { τ.requeued with ioWakeSuccess := success } success :=
  ⟨hframe, rfl, fun _ _ hw => absurd hw.1 (by simp [Task.requeued])⟩

/-- The step that ends a wait. -/
theorem WaitTold.ends (h : WaitTold backend s₀ t l s) (hreach : (runtime backend).Reach s)
    (hrun : (runtime backend).run s₀ l = .ok s) (hstep : step s a = .ok s') {fd : Int}
    {d : Filter} {success : Bool} (hwaits : (s.tasks t).WaitsFor fd d)
    (hends : EndsWait s fd d a success)
    (hkept : Task.Kept { (s.tasks t).requeued with ioWakeSuccess := success } (s'.tasks t)) :
    WaitTold backend s₀ t (l ++ [a]) s' := by
  intro hstack hframe
  have hframe' : (s.tasks t).frame = .ioWait := hkept.frame.symm.trans hframe
  rcases h (hkept.hasStack.symm.trans hstack) hframe' with ⟨g, e, hw, hsince⟩ | ⟨_, _, _, hw, _⟩
  · obtain ⟨rfl, rfl⟩ := (IoInv.reach hreach).agree.waitsFor_unique hwaits hw
    exact .inr ⟨fd, d, success, hkept.woken (Task.requeued_woken hframe' success),
      .start hrun ⟨hsince, hwaits, hends⟩ hstep⟩
  · exact absurd hwaits (hw.2.2 fd d)

/-- **Told waits, step.** A step keeps what the waits of a task were told. -/
theorem WaitTold.next (h : WaitTold backend s₀ t l s) (hreach : (runtime backend).Reach s)
    (hrun : (runtime backend).run s₀ l = .ok s) (hstep : step s a = .ok s') :
    WaitTold backend s₀ t (l ++ [a]) s' := by
  have hmove := step_taskMoved hreach hstep t
  generalize hτ : s.tasks t = τ at hmove
  generalize hτ' : s'.tasks t = τ' at hmove
  cases hmove with
  | kept hk =>
      subst hτ hτ'
      intro hstack hframe
      rcases h (hk.hasStack.symm.trans hstack) (hk.frame.symm.trans hframe) with
        ⟨fd, d, hw, hsince⟩ | ⟨fd, d, success, hw, hended⟩
      · exact .inl ⟨fd, d, (hk.waits fd d).mpr hw, hsince.next hw hstep⟩
      · exact .inr ⟨fd, d, success, hk.woken hw, hended.next hw hstep⟩
  | born hnew huser =>
      intro _ hframe
      rw [hτ', huser] at hframe
      exact absurd hframe (by simp)
  | @parkIo w fd d o _ _ hpc huser hcall hwaits =>
      intro _ _
      refine .inl ⟨fd, d, hτ' ▸ hwaits, .start hrun ⟨w, o, rfl, hpc, ?_⟩ hstep⟩
      rw [hτ]
      exact huser
  | enters hpc ha huser hcall =>
      intro _ hframe
      rw [hτ'] at hframe
      exact absurd (by rw [hframe]; rfl) hcall
  | returns hpc huser =>
      intro _ hframe
      rw [hτ', huser] at hframe
      exact absurd hframe (by simp)
  | ready hpc hann hwaits hk =>
      subst hτ hτ'
      exact h.ends hreach hrun hstep hwaits (.ready hpc hann) hk
  | forgotten hwaits hk =>
      subst hτ hτ'
      exact h.ends hreach hrun hstep hwaits .forgotten hk
  | freed hfreed =>
      intro hstack _
      rw [hτ', hfreed] at hstack
      exact absurd hstack (by simp)

/-- **Told waits, run.** In every run the waits of a task were told what the record says. -/
theorem WaitTold.run (hinit : (runtime backend).init s₀) (t : TaskId) :
    ∀ {s : Sys}, (runtime backend).run s₀ l = .ok s → WaitTold backend s₀ t l s := by
  induction l using List.reverseRecOn with
  | nil =>
      intro s hrun _ hframe
      obtain rfl := Except.ok.inj hrun
      obtain ⟨wakeFd, workers, runCapacity, ioCapacity, _, _, rfl⟩ := hinit
      exact absurd hframe (by simp [initial])
  | append_singleton l a ih =>
      intro s hrun
      obtain ⟨s1, hs1, hstep⟩ := Machine.run_concat_ok hrun
      exact (ih hs1).next (.run l (.init hinit) (fun _ _ _ => trivial) hs1) hs1 hstep

/-- **A wait ends for the reason it reports.**  In every run, when a task comes back in
`worker_park_current_on_io`, on whichever worker, the run shows its wait: the task parked on a
direction of a descriptor, waited for it without a break, and one step ended the wait.  The
call returns `CROUTINE_IO_WAIT_READY` exactly if that step was the return of a worker from the
poller with a batch that announces this direction of this descriptor, and
`CROUTINE_IO_WAIT_CLOSED` if it was a `croutine_io_forget_fd` of the descriptor. -/
theorem wait_ends_as_reported {w : WorkerId} (hinit : (runtime backend).init s₀)
    (hrun : (runtime backend).run s₀ l = .ok s) (hpc : s.wk.pc w = .running t)
    (hframe : (s.tasks t).frame = .ioWait) :
    ∃ fd d, WaitEnded backend s₀ t fd d (s.tasks t).ioWakeSuccess l s := by
  have hreach : (runtime backend).Reach s := .run l (.init hinit) (fun _ _ _ => trivial) hrun
  have hdown : s.life ≠ .down := fun hdown => (LifeInv.reach hreach).down_dead hdown hpc rfl
  have htask := TaskInv.reach hreach hdown
  have hrunnable : (s.tasks t).state = .runnable := (htask.fits hpc).1
  have hstack : (s.tasks t).hasStack = true := by
    obtain ⟨loc, hloc⟩ := htask.placed
    have hexec : loc t = .exec w := (hloc.held w t).mp (congrArg Pc.holds hpc)
    have hat := hloc.taskAt t
    rw [hexec] at hat
    exact hat.2.1.hasStack
  rcases WaitTold.run hinit t hrun hstack hframe with ⟨fd, d, hw, _⟩ | ⟨fd, d, success, hw, hended⟩
  · exact absurd (hrunnable.symm.trans hw.1) (by simp)
  · rw [hw.2.1]
    exact ⟨fd, d, hended⟩

/-- The main task parks on worker 0, its descriptor becomes readable, and worker 1 resumes it. -/
def readableWait : List Action :=
  startUp 2 ++ dispatchOn 0 ++ [.waitIo 0 5 .read .calm] ++ resumedElsewhere

theorem wait_ends_as_reported_readable :
    ∃ s, (runtime .epoll).run (small 2) readableWait = .ok s ∧ s.wk.pc 1 = .running 0 ∧
      (s.tasks 0).frame = .ioWait ∧ (s.tasks 0).ioWakeSuccess = true ∧
      ∃ fd d, WaitEnded .epoll (small 2) 0 fd d true readableWait s := by
  have hrun : (runtime .epoll).run (small 2) readableWait =
      .ok ((runtime .epoll).after (small 2) readableWait) :=
    Machine.run_eq_after (by decide +kernel)
  have hpc : ((runtime .epoll).after (small 2) readableWait).wk.pc 1 = .running 0 := by
    decide +kernel
  have hframe : (((runtime .epoll).after (small 2) readableWait).tasks 0).frame = .ioWait := by
    decide +kernel
  have hready : (((runtime .epoll).after (small 2) readableWait).tasks 0).ioWakeSuccess = true := by
    decide +kernel
  refine ⟨_, hrun, hpc, hframe, hready, ?_⟩
  rw [← hready]
  exact wait_ends_as_reported (small_init 2 (by decide)) hrun hpc hframe

end Croutine
