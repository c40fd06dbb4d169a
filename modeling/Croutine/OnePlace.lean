import Croutine.WaitInv

/-!
# A task is in one place

While the scheduler lock is free, a task that was published and not freed is in the
hands of one worker, in the run queue, recorded in the I/O wait table, or parked on
channels, and only in one of these.  A worker that takes a task from the run queue finds
its registers saved: the park or yield before published the task only after
`context_switch`, or kept the lock until then.
-/

namespace Croutine

/-- Where a published task can be while the lock is free. -/
inductive Spot where
  | executing
  | runnable
  | waitingIo
  | parked
  deriving DecidableEq

def Sys.isAt (s : Sys) (t : TaskId) : Spot → Prop
  | .executing => ∃ w, (s.wk.pc w).holds = some t
  | .runnable => t ∈ s.runq.tasks
  | .waitingIo => ∃ fd d, s.io.slot fd d = some t
  | .parked => (s.tasks t).state = .waitingChannel ∧
    ∃ x c op, x ∈ s.ch.queue c op ∧ (s.ch.waiter x).task = t ∧ s.ch.live x = true

/-- A task parked on channels has a live waiter in a queue. -/
theorem WaitInv.parked_waiter {κ : Chans} {tasks : TaskId → Task} {t : TaskId}
    (h : WaitInv κ tasks) (hstate : (tasks t).state = .waitingChannel) :
    ∃ x c op, x ∈ κ.queue c op ∧ (κ.waiter x).task = t ∧ κ.live x = true := by
  have hparked := h.parked t hstate
  -- any linked waiter of the call will do
  have hfound : ∃ x, (κ.waiter x).channel ≠ none ∧ (tasks t).frame.call = some x.call := by
    cases hf : (tasks t).frame with
    | user | ioWait => rw [hf] at hparked; exact hparked.elim
    | single op call c parked =>
        rw [hf] at hparked
        cases parked with
        | false => exact hparked.elim
        | true =>
            have hlink : (κ.waiter ⟨call, 0⟩).channel = some c := hparked
            exact ⟨⟨call, 0⟩, by rw [hlink]; simp, rfl⟩
    | select call cases parked =>
        rw [hf] at hparked
        cases parked with
        | false => exact hparked.elim
        | true =>
            obtain ⟨_, ⟨cs, hcs, hsome⟩, hall⟩ := hparked
            obtain ⟨i, hget⟩ := List.mem_iff_getElem?.mp hcs
            refine ⟨⟨call, i⟩, ?_, rfl⟩
            rw [hall i cs hget]
            intro habs
            rw [habs] at hsome
            exact absurd hsome (by simp)
  obtain ⟨x, hlink, hcall⟩ := hfound
  obtain ⟨c, hc⟩ := Option.ne_none_iff_exists'.mp hlink
  refine ⟨x, c, (κ.waiter x).op.direction, h.linked.mem.mpr ⟨hc, rfl⟩, h.owner_eq hlink hcall, ?_⟩
  by_contra hdead
  exact h.not_dead_of_parked hstate hlink hcall
    (Chans.dead_of_not_live (by simpa using hdead))

namespace TaskInv

variable {s : Sys} {t : TaskId} {loc : TaskId → Place}

/-- A published task that was not freed is in one of four places. -/
theorem place_of_published (hloc : s.Placed loc) (hpub : (s.ledger t).published = true)
    (hfree : (s.ledger t).structFrees = 0) :
    (∃ w, loc t = .exec w) ∨ loc t = .queue ∨ loc t = .io ∨ loc t = .channel := by
  have hat := hloc.taskAt t
  cases hl : loc t with
  | exec w => exact .inl ⟨w, rfl⟩
  | queue => exact .inr (.inl rfl)
  | io => exact .inr (.inr (.inl rfl))
  | channel => exact .inr (.inr (.inr rfl))
  | unborn =>
      rw [hl] at hat
      rw [hat.2] at hpub
      exact absurd hpub (by simp)
  | spawning =>
      rw [hl] at hat
      rw [hat.2.2.2] at hpub
      exact absurd hpub (by simp)
  | freed =>
      rw [hl] at hat
      rw [hat.2.2.object.2] at hfree
      exact absurd hfree (by simp)

/-- The place of a task decides the four questions one can ask about it. -/
theorem isAt_iff (h : TaskInv s) (hwait : WaitInv s.ch s.tasks) (hlock : s.wk.lock = none)
    (hloc : s.Placed loc) (p : Spot) : s.isAt t p ↔
      match p with
      | .executing => ∃ w, loc t = .exec w
      | .runnable => loc t = .queue
      | .waitingIo => loc t = .io
      | .parked => loc t = .channel := by
  have hfree : Placement s.tasks s.ledger s.wk.pc none s.runq.tasks s.spawns s.nextTask loc := by
    rw [← hlock]; exact hloc
  have hat := hloc.taskAt t
  cases p with
  | executing =>
      constructor
      · rintro ⟨w, hw⟩
        exact ⟨w, (hloc.held w t).mp hw⟩
      · rintro ⟨w, hw⟩
        exact ⟨w, (hloc.held w t).mpr hw⟩
  | runnable => exact hloc.queued.mem t
  | waitingIo =>
      constructor
      · rintro ⟨fd, d, hslot⟩
        exact h.place_of_slot hlock hloc hslot
      · intro hl
        have hl : loc t = .io := hl
        rw [hl] at hat
        obtain ⟨d, hd⟩ := h.agree.parked t hat.1.state
        refine ⟨(s.tasks t).ioFd, d, (h.agree.slots _ d t).mpr ⟨hat.1.state, rfl, ?_⟩⟩
        rw [hd, IoEvents.has_put_none]
  | parked =>
      constructor
      · rintro ⟨hstate, _⟩
        rcases hfree.place_of_waiting (t := t) (by rw [hstate]; rfl) with ⟨hio, _⟩ | ⟨_, hl⟩
        · exact absurd (hstate.symm.trans hio) (by simp)
        · exact hl
      · intro hl
        have hl : loc t = .channel := hl
        rw [hl] at hat
        exact ⟨hat.1.state, hwait.parked_waiter hat.1.state⟩

end TaskInv

/-- **A task is in exactly one place, and is resumed only with its registers saved.** -/
theorem task_in_one_place {backend : Backend} {s : Sys} (hreach : (runtime backend).Reach s)
    (hlife : s.life ≠ .down) :
    (s.wk.lock = none → ∀ t, (s.ledger t).published = true → (s.ledger t).structFrees = 0 →
      (∃! p, s.isAt t p) ∧
      (∀ w v, (s.wk.pc w).holds = some t → (s.wk.pc v).holds = some t → w = v) ∧
      (t ∈ s.runq.tasks → s.runq.tasks.count t = 1) ∧
      ((s.tasks t).queued = true ↔ t ∈ s.runq.tasks)) ∧
    (∀ t ∈ s.runq.tasks, (s.tasks t).contextSaved = true) ∧
    ∀ w t, s.wk.pc w = .dispatched t → (s.tasks t).contextSaved = true := by
  have htask := TaskInv.reach hreach hlife
  have hwait := WaitInv.reach hreach
  obtain ⟨loc, hloc⟩ := htask.placed
  refine ⟨?_, ?_, ?_⟩
  · intro hlock t hpub hfree
    have hplace := TaskInv.place_of_published hloc hpub hfree
    have hiff := fun p => htask.isAt_iff (t := t) hwait hlock hloc p
    refine ⟨?_, ?_, ?_, ?_⟩
    · rcases hplace with ⟨w, hl⟩ | hl | hl | hl
      · refine ⟨.executing, (hiff .executing).mpr ⟨w, hl⟩, fun q hq => ?_⟩
        have := (hiff q).mp hq
        cases q <;> simp_all
      · refine ⟨.runnable, (hiff .runnable).mpr hl, fun q hq => ?_⟩
        have := (hiff q).mp hq
        cases q <;> simp_all
      · refine ⟨.waitingIo, (hiff .waitingIo).mpr hl, fun q hq => ?_⟩
        have := (hiff q).mp hq
        cases q <;> simp_all
      · refine ⟨.parked, (hiff .parked).mpr hl, fun q hq => ?_⟩
        have := (hiff q).mp hq
        cases q <;> simp_all
    · intro w v hw hv
      exact Place.exec_injective (((hloc.held w t).mp hw).symm.trans ((hloc.held v t).mp hv))
    · intro hmem
      exact List.count_eq_one_of_mem hloc.queued.nodup hmem
    · rw [hloc.queued.mem t]
      have hat := hloc.taskAt t
      rcases hplace with ⟨w, hl⟩ | hl | hl | hl <;> rw [hl] at hat ⊢
      · simp [hat.1]
      · simp [hat.1.queued]
      · simp [hat.1.queued]
      · simp [hat.1.queued]
  · intro t ht
    have hat := hloc.taskAt t
    rw [(hloc.queued.mem t).mp ht] at hat
    exact hat.1.saved
  · intro w t hpc
    exact (htask.fits hpc).2

/-- The main task is parked on a channel, another task is runnable, and a worker sleeps. -/
theorem task_in_one_place_parked :
    ∃ s, (runtime .epoll).Reach s ∧ s.wk.lock = none ∧ (s.wk.pc 2).unsignalled = true ∧
      (s.isAt 0 .parked ∧ ∃! p, s.isAt 0 p) ∧ s.isAt 1 .runnable ∧ ∃! p, s.isAt 1 p := by
  have hreach : (runtime .epoll).Reach ((runtime .epoll).after (small 3) spawnBesideSleepers) :=
    Machine.reach_after (small_init 3 (by decide)) (by decide)
  have hone := (task_in_one_place hreach (by decide)).1 (by decide)
  have hparked : ((runtime .epoll).after (small 3) spawnBesideSleepers).isAt 0 .parked :=
    ⟨by decide, ⟨0, 0⟩, 0, .recv, by decide, by decide, by decide⟩
  refine ⟨_, hreach, by decide, by decide,
    ⟨hparked, (hone 0 (by decide) (by decide)).1⟩, ?_, (hone 1 (by decide) (by decide)).1⟩
  show 1 ∈ ((runtime .epoll).after (small 3) spawnBesideSleepers).runq.tasks
  decide

end Croutine
