import Croutine.Periods
import Croutine.TaskSteps

/-!
# Waiting for readiness

What the wait table, the tasks and the poller say about the same wait, and which
kernel events can wake a task.

A batch of events is collected by the kernel, filtered against the generations under
the lock of the fd table, and applied later under the scheduler lock, by descriptor
number only.  `Periods` follows a batch through these stages.  The filter and every
change of a registration keep it, except one: a registration that begins while a
worker still carries a filtered event for the same number.
-/

namespace Croutine

/-! ## Three records of one wait -/

/-- The entry in use at a descriptor is what the table has for it. -/
theorem IoAgree.slot_used {tasks : TaskId → Task} {table : IoWaitTable}
    (h : IoAgree tasks table) {e : IoWaitEntry} (he : e ∈ table.used) (d : Filter) :
    table.slot e.fd d = e.slot d := by
  have hlook := h.valid.lookup_eq_some_iff.mpr ⟨he, rfl⟩
  unfold IoWaitTable.slot
  rw [hlook]
  rfl

/-- **Wait table, wait records and poller agree** in every reachable state.  Inside
`worker_deinit` the table is emptied before the poller is closed. -/
theorem io_records_agree {backend : Backend} {s : Sys} (h : (runtime backend).Reach s) :
    ((s.io.used.map (·.fd)).Nodup ∧ s.io.count = s.io.used.length ∧
      ∀ e ∈ s.io.used, ∃ d t, e.slot d = some t ∧ (s.tasks t).state = .waitingIo) ∧
    (s.life ≠ .drained → ∀ fd, s.poller.Watches fd (s.io.events fd)) ∧
    ∀ fd d t, (∃ e ∈ s.io.used, e.fd = fd ∧ e.slot d = some t) ↔
      (s.tasks t).WaitsFor fd d := by
  obtain ⟨hagree, hwatch, _⟩ := IoInv.reach h
  refine ⟨⟨?_, ?_, ?_⟩, hwatch, ?_⟩
  · unfold List.Nodup IoWaitTable.used
    rw [List.pairwise_map, List.pairwise_filter]
    exact hagree.valid.keyed.imp fun hne ha hb => hne ha hb
  · rw [hagree.valid.counted, List.countP_eq_length_filter]
    rfl
  · intro e he
    have hbusy := hagree.busy e.fd e (hagree.valid.lookup_eq_some_iff.mpr ⟨he, rfl⟩)
    rw [ne_eq, ioWaitEntryEvents_eq_none_iff, not_forall] at hbusy
    obtain ⟨d, hd⟩ := hbusy
    obtain ⟨t, ht⟩ := Option.ne_none_iff_exists'.mp hd
    have hwaits := (hagree.slots e.fd d t).mp ((hagree.slot_used he d).trans ht)
    exact ⟨d, t, ht, hwaits.1⟩
  · intro fd d t
    rw [← hagree.slots fd d t]
    constructor
    · intro hex
      obtain ⟨e, he, hfd, ht⟩ := hex
      rw [← hfd, hagree.slot_used he d]
      exact ht
    · intro ht
      unfold IoWaitTable.slot at ht
      obtain ⟨e, hlook, hd⟩ := Option.bind_eq_some_iff.mp ht
      obtain ⟨he, hfd⟩ := hagree.valid.lookup_eq_some_iff.mp hlook
      exact ⟨e, he, hfd, hd⟩

/-- The main task waits for descriptor 5 to become readable. -/
def parkedOnFd : List Action :=
  startUp 1 ++ dispatchOn 0 ++ [.waitIo 0 5 .read .calm] ++ handOver 0

theorem io_records_agree_parked :
    ∃ s, (runtime .epoll).Reach s ∧ s.wk.lock = none ∧ (s.tasks 0).WaitsFor 5 .read ∧
      ∃ e ∈ s.io.used, e.fd = 5 ∧ e.slot .read = some 0 := by
  have hreach : (runtime .epoll).Reach ((runtime .epoll).after (small 1) parkedOnFd) :=
    Machine.reach_after (small_init 1 (by decide)) (by decide)
  have hwaits : (((runtime .epoll).after (small 1) parkedOnFd).tasks 0).WaitsFor 5 .read :=
    ⟨by decide, by decide, by decide⟩
  exact ⟨_, hreach, by decide, hwaits, ((io_records_agree hreach).2.2 5 .read 0).mpr hwaits⟩

/-! ## Batches of events -/

/-- The worker carries no events. -/
def Pc.eventless : Pc → Bool
  | .polled _ | .filtered _ => false
  | _ => true

structure Periods (tasks : TaskId → Task) (p : Poller) (pc : WorkerId → Pc) : Prop where
  registered : Registered p
  parked : ∀ t r, (tasks t).state = .waitingIo → p.interest (tasks t).ioFd = some r →
    (tasks t).ioPeriod = r.period
  polled : ∀ w raw, pc w = .polled raw → ∀ x ∈ raw, x.Known p
  filtered : ∀ w events, pc w = .filtered events → ∀ e ∈ events, e.Current p

/-- At least `2 ^ 32` changes of the descriptor's generation have been made since the
event's period began. -/
def RawEvent.wrapped (p : Poller) : RawEvent → Bool
  | .epoll token _ period =>
    token ≠ wakeToken ∧ p.began period + 2 ^ 32 ≤ p.bumps (tokenFd token).toNat
  | .kevent _ _ _ _ => false

/-- A task that waits for I/O afterwards waited before, in the same period. -/
def KeepsWaits (tasks tasks' : TaskId → Task) : Prop :=
  ∀ t, (tasks' t).state = .waitingIo → (tasks t).state = .waitingIo ∧
    (tasks' t).ioFd = (tasks t).ioFd ∧ (tasks' t).ioPeriod = (tasks t).ioPeriod

/-- Workers carry the events they carried before, or none. -/
def KeepsEvents (pc pc' : WorkerId → Pc) : Prop :=
  ∀ w, pc' w = pc w ∨ (pc' w).eventless = true

namespace KeepsWaits

variable {tasks tasks' tasks'' : TaskId → Task} {t : TaskId} {τ : Task}

theorem refl (tasks : TaskId → Task) : KeepsWaits tasks tasks := fun _ hw => ⟨hw, rfl, rfl⟩

theorem trans (h : KeepsWaits tasks tasks') (h' : KeepsWaits tasks' tasks'') :
    KeepsWaits tasks tasks'' := by
  intro t hw
  obtain ⟨hw', hfd', hperiod'⟩ := h' t hw
  obtain ⟨hw, hfd, hperiod⟩ := h t hw'
  exact ⟨hw, hfd'.trans hfd, hperiod'.trans hperiod⟩

/-- One task is written; if it waits for I/O, it waited before in the same period. -/
theorem update (hstate : τ.state = .waitingIo → (tasks t).state = .waitingIo ∧
    τ.ioFd = (tasks t).ioFd ∧ τ.ioPeriod = (tasks t).ioPeriod) :
    KeepsWaits tasks (Function.update tasks t τ) := by
  intro u hw
  by_cases hu : u = t
  · subst hu
    rw [Function.update_self] at hw ⊢
    exact hstate hw
  · rw [Function.update_of_ne hu] at hw ⊢
    exact ⟨hw, rfl, rfl⟩

/-- The task does not wait for I/O afterwards. -/
theorem awake (hstate : τ.state ≠ .waitingIo) : KeepsWaits tasks (Function.update tasks t τ) :=
  update fun hw => absurd hw hstate

/-- Another field of the task changes. -/
theorem same (hstate : τ.state = (tasks t).state) (hfd : τ.ioFd = (tasks t).ioFd)
    (hperiod : τ.ioPeriod = (tasks t).ioPeriod) :
    KeepsWaits tasks (Function.update tasks t τ) :=
  update fun hw => ⟨hstate.symm.trans hw, hfd, hperiod⟩

end KeepsWaits

namespace KeepsEvents

variable {pc pc' pc'' : WorkerId → Pc} {w : WorkerId} {p : Pc}

theorem refl (pc : WorkerId → Pc) : KeepsEvents pc pc := fun _ => .inl rfl

theorem trans (h : KeepsEvents pc pc') (h' : KeepsEvents pc' pc'') : KeepsEvents pc pc'' := by
  intro w
  rcases h' w with heq | hnone
  · rw [heq]
    exact h w
  · exact .inr hnone

/-- One worker is moved to where it carries no events. -/
theorem update (hp : p.eventless = true) : KeepsEvents pc (Function.update pc w p) := by
  intro v
  by_cases hv : v = w
  · subst hv
    exact .inr (by rw [Function.update_self]; exact hp)
  · exact .inl (Function.update_of_ne hv p pc)

end KeepsEvents

/-- A signal does not touch the events that workers carry. -/
theorem Signals.keepsEvents {wk wk' : Workers} (h : Signals wk wk') :
    KeepsEvents wk.pc wk'.pc := by
  intro w
  rcases h w with heq | heq
  · exact .inl heq
  · rw [heq]
    cases hpc : wk.pc w with
    | condWait signalled checked => exact .inr rfl
    | _ => exact .inl rfl

/-- What `mapM` returns comes from the list. -/
theorem mem_of_mapM {α β : Type} {f : α → Option β} :
    ∀ {l : List α} {l' : List β}, l.mapM f = some l' → ∀ x ∈ l', ∃ y ∈ l, f y = some x := by
  intro l
  induction l with
  | nil =>
      intro l' h x hx
      cases Option.some.inj h
      exact absurd hx (by simp)
  | cons a rest ih =>
      intro l' h x hx
      rw [List.mapM_cons] at h
      obtain ⟨b, hb, h⟩ := Option.bind_eq_some_iff.mp h
      obtain ⟨bs, hbs, h⟩ := Option.bind_eq_some_iff.mp h
      cases Option.some.inj h
      rcases List.mem_cons.mp hx with rfl | hx
      · exact ⟨a, List.mem_cons_self, hb⟩
      · obtain ⟨y, hy, hfy⟩ := ih hbs x hx
        exact ⟨y, List.mem_cons_of_mem _ hy, hfy⟩

namespace Periods

variable {tasks tasks' : TaskId → Task} {p q : Poller} {pc pc' : WorkerId → Pc} {fd : Int}
  {w : WorkerId} {t : TaskId}

/-- No registration changes. -/
theorem mono (h : Periods tasks p pc) (htasks : KeepsWaits tasks tasks')
    (hpc : KeepsEvents pc pc') : Periods tasks' p pc' := by
  have hcarry : ∀ {w : WorkerId} {x : Pc}, pc' w = x → x.eventless = false → pc w = x := by
    intro w x hx hcarries
    rcases hpc w with heq | hnone
    · exact heq.symm.trans hx
    · rw [hx, hcarries] at hnone
      exact absurd hnone (by simp)
  refine ⟨h.registered, ?_, ?_, ?_⟩
  · intro t r hw hr
    obtain ⟨hw', hfd, hperiod⟩ := htasks t hw
    rw [hfd] at hr
    rw [hperiod]
    exact h.parked t r hw' hr
  · intro w raw hraw
    exact h.polled w raw (hcarry hraw rfl)
  · intro w events hevents
    exact h.filtered w events (hcarry hevents rfl)

/-- A registration changes that does not begin, or begins with no event for its
descriptor under way and no task waiting for it. -/
theorem epollSet {old new : IoEvents} {ok : Bool} (h : Periods tasks p pc)
    (hset : EpollSet p fd old new q ok) (hlt : fd < 2 ^ 31)
    (hfree : old = .none → p.interest fd = none)
    (hidle : old = .none → ∀ t, (tasks t).state = .waitingIo → (tasks t).ioFd ≠ fd)
    (hpending : old = .none → p.interest fd = none → ∀ w events, pc w = .filtered events →
      ∀ e ∈ events, e.fd ≠ fd) : Periods tasks q pc := by
  refine ⟨h.registered.epollSet hlt hset hfree, ?_, ?_, ?_⟩
  · intro t r hw hr
    rcases hset.period hr with ⟨hfd, hold, _⟩ | ⟨r', hr', heq⟩
    · exact absurd hfd (hidle hold t hw)
    · rw [h.parked t r' hw hr', heq]
  · intro w raw hraw x hx
    exact (h.polled w raw hraw x hx).later hset.later
  · intro w events hevents e he r hr
    rcases hset.period hr with ⟨hfd, hold, hnone, _⟩ | ⟨r', hr', heq⟩
    · exact absurd hfd (hpending hold hnone w events hevents e he)
    · rw [← heq]
      exact h.filtered w events hevents e he r' hr'

/-- A task parks on a descriptor in the period the poller has for it. -/
theorem park {τ : Task} (h : Periods tasks p pc)
    (hperiod : ∀ r, p.interest τ.ioFd = some r → τ.ioPeriod = r.period)
    (hpc : KeepsEvents pc pc') : Periods (Function.update tasks t τ) p pc' := by
  have h' := h.mono (.refl tasks) hpc
  refine ⟨h'.registered, ?_, h'.polled, h'.filtered⟩
  intro u r hw hr
  by_cases hu : u = t
  · subst hu
    rw [Function.update_self] at hr ⊢
    exact hperiod r hr
  · rw [Function.update_of_ne hu] at hw hr ⊢
    exact h.parked u r hw hr

/-- The kernel hands a batch to a worker. -/
theorem receive {wakePending : Bool} {batch : List Reported} {raw : List RawEvent}
    (h : Periods tasks p pc) (hbatch : batch.mapM (p.report wakePending) = some raw) :
    Periods tasks p (Function.update pc w (.polled raw)) := by
  refine ⟨h.registered, h.parked, ?_, ?_⟩
  · intro v raw' hraw x hx
    by_cases hv : v = w
    · subst hv
      rw [Function.update_self] at hraw
      cases hraw
      obtain ⟨y, _, hy⟩ := mem_of_mapM hbatch x hx
      exact h.registered.report hy
    · rw [Function.update_of_ne hv] at hraw
      exact h.polled v raw' hraw x hx
  · intro v events hevents
    by_cases hv : v = w
    · subst hv
      rw [Function.update_self] at hevents
      exact absurd hevents (by simp)
    · rw [Function.update_of_ne hv] at hevents
      exact h.filtered v events hevents

/-- A batch passes the filter. -/
theorem filter {raw : List RawEvent} (h : Periods tasks p pc) (hpc : pc w = .polled raw)
    (hwrap : ∀ x ∈ raw, x.wrapped p = false) :
    Periods tasks p (Function.update pc w (.filtered (pollerTranslate p [] raw))) := by
  refine ⟨h.registered, h.parked, ?_, ?_⟩
  · intro v raw' hraw
    by_cases hv : v = w
    · subst hv
      rw [Function.update_self] at hraw
      exact absurd hraw (by simp)
    · rw [Function.update_of_ne hv] at hraw
      exact h.polled v raw' hraw
  · intro v events hevents e he
    by_cases hv : v = w
    · subst hv
      rw [Function.update_self] at hevents
      cases hevents
      have hknown := h.polled v raw hpc
      rcases pollerTranslate_mem raw [] hknown e he with
        habs | ⟨token, mask, period, hx, hne, hsome⟩
      · exact absurd habs (by simp)
      · have hfew := hwrap _ hx
        rw [RawEvent.wrapped, decide_eq_false_iff_not, not_and, Nat.not_le] at hfew
        exact h.registered.translate (hknown _ hx) hne (hfew hne) hsome
    · rw [Function.update_of_ne hv] at hevents
      exact h.filtered v events hevents e he

end Periods

/-! ## Waking and parking -/

/-- Every task that was woken with readiness was woken by an event of the period in
which it had parked. -/
def FreshLog (s : Sys) : Prop := ∀ r ∈ s.readyLog, r.parkPeriod = r.eventPeriod

/-- On epoll the kernel has a registration exactly for what is watched. -/
theorem Poller.Watches.interest_none {p : Poller} {fd : Int} {events : IoEvents}
    (hb : p.backend = .epoll) (h : p.Watches fd events) :
    p.interest fd = none ↔ events = .none := by
  rw [Poller.watches_epoll hb] at h
  by_cases hnone : events = .none
  · rw [if_pos hnone, Option.map_eq_none_iff] at h
    exact ⟨fun _ => hnone, fun _ => h⟩
  · rw [if_neg hnone] at h
    refine ⟨fun habs => ?_, fun habs => absurd habs hnone⟩
    rw [habs] at h
    exact absurd h (by simp)

/-- A descriptor on which a task waits has an entry with events. -/
theorem IoAgree.events_of_waiting {tasks : TaskId → Task} {table : IoWaitTable} {t : TaskId}
    (h : IoAgree tasks table) (ht : (tasks t).state = .waitingIo) :
    table.events (tasks t).ioFd ≠ .none := by
  obtain ⟨d, hd⟩ := h.parked t ht
  have hslot := (h.slots (tasks t).ioFd d t).mpr
    ⟨ht, rfl, by rw [hd, IoEvents.has_put_none]⟩
  intro hnone
  have hhas := (IoEvents.eq_none_iff _).mp hnone d
  rw [IoWaitTable.events_has, hslot] at hhas
  exact absurd hhas (by simp)

/-- The loop over the tasks to wake adds one record per task, when it wakes them with
readiness. -/
theorem wakeIoTasks_log {o : Oracle} {fd : Int} {success : Bool} {period : Nat}
    (l : List TaskId) {s s' : Sys}
    (h : l.foldlM (wakeIoTask o fd success period) s = .ok s') :
    KeepsWaits s.tasks s'.tasks ∧ ∀ r ∈ s'.readyLog, r ∈ s.readyLog ∨
      success = true ∧ ∃ t ∈ l, r = ⟨t, fd, (s.tasks t).ioPeriod, period⟩ := by
  have hall := Res.foldlM_induct_mem (I := fun x : Sys => KeepsWaits s.tasks x.tasks ∧
    (∀ t, (x.tasks t).ioPeriod = (s.tasks t).ioPeriod) ∧
    ∀ r ∈ x.readyLog, r ∈ s.readyLog ∨
      success = true ∧ ∃ t ∈ l, r = ⟨t, fd, (s.tasks t).ioPeriod, period⟩) l ?_
    ⟨.refl _, fun _ => rfl, fun _ hr => .inl hr⟩ h
  · exact ⟨hall.1, hall.2.2⟩
  · intro x t x' ht hx hstep
    obtain ⟨hwaits, hperiod, hlog⟩ := hx
    obtain ⟨cap, _, rfl⟩ := wakeIoTask_ok hstep
    refine ⟨hwaits.trans (.awake (by simp [Task.requeued])), ?_, ?_⟩
    · intro u
      by_cases hu : u = t
      · subst hu
        simpa [Task.requeued] using hperiod u
      · simpa [hu] using hperiod u
    · intro r hr
      by_cases hs : success = true
      · simp only [readyLogged, hs, if_true, List.mem_append, List.mem_singleton] at hr
        rcases hr with hr | hr
        · exact hlog r hr
        · exact .inr ⟨hs, t, ht, by rw [hr, hperiod]⟩
      · simp only [readyLogged, hs, Bool.false_eq_true, if_false] at hr
        exact hlog r hr

/-- What a wake of a descriptor's tasks does to the waits and their periods. -/
structure IoWakeEffect (s : Sys) (fd : Int) (success : Bool) (period : Nat) (s' : Sys) :
    Prop where
  tasks : KeepsWaits s.tasks s'.tasks
  points : Signals s.wk s'.wk
  poller : s'.poller = s.poller ∨ s.io.events fd ≠ .none ∧
    ∃ new, EpollSet s.poller fd (s.io.events fd) new s'.poller true
  log : ∀ r ∈ s'.readyLog, r ∈ s.readyLog ∨ success = true ∧
    (s.tasks r.task).state = .waitingIo ∧ (s.tasks r.task).ioFd = fd ∧
    r.parkPeriod = (s.tasks r.task).ioPeriod ∧ r.eventPeriod = period

/-- **A wake of a descriptor.** It keeps the other waits and logs who was woken in which
period. -/
theorem TaskInv.wakeIo_effect {o : Oracle} {s s' : Sys} {fd : Int} {ready : IoEvents}
    {success : Bool} {period n : Nat} (h : TaskInv s) (hb : s.poller.backend = .epoll)
    (hw : wakeWaitingTasksLocked o s fd ready success period = .ok (s', n)) :
    IoWakeEffect s fd success period s' := by
  rcases wakeWaitingTasksLocked_ok hw with ⟨_, rfl, _⟩ |
    ⟨i, entry, tasks, rest, poller, s1, hfind, hentry, htake, hset, hfold, rfl, _⟩
  · exact ⟨.refl _, fun _ => .inl rfl, .inl rfl, fun _ hr => .inl hr⟩
  · obtain ⟨e, hget, hused, hfd, hlook⟩ := ioWaitTableFind_some h.agree.valid hfind
    have he : entry = e := by rw [hentry, List.getD_eq_getElem?_getD, hget]; rfl
    subst he
    have hevents : s.io.events fd = ioWaitEntryEvents entry := by
      unfold IoWaitTable.events
      rw [hlook]
    have htasks : tasks = (takeReadyTasks entry ready).1 := by rw [htake]
    subst htasks
    obtain ⟨hwaits, hlog⟩ := wakeIoTasks_log _ hfold
    obtain ⟨tasks1, runq1, log1, rfl, _⟩ := wakeIoTasks_frame _ hfold
    have hpoller : s.io.events fd ≠ .none ∧
        ∃ new, EpollSet s.poller fd (s.io.events fd) new poller true := by
      rw [hevents]
      exact ⟨h.agree.busy fd entry hlook, _, croutinePollerSet_epoll hb hset⟩
    have hrecords : ∀ r ∈ log1, r ∈ s.readyLog ∨ success = true ∧
        (s.tasks r.task).state = .waitingIo ∧ (s.tasks r.task).ioFd = fd ∧
        r.parkPeriod = (s.tasks r.task).ioPeriod ∧ r.eventPeriod = period := by
      intro r hr
      rcases hlog r hr with hold | ⟨hs, t, ht, rfl⟩
      · exact .inl hold
      · obtain ⟨d, _, hd⟩ := (takeReadyTasks_mem (h.agree.distinct hlook) t).mp ht
        have hslot : s.io.slot fd d = some t := by
          unfold IoWaitTable.slot
          rw [hlook]
          exact hd
        have hwait := (h.agree.slots fd d t).mp hslot
        exact .inr ⟨hs, hwait.1, hwait.2.1, rfl, rfl⟩
    split
    · exact ⟨hwaits, fun _ => .inl rfl, .inr hpoller, hrecords⟩
    · exact ⟨hwaits, Signals.condBroadcast s.wk, .inr hpoller, hrecords⟩

/-- The periods of a state, and the log of wakes. -/
structure PeriodInv (s : Sys) : Prop where
  periods : Periods s.tasks s.poller s.wk.pc
  fresh : FreshLog s

namespace PeriodInv

variable {s s' : Sys} {w : WorkerId} {t : TaskId}

/-- A wake of a descriptor keeps the invariant, if a wake for readiness is of the current
period. -/
theorem wakeIo {fd : Int} {success : Bool} {period : Nat} (h : PeriodInv s) (ht : TaskInv s)
    (heff : IoWakeEffect s fd success period s')
    (hcurrent : success = true → ∀ r, s.poller.interest fd = some r → r.period = period) :
    PeriodInv s' := by
  have hb := h.periods.registered.backend
  -- a descriptor with an entry is registered
  have hreg : s.io.events fd ≠ .none → ∃ r, s.poller.interest fd = some r := by
    intro hne
    have hnd : s.life ≠ .drained := by
      intro hd
      refine hne ?_
      unfold IoWaitTable.events
      rw [ht.emptied hd fd]
    have hwatch := (ht.watch hnd fd).interest_none hb
    exact Option.ne_none_iff_exists'.mp fun habs => hne (hwatch.mp habs)
  have hbase : Periods s.tasks s'.poller s.wk.pc := by
    rcases heff.poller with heq | ⟨hne, new, hset⟩
    · rw [heq]
      exact h.periods
    · obtain ⟨r, hr⟩ := hreg hne
      exact h.periods.epollSet hset (h.periods.registered.entry fd r hr).1
        (fun habs => absurd habs hne) (fun habs => absurd habs hne) fun habs => absurd habs hne
  refine ⟨hbase.mono heff.tasks heff.points.keepsEvents, ?_⟩
  intro r hr
  rcases heff.log r hr with hold | ⟨hs, hwait, hfd, hpark, hevent⟩
  · exact h.fresh r hold
  · have hne : s.io.events fd ≠ .none := hfd ▸ ht.agree.events_of_waiting hwait
    obtain ⟨x, hx⟩ := hreg hne
    rw [hpark, hevent, h.periods.parked r.task x hwait (by rw [hfd]; exact hx)]
    exact hcurrent hs x hx

/-- A task waits for a descriptor, with no event for it under way if its registration
begins. -/
theorem waitIo {o : Oracle} {fd : Int} {direction : Filter} (h : PeriodInv s) (ht : TaskInv s)
    (hnd : s.life ≠ .drained) (hint : isInt fd = true)
    (hsafe : s.poller.interest fd = none → ∀ w events, s.wk.pc w = .filtered events →
      ∀ e ∈ events, e.fd ≠ fd) :
    PeriodInv (workerParkCurrentOnIo o s w t fd (IoEvents.none.put direction true)) := by
  have hb := h.periods.registered.backend
  have hlt : fd < 2 ^ 31 := by
    simp only [isInt, Bool.and_eq_true, decide_eq_true_eq] at hint
    exact hint.2
  have hwatch := (ht.watch hnd fd).interest_none hb
  have hidle : s.io.events fd = .none →
      ∀ u, (s.tasks u).state = .waitingIo → (s.tasks u).ioFd ≠ fd := by
    intro hnone u hu hfd
    exact ht.agree.events_of_waiting hu (hfd ▸ hnone)
  have hpark := workerParkCurrentOnIo_cases ht.agree o w t fd direction
  generalize workerParkCurrentOnIo o s w t fd (IoEvents.none.put direction true) = x at hpark ⊢
  cases hpark with
  | refused hvalid hlook hpoller =>
      refine ⟨?_, h.fresh⟩
      rcases hpoller with rfl | hset
      · exact h.periods
      · exact h.periods.epollSet (croutinePollerSet_epoll hb hset) hlt hwatch.mpr hidle
          fun _ => hsafe
  | @parked hrun io i e poller hins hfree hset =>
      rw [← hins.events] at hset
      have hbase := h.periods.epollSet (croutinePollerSet_epoll hb hset) hlt hwatch.mpr hidle
        fun _ => hsafe
      refine ⟨hbase.park ?_ (.update rfl), h.fresh⟩
      intro r hr
      show poller.periodOf fd = r.period
      unfold Poller.periodOf
      rw [show poller.interest fd = some r from hr]

/-- A step that neither registers a descriptor nor hands events to a worker. -/
theorem quiet (h : PeriodInv s) (htasks : KeepsWaits s.tasks s'.tasks)
    (hpc : KeepsEvents s.wk.pc s'.wk.pc) (hpoller : s'.poller = s.poller)
    (hlog : s'.readyLog = s.readyLog) : PeriodInv s' := by
  refine ⟨?_, ?_⟩
  · rw [hpoller]
    exact h.periods.mono htasks hpc
  · unfold FreshLog
    rw [hlog]
    exact h.fresh

/-- Wakes by channel operations keep the invariant. -/
theorem wakes (h : PeriodInv s) (hw : Wakes s s') : PeriodInv s' := by
  have hcore := hw.sameCore
  refine h.quiet ?_ hw.signals.keepsEvents hcore.poller hcore.readyLog
  refine Wakes.invariant (I := fun x => KeepsWaits s.tasks x.tasks) ?_ ?_ hw (.refl _)
  · exact fun _ _ hx => hx
  · intro o x u success x' hx hwake
    obtain ⟨_, cap, _, rfl⟩ := workerWakeTaskLocked_some hwake
    exact hx.trans (.awake (by simp [Task.requeued]))

/-- **Periods, channel steps.** A channel step keeps the invariant. -/
theorem chanView (h : PeriodInv s) (hv : ChanView s s') : PeriodInv s' := by
  cases hv with
  | memory κ => exact ⟨h.periods, h.fresh⟩
  | wakes hlock hw => exact h.wakes hw
  | @park hlock s1 hw w t hpc hframe frame =>
      have h1 := h.wakes hw
      unfold workerParkCurrentOnChannelLocked
      split
      · exact h1.quiet (.same rfl rfl rfl) (.refl _) rfl rfl
      · exact h1.quiet (.awake (by simp)) (.update rfl) rfl rfl
  | @shutdown hlock o θ s1 life hmove hclose =>
      have h0 : PeriodInv { s with shutdownRequested := true } := ⟨h.periods, h.fresh⟩
      have h1 := h0.wakes (croutineChannelShutdownAllLocked_wakes hclose)
      exact h1.quiet (.refl _) (Signals.condBroadcast s1.wk).keepsEvents rfl rfl
  | returned hpc κ => exact h.quiet (.same rfl rfl rfl) (.refl _) rfl rfl

/-- One iteration of the scheduling loop. -/
theorem loopOutcome {checked : Bool} (h : PeriodInv s) (hout : LoopOutcome w checked s s') :
    PeriodInv s' := by
  cases hout with
  | exit hstop => exact h.quiet (.refl _) (.update rfl) rfl rfl
  | poll hgo hidle htimeout => exact h.quiet (.refl _) (.update rfl) rfl rfl
  | dispatch hgo hqueue => exact h.quiet (.same rfl rfl rfl) (.update rfl) rfl rfl
  | sleep hgo hactive hqueue => exact h.quiet (.refl _) (.update rfl) rfl rfl

/-- The events of a filtered batch are applied one after the other; each application
leaves the rest of the batch current. -/
theorem pollBatch {o : Oracle} {events : List PollEvent} (h : PeriodInv s) (ht : TaskInv s)
    (hlock : s.wk.lock = none) (hpc : s.wk.pc w = .filtered events)
    (hbatch : events.foldlM (applyPollEvent o) s = .ok s') : PeriodInv s' := by
  have hall := Res.foldlM_induct_mem (I := fun x : Sys => PeriodInv x ∧ TaskInv x ∧
    x.wk.lock = none ∧ x.wk.pc w = .filtered events) events ?_ ⟨h, ht, hlock, hpc⟩ hbatch
  · exact hall.1
  · intro x e x' he hx hstep
    obtain ⟨hinv, htask, hl, hp⟩ := hx
    obtain ⟨n, hwake⟩ := applyPollEvent_ok hstep
    have heff := htask.wakeIo_effect hinv.periods.registered.backend hwake
    refine ⟨hinv.wakeIo htask heff fun _ => hinv.periods.filtered w events hp e he,
      htask.wakeIo hl hwake, (wakeWaitingTasksLocked_woke hwake).fields.2.1.trans hl, ?_⟩
    rw [heff.points.fixed (by rw [hp]; rfl)]
    exact hp

/-- Allocating a task keeps the invariant. -/
theorem spawnAlloc {θ : Thread} {r : SpawnRequest} (h : PeriodInv s) :
    PeriodInv (workerSpawnAlloc s θ r) := by
  have hfail : ∀ (x : Sys) (m : Bool), PeriodInv x → PeriodInv (spawnFailed x m) := by
    intro x m hx
    rw [spawnFailed_eq]
    exact ⟨hx.periods, hx.fresh⟩
  rcases workerSpawnAlloc_cases s θ r with heq | ⟨l, _, heq⟩ | heq <;> rw [heq]
  · exact hfail s _ h
  · exact hfail _ _ ⟨h.periods, h.fresh⟩
  · exact h.quiet (.awake (by simp)) (.refl _) rfl rfl

/-- Cleaning a task up keeps the invariant. -/
theorem cleanup (h : PeriodInv s) : PeriodInv (cleanupTask s t) :=
  h.quiet (.awake (by simp)) (.refl _) rfl rfl

/-- Pushing a task keeps the invariant. -/
theorem push {o : Oracle} (h : PeriodInv s) (hpush : taskQueuePush o s t = some s') :
    PeriodInv s' ∧ s'.wk = s.wk := by
  rcases taskQueuePush_some hpush with ⟨_, rfl⟩ | ⟨_, cap, _, rfl⟩
  · exact ⟨h, rfl⟩
  · exact ⟨h.quiet (.same rfl rfl rfl) (.refl _) rfl rfl, rfl⟩

/-- Publishing a task keeps the invariant. -/
theorem spawnPublish {o : Oracle} {θ : Thread} (h : PeriodInv s) :
    PeriodInv (workerSpawnPublish o s θ t) := by
  have herase : PeriodInv { s with spawns := s.spawns.erase (θ, t) } := ⟨h.periods, h.fresh⟩
  have hfail : PeriodInv (spawnFailed (cleanupTask { s with spawns := s.spawns.erase (θ, t) } t)
      (s.tasks t).isMain) := by
    have hclean := herase.cleanup (t := t)
    rw [spawnFailed_eq]
    exact ⟨hclean.periods, hclean.fresh⟩
  rcases workerSpawnPublish_cases o s θ t with heq | ⟨_, s1, hpush, heq⟩ <;> rw [heq]
  · exact hfail
  · obtain ⟨h1, _⟩ := herase.push hpush
    exact h1.quiet (.refl _) (published_signals s1 o θ t _).keepsEvents rfl rfl

end PeriodInv

/-! ## Runs -/

/-- The worker carries a filtered event for the descriptor. -/
def Pc.pendingFor (fd : Int) : Pc → Bool
  | .filtered events => events.any fun e => e.fd = fd
  | _ => false

/-- A wait that begins a registration finds no filtered event for its descriptor that
still has to be applied, and a batch reaches the filter before `2 ^ 32` changes of a
generation. -/
def periodSafe (s : Sys) : Action → Bool
  | .waitIo _ fd _ _ => (s.poller.interest fd).isSome ||
    (List.range s.wk.count).all fun w => !(s.wk.pc w).pendingFor fd
  | .filterBatch w =>
    match s.wk.pc w with
    | .polled raw => raw.all fun x => !x.wrapped s.poller
    | _ => true
  | _ => true

namespace PeriodInv

variable {s s' : Sys} {w : WorkerId} {t : TaskId}

/-- **Periods, scheduler.** A scheduler step keeps the invariant, unless it hands out an event
`2 ^ 32` generations old or the runtime is down. -/
theorem schedStep {a : Action} (h : PeriodInv s) (ht : TaskInv s) (hlife : LifeInv s)
    (hsafe : periodSafe s a = true) (hdown : s'.life ≠ .down) (hstep : SchedStep s a s') :
    PeriodInv s' := by
  cases hstep with
  | spawnAlloc hspawn hne => exact h.spawnAlloc
  | spawnPublish hlock hmem => exact h.spawnPublish
  | forgetFd hlock hint hforget =>
      rcases workerForgetFd_ok hforget with ⟨_, rfl⟩ | ⟨_, s1, n, hwake, rfl⟩
      · exact h
      · have heff := ht.wakeIo_effect h.periods.registered.backend hwake
        have h1 := h.wakeIo ht heff fun habs => absurd habs (by simp)
        split
        · exact ⟨h1.periods, h1.fresh⟩
        · exact h1
  | pollerWake hmem => exact ⟨h.periods, h.fresh⟩
  | @waitIo hlock o w t fd direction hint hpc hframe =>
      refine h.waitIo ht (hlife.not_drained (w := w) (by rw [hpc]; rfl)) hint ?_
      intro hnone v events hv e he hfd
      simp only [periodSafe, hnone, Option.isSome_none, Bool.false_or, List.all_eq_true,
        List.mem_range, Bool.not_eq_true'] at hsafe
      have hlt := hlife.started_lt_count (w := v) (by rw [hv]; simp)
      have hpending := hsafe v hlt
      rw [hv, Pc.pendingFor, List.any_eq_false] at hpending
      exact hpending e he (decide_eq_true hfd)
  | yield hpc hframe => exact h.quiet (.refl _) (.update rfl) rfl rfl
  | returnIo hpc hframe => exact h.quiet (.same rfl rfl rfl) (.refl _) rfl rfl
  | taskReturn hpc hframe =>
      refine h.quiet (.awake (by simp)) (.update ?_) rfl rfl
      split <;> rfl
  | finishMain hpc => exact h.quiet (.refl _) (.update rfl) rfl rfl
  | finishSched hlock hpc =>
      refine h.quiet (.refl _) ?_ rfl rfl
      exact (Signals.condBroadcast s.wk).keepsEvents.trans (.update rfl)
  | switchOut hpc =>
      refine h.quiet (.same rfl rfl rfl) (.update ?_) rfl rfl
      split <;> rfl
  | release hpc => exact h.quiet (.refl _) (.update rfl) rfl rfl
  | @reread hlock w t st hpc =>
      refine h.quiet (.refl _) (.update ?_) rfl rfl
      rcases afterReread_cases s t st with heq | heq | heq <;> rw [heq] <;> rfl
  | @requeue hlock o w t s1 hpc hrequeue =>
      obtain ⟨s2, hpush, rfl⟩ := requeueTask_ok hrequeue
      obtain ⟨h2, hwk⟩ := h.push hpush
      refine h2.quiet (.refl _) ?_ rfl rfl
      exact (Signals.condSignal o.pick s2.wk).keepsEvents.trans (.update rfl)
  | cleanup hpc => exact h.cleanup.quiet (.refl _) (.update rfl) rfl rfl
  | @loop hlock w checked hpc => exact h.loopOutcome (loopBody_outcome w checked s)
  | @condReturn hlock w signalled checked hpc =>
      have h0 : PeriodInv (s.mapWk fun wk => { wk with idleWorkers := wk.idleWorkers - 1 }) :=
        ⟨h.periods, h.fresh⟩
      exact h0.loopOutcome (loopBody_outcome w checked _)
  | @kernelReturn w timeout batch raw hpc hbatch =>
      unfold kernelBatch at hbatch
      split at hbatch
      · exact ⟨h.periods.receive hbatch, h.fresh⟩
      · exact absurd hbatch (by simp)
  | kernelError hpc => exact h.quiet (.refl _) (.update rfl) rfl rfl
  | @filterBatch w raw hpc =>
      refine ⟨h.periods.filter hpc ?_, h.fresh⟩
      intro x hx
      simp only [periodSafe, hpc, List.all_eq_true, Bool.not_eq_true'] at hsafe
      exact hsafe x hx
  | @pollReturn hlock o w events s1 hpc hpoll =>
      have hrelease : PeriodInv (releasePoller s) :=
        h.quiet (.refl _) (Signals.condBroadcast s.wk).keepsEvents rfl rfl
      have htask : TaskInv (releasePoller s) := ht.signals _ rfl (Signals.condBroadcast s.wk)
      have hpc' : (releasePoller s).wk.pc w = .filtered events := by
        show (s.wk.pc w).signal = _
        rw [hpc]; rfl
      rcases leavePoll_ok hpoll with ⟨_, rfl⟩ | ⟨_, s2, hbatch, hout⟩
      · exact hrelease.quiet (.refl _) (.update rfl) rfl rfl
      · exact (hrelease.pollBatch htask hlock hpc' hbatch).loopOutcome hout
  | @pollFailed hlock o w s1 hpc hpoll =>
      obtain ⟨_, rfl⟩ := leavePollError_ok hpoll
      have hrelease : PeriodInv (releasePoller s) :=
        h.quiet (.refl _) (Signals.condBroadcast s.wk).keepsEvents rfl rfl
      exact hrelease.quiet (.refl _) (.update rfl) rfl rfl
  | resume hpc => exact h.quiet (.same rfl rfl rfl) (.update rfl) rfl rfl
  | setReady fd mask =>
      obtain ⟨hreg, hparked, hpolled, hfiltered⟩ := h.periods
      refine ⟨⟨⟨hreg.backend, hreg.entry, hreg.generation, hreg.untouched⟩, hparked, ?_,
        hfiltered⟩, h.fresh⟩
      exact fun w raw hraw x hx => (hpolled w raw hraw x hx).later (.ready _ _)
  | runtimeInit hlock hl => exact ⟨h.periods, h.fresh⟩
  | runCall hl | waitForMain hl => exact ⟨h.periods, h.fresh⟩
  | joinWorkers hl hall => exact ⟨h.periods, h.fresh⟩
  | createWorker hl hk howes => exact h.quiet (.refl _) (.update rfl) rfl rfl
  | deinitDrain hlock hl =>
      obtain ⟨hdrain, _, hempty⟩ := workerDeinitDrain_inv ht hlock
      have hframe := (DrainFrame.deinit s).eq
      have hnone : ∀ t, ((workerDeinitDrain s).tasks t).state ≠ .waitingIo := by
        intro t hw
        refine hdrain.agree.events_of_waiting hw ?_
        unfold IoWaitTable.events
        rw [hempty]
      refine h.quiet (fun t hw => absurd hw (hnone t)) ?_ ?_ ?_
      · show KeepsEvents s.wk.pc (workerDeinitDrain s).wk.pc
        rw [hframe]
        exact .refl _
      · show (workerDeinitDrain s).poller = s.poller
        rw [hframe]
      · show (workerDeinitDrain s).readyLog = s.readyLog
        rw [hframe]
  | deinitClose hl => exact absurd rfl hdown

theorem initial (wakeFd : Int) (workers runCapacity ioCapacity : Nat) :
    PeriodInv (Croutine.initial .epoll wakeFd workers runCapacity ioCapacity) := by
  refine ⟨⟨⟨rfl, ?_, ?_, fun _ _ => rfl⟩, ?_, ?_, ?_⟩, ?_⟩
  · intro fd r hr
    exact absurd hr (by simp [Croutine.initial])
  · intro n hn
    exact absurd hn (Nat.not_lt_zero n)
  · intro t r hw
    exact absurd hw (by simp [Croutine.initial])
  · intro w raw hraw
    exact absurd hraw (by simp [Croutine.initial])
  · intro w events hevents
    exact absurd hevents (by simp [Croutine.initial])
  · intro r hr
    exact absurd hr (by simp [Croutine.initial])

/-- Every state of a run whose steps are all safe, while the scheduler exists; the log
stays fresh afterwards. -/
theorem reach {s : Sys} (h : (runtime .epoll).ReachVia (fun x a => periodSafe x a = true) s) :
    (s.life ≠ .down → PeriodInv s) ∧ FreshLog s := by
  refine Machine.ReachVia.invariant
    (I := fun x => (x.life ≠ .down → PeriodInv x) ∧ FreshLog x) ?_ ?_ h
  · intro x hx
    obtain ⟨wakeFd, workers, runCapacity, ioCapacity, _, _, rfl⟩ := hx
    have hinit := initial wakeFd workers runCapacity ioCapacity
    exact ⟨fun _ => hinit, hinit.fresh⟩
  · intro x a x' hreach hx hsafe hstep
    obtain ⟨hinv, hfresh⟩ := hx
    have hlife := LifeInv.reach hreach
    by_cases hdown : x.life = .down
    · have hgone := (IoInv.reach hreach).gone hdown
      have hgstep := hgone.step hlife hdown hstep
      refine ⟨fun habs => absurd ((hgstep.gone hgone).2.trans hdown) habs, ?_⟩
      cases hgstep <;> exact hfresh
    · have hx := hinv hdown
      have htask := TaskInv.reach hreach hdown
      rcases step_kind hstep with hc | hs
      · have hx' := hx.chanView hc.view
        exact ⟨fun _ => hx', hx'.fresh⟩
      · refine ⟨fun hdown' => hx.schedStep htask hlife hsafe hdown' hs, ?_⟩
        by_cases hdown' : x'.life = .down
        · obtain ⟨_, rfl⟩ := step_ends hstep hdown hdown'
          exact hfresh
        · exact (hx.schedStep htask hlife hsafe hdown' hs).fresh

end PeriodInv

/-- **No stale readiness**, in every run in which no registration begins while a
filtered event for its descriptor is still to be applied: a task woken with readiness
was woken by an event of the registration period in which it parked. -/
theorem ready_within_period {s : Sys}
    (h : (runtime .epoll).ReachVia (fun x a => periodSafe x a = true) s) :
    ∀ r ∈ s.readyLog, r.parkPeriod = r.eventPeriod :=
  (PeriodInv.reach h).2

/-- Descriptor 5 becomes readable and its event wakes the task that waits for it. -/
def readyRun : List Action :=
  parkedOnFd ++
    [.loop 0, .setReady 5 { EpollMask.empty with input := true },
      .kernelReturn 0 [.epoll 5 { EpollMask.empty with input := true }], .filterBatch 0,
      .pollReturn 0 .calm]

theorem ready_within_period_woken :
    ∃ s, (runtime .epoll).ReachVia (fun x a => periodSafe x a = true) s ∧
      s.readyLog.map (·.task) = [0] ∧ ∀ r ∈ s.readyLog, r.parkPeriod = r.eventPeriod := by
  have hreach : (runtime .epoll).ReachVia (fun x a => periodSafe x a = true)
      ((runtime .epoll).after (small 1) readyRun) :=
    Machine.reachVia_after_meets (small_init 1 (by decide)) (by decide +kernel)
      (by decide +kernel)
  exact ⟨_, hreach, by decide +kernel, ready_within_period hreach⟩

/-- The main task waits for descriptor 5, and a worker carries a filtered event for
it.  A task on the other worker forgets the descriptor and waits for it anew before
the event is applied. -/
def staleRun : List Action :=
  startUp 2 ++ dispatchOn 0 ++
    [.spawnAlloc (.worker 0) (.plain false), .spawnPublish (.worker 0) 1 .calm] ++
    dispatchOn 1 ++ [.waitIo 0 5 .read .calm] ++ handOver 0 ++
    [.loop 0, .setReady 5 { EpollMask.empty with input := true },
      .kernelReturn 0 [.epoll 5 { EpollMask.empty with input := true }], .filterBatch 0,
      .forgetFd (.worker 1) 5 .calm, .pollerWake (.worker 1), .setReady 5 .empty,
      .waitIo 1 5 .read .calm] ++ handOver 1 ++
    [.pollReturn 0 .calm]

/-- The event of the first period wakes the task that parked in a later one, although
the descriptor it waits for is not ready. -/
theorem stale_event_wakes :
    ∃ s, (runtime .epoll).Reach s ∧ s.poller.ready 5 = .empty ∧
      ∃ r ∈ s.readyLog, r.task = 1 ∧ r.fd = 5 ∧ r.parkPeriod ≠ r.eventPeriod := by
  have hreach : (runtime .epoll).Reach ((runtime .epoll).after (small 2) staleRun) :=
    Machine.reach_after (small_init 2 (by decide)) (by decide +kernel)
  exact ⟨_, hreach, by decide +kernel, ⟨1, 5, 2, 1⟩, by decide +kernel, rfl, rfl, by decide⟩

end Croutine
