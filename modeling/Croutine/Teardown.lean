import Croutine.TaskInv

/-!
# Releasing tasks

`cleanup_task` and the loops of `worker_deinit` that release every task left in the
run queue and in the I/O wait table.  While no channel queue has a waiter, nothing
refers to a task at the moment it is released.
-/

namespace Croutine

/-- A task after `cleanup_task`. -/
def cleanedTask (task : Task) : Task :=
  { task with
    state := .runnable, queued := false, isMain := false, hasStack := false,
    ownsArg := false, ioFd := -1, ioEvents := .none, ioWakeSuccess := false,
    channelWakeSuccess := false }

/-- What `cleanup_task` writes. -/
theorem cleanupTask_eq (s : Sys) (t : TaskId) :
    cleanupTask s t = { s with
      tasks := Function.update s.tasks t (cleanedTask (s.tasks t))
      ledger := Function.update s.ledger t (cleanedLedger (s.tasks t) (s.ledger t))
      freeLog := s.freeLog ++ [⟨t, s.refersTo t⟩] } := rfl

/-- A task that was owned is freed with all that it owned. -/
theorem Owned.cleanedAt {task : Task} {l : Ledger} (h : Owned task l) :
    TaskAt (cleanedTask task) (cleanedLedger task l) .freed :=
  ⟨rfl, rfl, h.cleaned⟩

/-- As long as a task inside a channel call has its stack, the outcome of its park is not
overwritten. -/
def Task.KeepsWake (τ τ' : Task) : Prop :=
  τ.frame.call ≠ none → τ'.hasStack = true →
    τ.hasStack = true ∧ τ'.channelWakeSuccess = τ.channelWakeSuccess

/-- Seen from the channels nothing changes: the same tasks wait on channels, and tasks
stay in the channel call they are in and will learn the same outcome. -/
structure KeepsChan (tasks tasks' : TaskId → Task) : Prop where
  state : ∀ t, (tasks' t).state = .waitingChannel ↔ (tasks t).state = .waitingChannel
  frame : ∀ t, (tasks' t).frame = (tasks t).frame ∨
    (tasks' t).frame.call = none ∧ (tasks t).frame.call = none
  wake : ∀ t, (tasks t).KeepsWake (tasks' t)

namespace KeepsChan

variable {tasks tasks' tasks'' : TaskId → Task} {t : TaskId} {τ : Task}

theorem refl (tasks : TaskId → Task) : KeepsChan tasks tasks :=
  ⟨fun _ => Iff.rfl, fun _ => .inl rfl, fun _ _ h => ⟨h, rfl⟩⟩

theorem trans (h : KeepsChan tasks tasks') (h' : KeepsChan tasks' tasks'') :
    KeepsChan tasks tasks'' := by
  refine ⟨fun t => (h'.state t).trans (h.state t), fun t => ?_, fun t hcall hstack => ?_⟩
  · rcases h.frame t with heq | ⟨hnew, hold⟩ <;> rcases h'.frame t with heq' | ⟨hnew', hold'⟩
    · exact .inl (heq'.trans heq)
    · exact .inr ⟨hnew', by rw [← heq]; exact hold'⟩
    · exact .inr ⟨by rw [heq']; exact hnew, hold⟩
    · exact .inr ⟨hnew', hold⟩
  · have hcall' : (tasks' t).frame.call ≠ none := by
      rcases h.frame t with heq | ⟨_, hold⟩
      · rw [heq]; exact hcall
      · exact absurd hold hcall
    obtain ⟨hmid, hsame'⟩ := h'.wake t hcall' hstack
    obtain ⟨hfirst, hsame⟩ := h.wake t hcall hmid
    exact ⟨hfirst, hsame'.trans hsame⟩

/-- A task in a channel call was in it before, -/
theorem frame_of_call (h : KeepsChan tasks tasks') {k : CallId}
    (hk : (tasks' t).frame.call = some k) : (tasks' t).frame = (tasks t).frame := by
  rcases h.frame t with heq | ⟨hnew, _⟩
  · exact heq
  · rw [hnew] at hk
    exact absurd hk (by simp)

/-- and one that was in a channel call still is. -/
theorem call_of_frame (h : KeepsChan tasks tasks') {k : CallId}
    (hk : (tasks t).frame.call = some k) : (tasks' t).frame = (tasks t).frame := by
  rcases h.frame t with heq | ⟨_, hold⟩
  · exact heq
  · rw [hold] at hk
    exact absurd hk (by simp)

/-- A task that does not wait on channels changes, and stays outside channel calls or in
the one it is in. -/
theorem update (hold : (tasks t).state ≠ .waitingChannel) (hnew : τ.state ≠ .waitingChannel)
    (hframe : τ.frame = (tasks t).frame ∨ τ.frame.call = none ∧ (tasks t).frame.call = none)
    (hwake : (tasks t).KeepsWake τ) : KeepsChan tasks (Function.update tasks t τ) := by
  refine ⟨fun u => ?_, fun u => ?_, fun u => ?_⟩ <;> by_cases hu : u = t
  · subst hu
    rw [Function.update_self]
    exact ⟨fun habs => absurd habs hnew, fun habs => absurd habs hold⟩
  · rw [Function.update_of_ne hu]
  · subst hu
    rw [Function.update_self]
    exact hframe
  · rw [Function.update_of_ne hu]
    exact .inl rfl
  · subst hu
    rw [Function.update_self]
    exact hwake
  · rw [Function.update_of_ne hu]
    exact fun _ h => ⟨h, rfl⟩

end KeepsChan

/-- Freeing a task that does not sleep on a channel wakes nobody. -/
theorem KeepsChan.cleaned {tasks : TaskId → Task} {t : TaskId}
    (h : (tasks t).state ≠ .waitingChannel) :
    KeepsChan tasks (Function.update tasks t (cleanedTask (tasks t))) :=
  .update h (by simp [cleanedTask]) (.inl rfl) fun _ hstack => absurd hstack (by simp [cleanedTask])

/-- No channel queue has a waiter. -/
def Sys.Unwaited (s : Sys) : Prop :=
  ∀ c ∈ s.ch.registry, ∀ op, s.ch.queue c op = []

/-- A task with no waiter and no slot is referred to by nothing. -/
theorem Sys.refersTo_eq_false {s : Sys} {t : TaskId}
    (hwait : ∀ c ∈ s.ch.registry, ∀ op, ∀ w ∈ s.ch.queue c op, (s.ch.waiter w).task ≠ t)
    (hvalid : s.io.Valid) (hslot : ∀ fd d, s.io.slot fd d ≠ some t) :
    s.refersTo t = false := by
  unfold Sys.refersTo
  rw [Bool.or_eq_false_iff]
  constructor
  · rw [List.any_eq_false]
    intro c hc habs
    obtain ⟨w, hw, ht⟩ := List.any_eq_true.mp habs
    have ht : (s.ch.waiter w).task = t := by simpa using ht
    rcases List.mem_append.mp hw with hw | hw
    · exact hwait c hc .send w hw ht
    · exact hwait c hc .recv w hw ht
  · rw [List.any_eq_false]
    intro e he habs
    simp only [Bool.and_eq_true, Bool.or_eq_true, decide_eq_true_eq] at habs
    obtain ⟨hused, hcase⟩ := habs
    have hlook : s.io.lookup e.fd = some e :=
      (Slots.lookup_eq_some_iff hvalid.keyed).mpr ⟨he, hused, rfl⟩
    rcases hcase with hr | hw
    · exact hslot e.fd .read (by unfold IoWaitTable.slot; rw [hlook]; exact hr)
    · exact hslot e.fd .write (by unfold IoWaitTable.slot; rw [hlook]; exact hw)

/-- Every task released on the way from `s0` to `s` was referred to by nothing,
provided that no channel queue had a waiter. -/
def Unreferenced (s0 s : Sys) : Prop :=
  s0.Unwaited → ∀ r ∈ s.freeLog, r ∈ s0.freeLog ∨ r.referenced = false

/-- A task without a slot is freed with nothing that refers to it. -/
theorem Unreferenced.cleanup {s0 s : Sys} {t : TaskId} (h : Unreferenced s0 s)
    (hch : s.ch = s0.ch) (hvalid : s.io.Valid) (hslot : ∀ fd d, s.io.slot fd d ≠ some t) :
    Unreferenced s0 (cleanupTask s t) := by
  intro hwait r hr
  have hwait' : s.Unwaited := by
    unfold Sys.Unwaited
    rw [hch]
    exact hwait
  rcases List.mem_append.mp hr with hr | hr
  · exact h hwait r hr
  · rw [List.mem_singleton] at hr
    rw [hr]
    refine .inr (Sys.refersTo_eq_false (fun c hc op w hw => ?_) hvalid hslot)
    rw [hwait' c hc op] at hw
    exact absurd hw List.not_mem_nil

/-- What the loops of `worker_deinit` keep, from the state `s0` they started in. -/
structure Draining (s0 s : Sys) : Prop where
  placed : ∃ loc, s.Placed loc
  agree : IoAgree s.tasks s.io
  lock : s.wk.lock = none
  ch : s.ch = s0.ch
  unreferenced : Unreferenced s0 s
  chan : KeepsChan s0.tasks s.tasks

/-! ## The run queue -/

/-- One round of the drain of the run queue. -/
theorem drainRunQueue_cons {s : Sys} {t : TaskId} {rest : List TaskId}
    (h : s.runq.tasks = t :: rest) (x : TaskId) (l : List TaskId) :
    drainRunQueue (x :: l) s = drainRunQueue l (cleanupTask
      { s.setTask t { s.tasks t with queued := false } with
        runq := { s.runq with tasks := rest } } t) := by
  rw [drainRunQueue, taskQueuePop, h]

/-- A task at the head of the run queue is popped and released. -/
theorem Draining.popCleanup {s0 s : Sys} {t : TaskId} {rest : List TaskId}
    (h : Draining s0 s) (hqueue : s.runq.tasks = t :: rest) :
    Draining s0 (cleanupTask
      { s.setTask t { s.tasks t with queued := false } with
        runq := { s.runq with tasks := rest } } t) := by
  obtain ⟨loc, hloc⟩ := h.placed
  have hloct : loc t = .queue := (hloc.queued.mem t).mp (by rw [hqueue]; exact List.mem_cons_self)
  have hat := hloc.taskAt t
  rw [hloct] at hat
  obtain ⟨hsettled, howned, _⟩ := hat
  have hnot : (s.tasks t).state ≠ .waitingIo := by rw [hsettled.state]; simp
  have hslot : ∀ fd d, s.io.slot fd d ≠ some t :=
    fun fd d habs => hnot ((h.agree.slots fd d t).mp habs).1
  have howned' : Owned { s.tasks t with queued := false } (s.ledger t) :=
    ⟨howned.1, howned.2, howned.3, howned.4⟩
  refine ⟨⟨Function.update loc t .freed, ?_⟩, ?_, h.lock, h.ch, ?_, h.chan.trans ?_⟩
  · have hmove := hloc.relocate (t := t) (by rw [hloct]; simp) (by simp) howned'.cleanedAt
      (hloc.queued.remove (by rw [hqueue]) (by simp))
      (hloc.spawning.move (by rw [hloct]; simp) (by simp))
      (hloc.unborn_move (by rw [hloct]; simp) (by simp))
    unfold Sys.Placed
    rw [cleanupTask_eq]
    simpa only [Sys.setTask, Function.update_self, Function.update_idem] using hmove
  · rw [cleanupTask_eq]
    simp only [Sys.setTask, Function.update_self, Function.update_idem]
    exact h.agree.quiet hnot (by simp [cleanedTask])
  · refine Unreferenced.cleanup ?_ h.ch h.agree.valid hslot
    exact h.unreferenced
  · rw [cleanupTask_eq]
    simp only [Sys.setTask, Function.update_self, Function.update_idem]
    exact .update (by rw [hsettled.state]; simp) (by simp [cleanedTask]) (.inl rfl)
      fun _ hstack => absurd hstack (by simp [cleanedTask])

/-- **The drain of the run queue** keeps the account of every task and empties the queue. -/
theorem drainRunQueue_inv {s0 : Sys} :
    ∀ (l : List TaskId) {s : Sys}, s.runq.tasks = l → Draining s0 s →
      Draining s0 (drainRunQueue l s) ∧ (drainRunQueue l s).runq.tasks = [] := by
  intro l
  induction l with
  | nil =>
      intro s hq h
      exact ⟨h, hq⟩
  | cons t rest ih =>
      intro s hq h
      rw [drainRunQueue_cons hq]
      exact ih rfl (h.popCleanup hq)

/-! ## The wait table -/

/-- What the drain of one entry frees are the tasks of both its slots. -/
theorem drainIoEntry_eq {s : Sys} {i : Nat} {e : IoWaitEntry}
    (hget : s.io.entries[i]? = some e) (hused : e.inUse = true) (hdist : e.Distinct) :
    drainIoEntry s i = (takeReadyTasks e .all).1.foldl cleanupTask
      { s with io := ioWaitTableRemoveEntry s.io i } := by
  have hentry : s.io.entries.getD i ioWaitEntryReset = e := by
    rw [List.getD_eq_getElem?_getD, hget]; rfl
  unfold drainIoEntry
  dsimp only
  rw [hentry, hused, takeReadyTasks_eq hdist]
  obtain ⟨fd, r, w, used⟩ := e
  cases r with
  | none => cases w <;> simp [cleanupOption, IoEvents.all]
  | some t =>
      have hw : w ≠ some t := hdist t rfl
      cases w with
      | none => simp [cleanupOption, IoEvents.all]
      | some u =>
          have hut : u ≠ t := fun heq => hw (by rw [heq])
          simp [cleanupOption, IoEvents.all, hut]

/-- Distinct tasks that wait for I/O and are recorded nowhere are released. -/
theorem cleanupTasks_placed (s0 : Sys) :
    ∀ (l : List TaskId) {s : Sys} {loc : TaskId → Place}, s.Placed loc → l.Nodup →
      (∀ t ∈ l, loc t = .io) → s.io.Valid → (∀ t ∈ l, ∀ fd d, s.io.slot fd d ≠ some t) →
      s.ch = s0.ch → Unreferenced s0 s →
      (∃ loc', (l.foldl cleanupTask s).Placed loc') ∧
      (∀ t ∈ l, ((l.foldl cleanupTask s).tasks t).state = .runnable) ∧
      (∀ t, t ∉ l → (l.foldl cleanupTask s).tasks t = s.tasks t) ∧
      Unreferenced s0 (l.foldl cleanupTask s) ∧
      KeepsChan s.tasks (l.foldl cleanupTask s).tasks := by
  intro l
  induction l with
  | nil =>
      intro s loc hloc _ _ _ _ _ hun
      exact ⟨⟨loc, hloc⟩, by simp, fun _ _ => rfl, hun, .refl _⟩
  | cons t rest ih =>
      intro s loc hloc hnodup hio hvalid hslot hch hun
      obtain ⟨hnot, hnodup'⟩ := List.nodup_cons.mp hnodup
      have hloct : loc t = .io := hio t List.mem_cons_self
      have hat := hloc.taskAt t
      rw [hloct] at hat
      have hmove := hloc.relocate (t := t) (by rw [hloct]; simp) (by simp) hat.2.1.cleanedAt
        (hloc.queued.move (by rw [hloct]; simp) (by simp))
        (hloc.spawning.move (by rw [hloct]; simp) (by simp))
        (hloc.unborn_move (by rw [hloct]; simp) (by simp))
      have hplaced : (cleanupTask s t).Placed (Function.update loc t .freed) := hmove
      have hio' : ∀ u ∈ rest, Function.update loc t .freed u = .io := by
        intro u hu
        have hut : u ≠ t := fun heq => hnot (heq ▸ hu)
        rw [Function.update_of_ne hut]
        exact hio u (List.mem_cons_of_mem _ hu)
      obtain ⟨hres, hdone, hkept, hun', hchan⟩ := ih hplaced hnodup' hio' hvalid
        (fun u hu => hslot u (List.mem_cons_of_mem _ hu)) hch
        (hun.cleanup hch hvalid (hslot t List.mem_cons_self))
      have hfirst : KeepsChan s.tasks (cleanupTask s t).tasks :=
        .cleaned (by rw [hat.1.state]; simp)
      refine ⟨hres, ?_, ?_, hun', hfirst.trans hchan⟩
      · intro u hu
        rcases List.mem_cons.mp hu with rfl | hu
        · rw [List.foldl_cons, hkept u hnot, cleanupTask_eq]
          simp [cleanedTask]
        · exact hdone u hu
      · intro u hu
        rw [List.mem_cons, not_or] at hu
        rw [List.foldl_cons, hkept u hu.2, cleanupTask_eq]
        simp [hu.1]

/-- Freeing tasks writes to the tasks, their account and the log only. -/
theorem cleanupTasks_frame (l : List TaskId) (s : Sys) :
    ∃ tasks ledger log, l.foldl cleanupTask s =
      { s with tasks := tasks, ledger := ledger, freeLog := log } := by
  induction l generalizing s with
  | nil => exact ⟨s.tasks, s.ledger, s.freeLog, rfl⟩
  | cons t rest ih =>
      obtain ⟨tasks, ledger, log, heq⟩ := ih (cleanupTask s t)
      exact ⟨tasks, ledger, log, heq⟩

/-- The drain of one entry keeps the account of every task. -/
theorem Draining.entry {s0 s : Sys} (h : Draining s0 s) (i : Nat) :
    Draining s0 (drainIoEntry s i) := by
  by_cases hused : ∃ e, s.io.entries[i]? = some e ∧ e.inUse = true
  · obtain ⟨e, hget, hused⟩ := hused
    have hlook : s.io.lookup e.fd = some e :=
      (Slots.lookup_eq_some_iff h.agree.valid.keyed).mpr ⟨List.mem_of_getElem? hget, hused, rfl⟩
    have hdist := h.agree.distinct hlook
    have hwithout := removeEntry_without h.agree hget hused rfl
    have hmem : ∀ u, u ∈ (takeReadyTasks e .all).1 ↔
        ∃ d, IoEvents.all.has d = true ∧ s.io.slot e.fd d = some u := by
      intro u
      rw [takeReadyTasks_mem hdist]
      simp only [IoWaitTable.slot, hlook, Option.bind_some]
    obtain ⟨loc, hloc⟩ := h.placed
    have hfree : Placement s.tasks s.ledger s.wk.pc none s.runq.tasks s.spawns s.nextTask loc := by
      rw [← h.lock]; exact hloc
    have hio : ∀ u ∈ (takeReadyTasks e .all).1, loc u = .io := by
      intro u hu
      obtain ⟨d, _, hd⟩ := (hmem u).mp hu
      have hstate := ((h.agree.slots _ _ _).mp hd).1
      rcases hfree.place_of_waiting (t := u) (by rw [hstate]; rfl) with ⟨_, hl⟩ | ⟨hst, _⟩
      · exact hl
      · rw [hstate] at hst
        exact absurd hst (by simp)
    have hslot : ∀ u ∈ (takeReadyTasks e .all).1, ∀ fd d,
        (ioWaitTableRemoveEntry s.io i).slot fd d ≠ some u := by
      intro u hu fd d habs
      obtain ⟨d', _, hd'⟩ := (hmem u).mp hu
      rw [hwithout.slots] at habs
      by_cases hcase : fd = e.fd ∧ IoEvents.all.has d = true
      · rw [if_pos hcase] at habs
        simp at habs
      · rw [if_neg hcase] at habs
        have hfd := (h.agree.waitsFor_unique ((h.agree.slots _ _ _).mp habs)
          ((h.agree.slots _ _ _).mp hd')).1
        exact hcase ⟨hfd, by cases d <;> rfl⟩
    rw [drainIoEntry_eq hget hused hdist]
    have hplaced : Sys.Placed { s with io := ioWaitTableRemoveEntry s.io i } loc := hloc
    obtain ⟨hres, hdone, hkept, hun, hchan⟩ := cleanupTasks_placed s0 _ hplaced
      (takeReadyTasks_nodup hdist) hio hwithout.valid hslot h.ch h.unreferenced
    obtain ⟨tasks, ledger, log, heq⟩ := cleanupTasks_frame (takeReadyTasks e .all).1
      { s with io := ioWaitTableRemoveEntry s.io i }
    rw [heq] at hres hdone hkept hun hchan ⊢
    refine ⟨hres, h.agree.takeOut hmem hwithout ?_ hkept, h.lock, h.ch, hun, h.chan.trans hchan⟩
    intro u hu
    rw [hdone u hu]
    simp
  · have hskip : drainIoEntry s i = s := by
      unfold drainIoEntry
      dsimp only
      rw [if_pos]
      rw [List.getD_eq_getElem?_getD]
      cases hget : s.io.entries[i]? with
      | none => rfl
      | some e =>
          have : e.inUse ≠ true := fun habs => hused ⟨e, hget, habs⟩
          simpa using this
    rw [hskip]
    exact h

/-- The slot of every entry that was visited is free. -/
theorem drainIoEntry_free (s : Sys) (i : Nat) :
    ∀ j e, (drainIoEntry s i).io.entries[j]? = some e → e.inUse = true →
      j ≠ i ∧ s.io.entries[j]? = some e := by
  intro j e hget hused
  have hentries : (drainIoEntry s i).io = s.io ∧
        (∀ x, s.io.entries[i]? = some x → x.inUse = false) ∨
      (drainIoEntry s i).io = ioWaitTableRemoveEntry s.io i := by
    unfold drainIoEntry
    dsimp only
    split
    · next hfree =>
      refine .inl ⟨rfl, fun x hx => ?_⟩
      rw [List.getD_eq_getElem?_getD, hx] at hfree
      simpa using hfree
    · refine .inr ?_
      have hopt : ∀ (x : Sys) (u : Option TaskId), (cleanupOption x u).io = x.io := by
        intro x u
        cases u <;> rfl
      split <;> simp only [hopt]
  rcases hentries with ⟨hio, hfree⟩ | hio
  · rw [hio] at hget
    refine ⟨fun hji => ?_, hget⟩
    rw [hji] at hget
    rw [hfree e hget] at hused
    exact absurd hused Bool.false_ne_true
  · rw [hio] at hget
    unfold ioWaitTableRemoveEntry at hget
    split at hget
    · next x hx =>
      split at hget
      · have hget' : (s.io.entries.set i ioWaitEntryReset)[j]? = some e := hget
        rw [List.getElem?_set] at hget'
        by_cases hij : i = j
        · rw [if_pos hij] at hget'
          split at hget'
          · cases hget'
            exact absurd hused Bool.false_ne_true
          · exact absurd hget' (by simp)
        · rw [if_neg hij] at hget'
          exact ⟨Ne.symm hij, hget'⟩
      · next hxfree =>
        refine ⟨fun hji => ?_, hget⟩
        rw [hji, hx] at hget
        cases hget
        exact hxfree hused
    · next hnone =>
      refine ⟨fun hji => ?_, hget⟩
      rw [hji, hnone] at hget
      simp at hget

/-- **The drain of the wait table** keeps the account of every task and leaves no entry in use.
-/
theorem drainIoTable_inv {s0 : Sys} :
    ∀ (l : List Nat) {s : Sys}, Draining s0 s →
      Draining s0 (l.foldl drainIoEntry s) ∧
      ∀ j e, (l.foldl drainIoEntry s).io.entries[j]? = some e → e.inUse = true →
        j ∉ l ∧ s.io.entries[j]? = some e := by
  intro l
  induction l with
  | nil =>
      intro s h
      exact ⟨h, fun j e hget _ => ⟨by simp, hget⟩⟩
  | cons i rest ih =>
      intro s h
      obtain ⟨hres, hfree⟩ := ih (h.entry i)
      refine ⟨hres, fun j e hget hused => ?_⟩
      obtain ⟨hj, hget'⟩ := hfree j e hget hused
      obtain ⟨hji, hget''⟩ := drainIoEntry_free s i j e hget' hused
      exact ⟨by simp [hji, hj], hget''⟩

/-- The drain of the wait table leaves the run queue alone. -/
theorem drainIoEntry_runq (s : Sys) (i : Nat) : (drainIoEntry s i).runq = s.runq := by
  have hopt : ∀ (x : Sys) (u : Option TaskId), (cleanupOption x u).runq = x.runq := by
    intro x u
    cases u <;> rfl
  unfold drainIoEntry
  dsimp only
  split
  · rfl
  · split <;> simp only [hopt]

/-- **The critical section of `worker_deinit`** releases every task of the run queue
and of the wait table. -/
theorem workerDeinitDrain_inv {s : Sys} (h : TaskInv s) (hlock : s.wk.lock = none) :
    Draining s (workerDeinitDrain s) ∧ (workerDeinitDrain s).runq.tasks = [] ∧
      ∀ fd, (workerDeinitDrain s).io.lookup fd = none := by
  have h0 : Draining s s := ⟨h.placed, h.agree, hlock, rfl, fun _ r hr => .inl hr, .refl _⟩
  obtain ⟨h1, hempty⟩ := drainRunQueue_inv s.runq.tasks rfl h0
  obtain ⟨h2, hfree⟩ := drainIoTable_inv
    (List.range (drainRunQueue s.runq.tasks s).io.entries.length) h1
  refine ⟨h2, ?_, ?_⟩
  · have hrunq : ∀ (l : List Nat) (x : Sys), (l.foldl drainIoEntry x).runq = x.runq := by
      intro l
      induction l with
      | nil => exact fun x => rfl
      | cons i rest ih =>
          intro x
          rw [List.foldl_cons, ih, drainIoEntry_runq]
    unfold workerDeinitDrain
    rw [hrunq]
    exact hempty
  · intro fd
    refine Slots.lookup_eq_none_iff.mpr ?_
    intro e he hused _
    obtain ⟨j, hj⟩ := List.mem_iff_getElem?.mp he
    obtain ⟨hnot, hget⟩ := hfree j e hj hused
    exact hnot (List.mem_range.mpr (List.getElem?_eq_some_iff.mp hget).1)

end Croutine
