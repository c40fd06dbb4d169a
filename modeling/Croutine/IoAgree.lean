import Croutine.IoTableSpec
import Croutine.PollerSpec
import Croutine.WorkerSpec

/-!
# Wait table, wait records and poller

A task that waits for I/O is recorded three times: in a slot of the wait table, in
its own `io_wait` record, and as interest of the poller.  `IoAgree` says that the
first two agree, and `IoWatch` that the poller watches what the table has.  Each of
the three changes the code makes (a task parks, the tasks of some directions are
taken out, an entry is given up) keeps both.
-/

namespace Croutine

/-- The slot of an entry for a direction. -/
def IoWaitEntry.slot (e : IoWaitEntry) : Filter → Option TaskId
  | .read => e.readTask
  | .write => e.writeTask

namespace IoWaitTable

/-- The task recorded for a descriptor and a direction. -/
def slot (table : IoWaitTable) (fd : Int) (direction : Filter) : Option TaskId :=
  (table.lookup fd).bind (·.slot direction)

/-- `io_wait_entry_events` of a descriptor's entry, none without one. -/
def events (table : IoWaitTable) (fd : Int) : IoEvents :=
  match table.lookup fd with
  | some e => ioWaitEntryEvents e
  | none => .none

end IoWaitTable

/-- The task is parked on the descriptor in that direction. -/
def Task.WaitsFor (task : Task) (fd : Int) (direction : Filter) : Prop :=
  task.state = .waitingIo ∧ task.ioFd = fd ∧ task.ioEvents.has direction = true

structure IoAgree (tasks : TaskId → Task) (table : IoWaitTable) : Prop where
  valid : table.Valid
  busy : ∀ fd e, table.lookup fd = some e → ioWaitEntryEvents e ≠ .none
  slots : ∀ fd direction t,
    table.slot fd direction = some t ↔ (tasks t).WaitsFor fd direction
  parked : ∀ t, (tasks t).state = .waitingIo →
    ∃ direction, (tasks t).ioEvents = IoEvents.none.put direction true

/-- The poller watches every descriptor for the directions its entry has. -/
def IoWatch (p : Poller) (table : IoWaitTable) : Prop :=
  ∀ fd, p.Watches fd (table.events fd)

/-- One direction was put. -/
theorem IoEvents.has_put_none (d d' : Filter) :
    (IoEvents.none.put d true).has d' = true ↔ d' = d := by
  cases d <;> cases d' <;> simp [IoEvents.put, IoEvents.has, IoEvents.none]

/-- No events are none in any direction. -/
theorem IoEvents.eq_none_iff (events : IoEvents) :
    events = .none ↔ ∀ d, events.has d = false := by
  obtain ⟨r, w⟩ := events
  constructor
  · intro heq d
    cases d <;> cases heq <;> rfl
  · intro h
    have hr : r = false := h .read
    have hw : w = false := h .write
    rw [hr, hw]; rfl

/-- The events of an entry are the directions with a task. -/
theorem ioWaitEntryEvents_has (e : IoWaitEntry) (d : Filter) :
    (ioWaitEntryEvents e).has d = (e.slot d).isSome := by
  cases d <;> rfl

/-- An entry without events has no tasks. -/
theorem ioWaitEntryEvents_eq_none_iff (e : IoWaitEntry) :
    ioWaitEntryEvents e = .none ↔ ∀ d, e.slot d = none := by
  rw [IoEvents.eq_none_iff]
  simp only [ioWaitEntryEvents_has, Option.isSome_eq_false_iff, Option.isNone_iff_eq_none]

/-- The events of a descriptor are the directions with a task. -/
theorem IoWaitTable.events_has (table : IoWaitTable) (fd : Int) (d : Filter) :
    (table.events fd).has d = (table.slot fd d).isSome := by
  unfold IoWaitTable.events IoWaitTable.slot
  cases table.lookup fd with
  | none => cases d <;> rfl
  | some e => exact ioWaitEntryEvents_has e d

/-- Events are known by their directions. -/
theorem IoEvents.ext_has {a b : IoEvents} (h : ∀ d, a.has d = b.has d) : a = b := by
  obtain ⟨r, w⟩ := a
  obtain ⟨r', w'⟩ := b
  have hr : r = r' := h .read
  have hw : w = w' := h .write
  rw [hr, hw]

/-- The table without the tasks of the chosen directions of a descriptor. -/
structure IoWaitTable.Without (table : IoWaitTable) (fd : Int) (ready : IoEvents)
    (table' : IoWaitTable) : Prop where
  valid : table'.Valid
  busy : ∀ g e, table'.lookup g = some e → ioWaitEntryEvents e ≠ .none
  slots : ∀ g d, table'.slot g d =
    if g = fd ∧ ready.has d = true then Option.none else table.slot g d

namespace IoAgree

variable {tasks tasks' : TaskId → Task} {table table' : IoWaitTable} {t : TaskId} {τ : Task}

/-- A task waits for one direction of one descriptor. -/
theorem waitsFor_unique (h : IoAgree tasks table) {fd fd' : Int} {d d' : Filter}
    (hw : (tasks t).WaitsFor fd d) (hw' : (tasks t).WaitsFor fd' d') : fd = fd' ∧ d = d' := by
  obtain ⟨hstate, hfd, hev⟩ := hw
  obtain ⟨_, hfd', hev'⟩ := hw'
  obtain ⟨x, hx⟩ := h.parked t hstate
  rw [hx, IoEvents.has_put_none] at hev hev'
  exact ⟨hfd.symm.trans hfd', hev.trans hev'.symm⟩

/-- What the wait records say of a task decides whether a change matters. -/
theorem congr (h : IoAgree tasks table)
    (hstate : ∀ t, (tasks' t).state = .waitingIo ↔ (tasks t).state = .waitingIo)
    (hrecord : ∀ t, (tasks t).state = .waitingIo →
      (tasks' t).ioFd = (tasks t).ioFd ∧ (tasks' t).ioEvents = (tasks t).ioEvents) :
    IoAgree tasks' table := by
  refine ⟨h.valid, h.busy, ?_, ?_⟩
  · intro fd d t
    rw [h.slots]
    unfold Task.WaitsFor
    rw [hstate t]
    refine and_congr_right fun hw => ?_
    rw [(hrecord t hw).1, (hrecord t hw).2]
  · intro t hw
    have hold := (hstate t).mp hw
    rw [(hrecord t hold).2]
    exact h.parked t hold

/-- A task changes that waits for I/O neither before nor after. -/
theorem quiet (h : IoAgree tasks table) (hold : (tasks t).state ≠ .waitingIo)
    (hnew : τ.state ≠ .waitingIo) : IoAgree (Function.update tasks t τ) table := by
  refine h.congr (fun u => ?_) fun u hu => ?_
  · by_cases hut : u = t
    · subst hut
      rw [Function.update_self]
      exact ⟨fun habs => absurd habs hnew, fun habs => absurd habs hold⟩
    · rw [Function.update_of_ne hut]
  · have hut : u ≠ t := fun heq => hold (heq ▸ hu)
    rw [Function.update_of_ne hut]
    exact ⟨rfl, rfl⟩

/-- A task changes and keeps its state and its wait record. -/
theorem same (h : IoAgree tasks table) (hstate : τ.state = (tasks t).state)
    (hfd : τ.ioFd = (tasks t).ioFd) (hev : τ.ioEvents = (tasks t).ioEvents) :
    IoAgree (Function.update tasks t τ) table := by
  refine h.congr (fun u => ?_) fun u _ => ?_
  · by_cases hut : u = t
    · subst hut
      rw [Function.update_self, hstate]
    · rw [Function.update_of_ne hut]
  · by_cases hut : u = t
    · subst hut
      rw [Function.update_self]
      exact ⟨hfd, hev⟩
    · rw [Function.update_of_ne hut]
      exact ⟨rfl, rfl⟩

/-- The table is laid out anew. -/
theorem relayout (h : IoAgree tasks table) (hvalid : table'.Valid)
    (hlook : ∀ g, table'.lookup g = table.lookup g) : IoAgree tasks table' := by
  refine ⟨hvalid, ?_, ?_, h.parked⟩
  · intro fd e he
    rw [hlook] at he
    exact h.busy fd e he
  · intro fd d t
    rw [← h.slots, IoWaitTable.slot, hlook]
    rfl

/-- A task parks on a descriptor whose slot was free. -/
theorem park (h : IoAgree tasks table) {fd : Int} {d : Filter} {i : Nat}
    {e e' : IoWaitEntry} (hins : Inserted table fd table' i e)
    (hfree : e.slot d = none) (ht : (tasks t).state ≠ .waitingIo)
    (hstate : τ.state = .waitingIo) (hfd : τ.ioFd = fd)
    (hev : τ.ioEvents = IoEvents.none.put d true)
    (hslot : ∀ d', e'.slot d' = if d' = d then some t else e.slot d')
    (hused : e'.inUse = true) (hfd' : e'.fd = fd) :
    IoAgree (Function.update tasks t τ) (table'.setEntry i e') := by
  obtain ⟨hvalid, hlook⟩ :=
    hins.valid.store hins.entry hins.inUse hused (hfd'.trans hins.fdEq.symm)
  have hlook' : ∀ g, (table'.setEntry i e').lookup g =
      if g = fd then some e' else table.lookup g := by
    intro g
    rw [hlook g, hins.fdEq, hins.lookup g]
    by_cases hg : g = fd <;> simp [hg]
  -- the slots of the entry before the task was stored
  have hbefore : ∀ d', table.slot fd d' = e.slot d' := by
    intro d'
    unfold IoWaitTable.slot
    rcases hins.origin with horig | ⟨horig, he⟩
    · rw [horig]; rfl
    · rw [horig, he]
      cases d' <;> rfl
  refine ⟨hvalid, ?_, ?_, ?_⟩
  · intro g x hx
    rw [hlook'] at hx
    by_cases hg : g = fd
    · rw [if_pos hg] at hx
      cases hx
      intro hnone
      have := (ioWaitEntryEvents_eq_none_iff _).mp hnone d
      rw [hslot, if_pos rfl] at this
      simp at this
    · rw [if_neg hg] at hx
      exact h.busy g x hx
  · intro g d' u
    have hslots : (table'.setEntry i e').slot g d' =
        if g = fd ∧ d' = d then some t else table.slot g d' := by
      unfold IoWaitTable.slot
      rw [hlook']
      by_cases hg : g = fd
      · subst hg
        rw [if_pos rfl]
        show e'.slot d' = _
        rw [hslot, ← hbefore d']
        by_cases hd : d' = d <;> simp [hd, IoWaitTable.slot]
      · rw [if_neg hg, if_neg fun hp => hg hp.1]
    rw [hslots]
    by_cases hu : u = t
    · subst hu
      rw [Function.update_self]
      unfold Task.WaitsFor
      rw [hfd, hev, IoEvents.has_put_none]
      constructor
      · intro heq
        by_cases hcase : g = fd ∧ d' = d
        · exact ⟨hstate, hcase.1.symm, hcase.2⟩
        · rw [if_neg hcase, h.slots] at heq
          exact absurd heq.1 ht
      · intro ⟨_, hg, hd⟩
        rw [if_pos ⟨hg.symm, hd⟩]
    · rw [Function.update_of_ne hu, ← h.slots]
      by_cases hcase : g = fd ∧ d' = d
      · rw [if_pos hcase, hcase.1, hcase.2, hbefore d, hfree]
        exact ⟨fun heq => absurd (Option.some.inj heq).symm hu, fun heq => by simp at heq⟩
      · rw [if_neg hcase]
  · intro u hw
    by_cases hu : u = t
    · subst hu
      rw [Function.update_self]
      exact ⟨d, hev⟩
    · rw [Function.update_of_ne hu] at hw ⊢
      exact h.parked u hw

/-- The tasks `l` recorded for the chosen directions of a descriptor are taken out
and stop waiting. -/
theorem takeOut (h : IoAgree tasks table) {fd : Int} {ready : IoEvents} {l : List TaskId}
    (hl : ∀ t, t ∈ l ↔ ∃ d, ready.has d = true ∧ table.slot fd d = some t)
    (hwithout : table.Without fd ready table')
    (hout : ∀ t ∈ l, (tasks' t).state ≠ .waitingIo)
    (hkept : ∀ t, t ∉ l → tasks' t = tasks t) : IoAgree tasks' table' := by
  refine ⟨hwithout.valid, hwithout.busy, ?_, ?_⟩
  · intro g d u
    rw [hwithout.slots]
    by_cases hu : u ∈ l
    · obtain ⟨d', hready, hslot⟩ := (hl u).mp hu
      have hwait := (h.slots fd d' u).mp hslot
      constructor
      · intro heq
        by_cases hcase : g = fd ∧ ready.has d = true
        · simp [hcase] at heq
        · rw [if_neg hcase, h.slots] at heq
          obtain ⟨hfd, hd⟩ := h.waitsFor_unique heq hwait
          exact absurd ⟨hfd, hd ▸ hready⟩ hcase
      · intro hw
        exact absurd hw.1 (hout u hu)
    · rw [hkept u hu, ← h.slots]
      by_cases hcase : g = fd ∧ ready.has d = true
      · rw [if_pos hcase]
        constructor
        · intro heq
          simp at heq
        · intro heq
          rw [hcase.1] at heq
          exact absurd ((hl u).mpr ⟨d, hcase.2, heq⟩) hu
      · rw [if_neg hcase]
  · intro u hw
    by_cases hu : u ∈ l
    · exact absurd hw (hout u hu)
    · rw [hkept u hu] at hw ⊢
      exact h.parked u hw

end IoAgree

/-! ## Taking the tasks of some directions out of an entry -/

section TakeReady

variable {e : IoWaitEntry} {ready : IoEvents}

/-- No task is recorded in both slots. -/
def IoWaitEntry.Distinct (e : IoWaitEntry) : Prop :=
  ∀ t, e.readTask = some t → e.writeTask ≠ some t

/-- `take_ready_tasks` on an entry of distinct tasks, in one branch. -/
theorem takeReadyTasks_eq (h : e.Distinct) :
    takeReadyTasks e ready =
      ((if ready.read then e.readTask.toList else []) ++
        (if ready.write then e.writeTask.toList else []),
      { e with
        readTask := if ready.read then none else e.readTask
        writeTask := if ready.write then none else e.writeTask }) := by
  obtain ⟨fd, r, w, used⟩ := e
  obtain ⟨rr, rw⟩ := ready
  have hne : ∀ t, r = some t → w ≠ some t := h
  cases r with
  | none => cases w <;> cases rr <;> cases rw <;> simp [takeReadyTasks, ioWaitEntryClearTask]
  | some t =>
      have hw : w ≠ some t := hne t rfl
      cases w with
      | none => cases rr <;> cases rw <;> simp [takeReadyTasks, ioWaitEntryClearTask]
      | some u =>
          have hut : u ≠ t := fun heq => hw (by rw [heq])
          cases rr <;> cases rw <;>
            simp [takeReadyTasks, ioWaitEntryClearTask, hut, Ne.symm hut]

/-- The tasks taken are those of the ready directions. -/
theorem takeReadyTasks_mem (h : e.Distinct) (t : TaskId) :
    t ∈ (takeReadyTasks e ready).1 ↔ ∃ d, ready.has d = true ∧ e.slot d = some t := by
  rw [takeReadyTasks_eq h]
  constructor
  · intro hmem
    rcases List.mem_append.mp hmem with hm | hm
    · refine ⟨.read, ?_⟩
      by_cases hr : ready.read = true
      · rw [if_pos hr] at hm
        exact ⟨hr, Option.mem_toList.mp hm⟩
      · simp [hr] at hm
    · refine ⟨.write, ?_⟩
      by_cases hr : ready.write = true
      · rw [if_pos hr] at hm
        exact ⟨hr, Option.mem_toList.mp hm⟩
      · simp [hr] at hm
  · intro ⟨d, hd, hslot⟩
    refine List.mem_append.mpr ?_
    cases d with
    | read =>
        have hr : ready.read = true := hd
        have hs : e.readTask = some t := hslot
        exact .inl (by simp [hr, hs])
    | write =>
        have hr : ready.write = true := hd
        have hs : e.writeTask = some t := hslot
        exact .inr (by simp [hr, hs])

/-- No task is taken twice. -/
theorem takeReadyTasks_nodup (h : e.Distinct) : (takeReadyTasks e ready).1.Nodup := by
  rw [takeReadyTasks_eq h]
  obtain ⟨fd, r, w, used⟩ := e
  have hne : ∀ t, r = some t → w ≠ some t := h
  cases r with
  | none => cases w <;> cases ready.read <;> cases ready.write <;> simp
  | some t =>
      have hw : w ≠ some t := hne t rfl
      cases w with
      | none => cases ready.read <;> cases ready.write <;> simp
      | some u =>
          have hut : t ≠ u := fun heq => hw (by rw [heq])
          cases ready.read <;> cases ready.write <;> simp [hut]

/-- A direction that was ready is free afterwards, and the others stay. -/
theorem takeReadyTasks_slot (h : e.Distinct) (d : Filter) :
    (takeReadyTasks e ready).2.slot d = if ready.has d = true then none else e.slot d := by
  rw [takeReadyTasks_eq h]
  cases d <;> rfl

/-- The entry stays in use and keeps its descriptor. -/
theorem takeReadyTasks_fields (ready : IoEvents) (h : e.Distinct) :
    (takeReadyTasks e ready).2.inUse = e.inUse ∧ (takeReadyTasks e ready).2.fd = e.fd := by
  rw [takeReadyTasks_eq h]
  exact ⟨rfl, rfl⟩

end TakeReady

/-- Where table and tasks agree, an entry has two different tasks. -/
theorem IoAgree.distinct {tasks : TaskId → Task} {table : IoWaitTable} {fd : Int}
    {e : IoWaitEntry} (h : IoAgree tasks table) (he : table.lookup fd = some e) :
    e.Distinct := by
  intro t hr hw
  have hread : table.slot fd .read = some t := by
    unfold IoWaitTable.slot
    rw [he]; exact hr
  have hwrite : table.slot fd .write = some t := by
    unfold IoWaitTable.slot
    rw [he]; exact hw
  have := (h.waitsFor_unique ((h.slots _ _ _).mp hread) ((h.slots _ _ _).mp hwrite)).2
  simp at this

/-- What a table has under a descriptor after its entry was replaced or given up. -/
theorem IoAgree.without {tasks : TaskId → Task} {table table' : IoWaitTable} {fd : Int}
    {ready : IoEvents} {x : Option IoWaitEntry} (h : IoAgree tasks table)
    (hvalid : table'.Valid) (hlook : ∀ g, table'.lookup g = if g = fd then x else table.lookup g)
    (hbusy : ∀ e, x = some e → ioWaitEntryEvents e ≠ .none)
    (hslot : ∀ d, x.bind (·.slot d) =
      if ready.has d = true then none else table.slot fd d) :
    table.Without fd ready table' := by
  refine ⟨hvalid, ?_, ?_⟩
  · intro g e he
    rw [hlook] at he
    by_cases hg : g = fd
    · rw [if_pos hg] at he
      exact hbusy e he
    · rw [if_neg hg] at he
      exact h.busy g e he
  · intro g d
    unfold IoWaitTable.slot
    rw [hlook]
    by_cases hg : g = fd
    · subst hg
      rw [if_pos rfl, hslot]
      by_cases hr : ready.has d = true <;> simp [hr, IoWaitTable.slot]
    · rw [if_neg hg, if_neg fun hp => hg hp.1]

section Entry

variable {tasks : TaskId → Task} {table : IoWaitTable} {fd : Int} {i : Nat} {e : IoWaitEntry}
  (h : IoAgree tasks table) (hi : table.entries[i]? = some e) (hused : e.inUse = true)
  (hfd : e.fd = fd)
include h hi hused hfd

/-- The table after `wake_waiting_tasks_locked` took the tasks of the ready
directions out of the entry at `i`. -/
theorem ioAfterWake_without (hlook : table.lookup fd = some e) (ready : IoEvents) :
    table.Without fd ready (ioAfterWake table i (takeReadyTasks e ready).2) := by
  have hdist := h.distinct hlook
  obtain ⟨hu, hf⟩ := takeReadyTasks_fields ready hdist
  have hslots : ∀ d, (takeReadyTasks e ready).2.slot d =
      if ready.has d = true then none else table.slot fd d := by
    intro d
    rw [takeReadyTasks_slot hdist]
    unfold IoWaitTable.slot
    rw [hlook]
    rfl
  obtain ⟨hstore, hlooks⟩ := h.valid.store hi hused (hu.trans hused) hf
  rw [hfd] at hlooks
  unfold ioAfterWake
  by_cases hnone : ioWaitEntryEvents (takeReadyTasks e ready).2 = .none
  · rw [if_pos hnone]
    have hget := List.getElem?_set_self (a := (takeReadyTasks e ready).2)
      (List.getElem?_eq_some_iff.mp hi).1
    obtain ⟨hremove, hlooks'⟩ := hstore.remove hget (hu.trans hused)
    rw [hf, hfd] at hlooks'
    refine h.without (x := none) hremove ?_ (by simp) ?_
    · intro g
      rw [hlooks' g, hlooks g]
      by_cases hg : g = fd <;> simp [hg]
    · intro d
      have := (ioWaitEntryEvents_eq_none_iff _).mp hnone d
      rw [hslots] at this
      exact this.symm
  · rw [if_neg hnone]
    refine h.without hstore hlooks ?_ hslots
    intro x hx
    cases hx
    exact hnone

/-- The table after an entry was given up. -/
theorem removeEntry_without :
    table.Without fd .all (ioWaitTableRemoveEntry table i) := by
  obtain ⟨hremove, hlooks⟩ := h.valid.remove hi hused
  rw [hfd] at hlooks
  refine h.without (x := none) hremove hlooks (by simp) ?_
  intro d
  cases d <;> rfl

end Entry

/-! ## Parking -/

/-- The outcomes of `worker_park_current_on_io` for one direction: the task runs on
and the table stands for the same map, or it is recorded in a free slot. -/
inductive IoPark (o : Oracle) (s : Sys) (w : WorkerId) (t : TaskId) (fd : Int) (d : Filter) :
    Sys → Prop
  | refused {io : IoWaitTable} {poller : Poller} (hvalid : io.Valid)
      (hlook : ∀ g, io.lookup g = s.io.lookup g)
      (hpoller : poller = s.poller ∨ croutinePollerSet o.poller s.poller fd (s.io.events fd)
        ((s.io.events fd).union (IoEvents.none.put d true)) = (poller, false)) :
      IoPark o s w t fd d { s with io := io, poller := poller }
  | parked (hrun : s.shutdownRequested = false) {io : IoWaitTable} {i : Nat} {e : IoWaitEntry}
      {poller : Poller} (hins : Inserted s.io fd io i e) (hfree : e.slot d = none)
      (hset : croutinePollerSet o.poller s.poller fd (ioWaitEntryEvents e)
        ((ioWaitEntryEvents e).union (IoEvents.none.put d true)) = (poller, true)) :
      IoPark o s w t fd d
        (parkOnIo { s with io := io } w t fd (IoEvents.none.put d true) i e poller)

/-- The map is unchanged when the descriptor had its entry before. -/
theorem Inserted.same {table table' : IoWaitTable} {fd : Int} {i : Nat} {e : IoWaitEntry}
    (h : Inserted table fd table' i e) (hlook : table.lookup fd = some e) (g : Int) :
    table'.lookup g = table.lookup g := by
  rw [h.lookup]
  by_cases hg : g = fd
  · rw [if_pos hg, hg, hlook]
  · rw [if_neg hg]

/-- The events of the entry a park works on are those the table had. -/
theorem Inserted.events {table table' : IoWaitTable} {fd : Int} {i : Nat} {e : IoWaitEntry}
    (h : Inserted table fd table' i e) : table.events fd = ioWaitEntryEvents e := by
  unfold IoWaitTable.events
  rcases h.origin with horig | ⟨horig, he⟩
  · rw [horig]
  · rw [horig, he]; rfl

/-- A fresh entry has no tasks. -/
theorem freshIoWaitEntry_slot (fd : Int) (d : Filter) : (freshIoWaitEntry fd).slot d = none := by
  cases d <;> rfl

/-- Some requested direction is taken. -/
theorem ioWaitEntry_busy (events : IoEvents) (e : IoWaitEntry) :
    (events.read && (ioWaitEntryEvents e).read || events.write && (ioWaitEntryEvents e).write) =
      true ↔ ∃ d, events.has d = true ∧ e.slot d ≠ none := by
  constructor
  · intro h
    rw [Bool.or_eq_true, Bool.and_eq_true, Bool.and_eq_true] at h
    rcases h with ⟨he, ht⟩ | ⟨he, ht⟩
    · exact ⟨.read, he, Option.isSome_iff_ne_none.mp ht⟩
    · exact ⟨.write, he, Option.isSome_iff_ne_none.mp ht⟩
  · rintro ⟨d, he, ht⟩
    rw [Bool.or_eq_true, Bool.and_eq_true, Bool.and_eq_true]
    cases d with
    | read => exact .inl ⟨he, Option.isSome_iff_ne_none.mpr ht⟩
    | write => exact .inr ⟨he, Option.isSome_iff_ne_none.mpr ht⟩

/-- The outcomes of `worker_park_current_on_io` for any set of directions: the task runs on
and the table stands for the same map, or it is recorded in free slots. -/
theorem workerParkCurrentOnIo_outcome {s : Sys} (h : IoAgree s.tasks s.io) (o : Oracle)
    (w : WorkerId) (t : TaskId) (fd : Int) (events : IoEvents) :
    (∃ io poller, workerParkCurrentOnIo o s w t fd events = { s with io := io, poller := poller } ∧
      io.Valid ∧ (∀ g, io.lookup g = s.io.lookup g) ∧
      (poller = s.poller ∨ croutinePollerSet o.poller s.poller fd (s.io.events fd)
        ((s.io.events fd).union events) = (poller, false))) ∨
    (s.shutdownRequested = false ∧ ∃ io i e poller, Inserted s.io fd io i e ∧
      (∀ d, events.has d = true → e.slot d = none) ∧
      croutinePollerSet o.poller s.poller fd (ioWaitEntryEvents e)
        ((ioWaitEntryEvents e).union events) = (poller, true) ∧
      workerParkCurrentOnIo o s w t fd events =
        parkOnIo { s with io := io } w t fd events i e poller) := by
  unfold workerParkCurrentOnIo
  split
  · exact .inl ⟨s.io, s.poller, rfl, h.valid, fun _ => rfl, .inl rfl⟩
  · next hgo =>
    have hrun : s.shutdownRequested = false := by
      simp only [Bool.or_eq_true, not_or, Bool.not_eq_true] at hgo
      exact hgo.2
    split
    · next io hinsert =>
      rcases ioWaitTableGetOrInsert_valid h.valid hinsert with ⟨_, _, _, rfl⟩ | ⟨i, e, hi, _⟩
      · exact .inl ⟨s.io, s.poller, rfl, h.valid, fun _ => rfl, .inl rfl⟩
      · exact absurd hi (by simp)
    · next io i hinsert =>
      rcases ioWaitTableGetOrInsert_valid h.valid hinsert with ⟨hr, _⟩ | ⟨j, e, hi, hins⟩
      · exact absurd hr (by simp)
      · cases hi
        have hentry : io.entries.getD i ioWaitEntryReset = e := by
          rw [List.getD_eq_getElem?_getD, hins.entry]; rfl
        rw [hentry]
        dsimp only
        -- an entry with a task is not a fresh one
        have hknown : ∀ d', e.slot d' ≠ none → s.io.lookup fd = some e := by
          intro d' hd'
          rcases hins.origin with horig | ⟨_, hfresh⟩
          · exact horig
          · rw [hfresh] at hd'
            exact absurd (freshIoWaitEntry_slot fd d') hd'
        split
        · next hbusy =>
          obtain ⟨d, _, hd⟩ := (ioWaitEntry_busy events e).mp hbusy
          exact .inl ⟨io, s.poller, rfl, hins.valid, hins.same (hknown d hd), .inl rfl⟩
        · next hbusy =>
          have hfree : ∀ d, events.has d = true → e.slot d = none := by
            intro d hd
            by_contra hne
            exact hbusy ((ioWaitEntry_busy events e).mpr ⟨d, hd, hne⟩)
          split
          · next poller hset => exact .inr ⟨hrun, io, i, e, poller, hins, hfree, hset, rfl⟩
          · next poller hset =>
            by_cases hnone : ioWaitEntryEvents e = .none
            · rw [if_pos hnone]
              have hfresh : s.io.lookup fd = none := by
                rcases hins.origin with horig | ⟨horig, _⟩
                · exact absurd hnone (h.busy fd e horig)
                · exact horig
              obtain ⟨hvalid, hlook⟩ := hins.valid.remove hins.entry hins.inUse
              refine .inl ⟨_, poller, rfl, hvalid, ?_, .inr (by rw [hins.events]; exact hset)⟩
              intro g
              rw [hlook g, hins.fdEq, hins.lookup g]
              by_cases hg : g = fd <;> simp [hg, hfresh]
            · rw [if_neg hnone]
              have hlook : s.io.lookup fd = some e := by
                rw [ioWaitEntryEvents_eq_none_iff, not_forall] at hnone
                obtain ⟨d', hd'⟩ := hnone
                exact hknown d' hd'
              exact .inl ⟨io, poller, rfl, hins.valid, hins.same hlook,
                .inr (by rw [hins.events]; exact hset)⟩

/-- **Parking on a descriptor.** The call has one of the outcomes. -/
theorem workerParkCurrentOnIo_cases {s : Sys} (h : IoAgree s.tasks s.io) (o : Oracle)
    (w : WorkerId) (t : TaskId) (fd : Int) (d : Filter) :
    IoPark o s w t fd d (workerParkCurrentOnIo o s w t fd (IoEvents.none.put d true)) := by
  rcases workerParkCurrentOnIo_outcome h o w t fd (IoEvents.none.put d true) with
    ⟨io, poller, heq, hvalid, hlook, hpoller⟩ | ⟨hrun, io, i, e, poller, hins, hfree, hset, heq⟩
  · rw [heq]
    exact .refused hvalid hlook hpoller
  · rw [heq]
    exact .parked hrun hins (hfree d ((IoEvents.has_put_none d d).mpr rfl)) hset

/-- The entry of a descriptor after a task was stored in a free slot. -/
theorem parkOnIo_slot (e : IoWaitEntry) (t : TaskId) (d d' : Filter) :
    IoWaitEntry.slot { e with
      readTask := if (IoEvents.none.put d true).read then some t else e.readTask
      writeTask := if (IoEvents.none.put d true).write then some t else e.writeTask } d' =
      if d' = d then some t else e.slot d' := by
  cases d <;> cases d' <;> rfl

/-- The poller follows the entry in which a task is stored. -/
theorem watch_park {o : PollerOracle} {p q : Poller} {table table' : IoWaitTable} {fd : Int}
    {d : Filter} {i : Nat} {t : TaskId} {e e' : IoWaitEntry} (hwatch : IoWatch p table)
    (hins : Inserted table fd table' i e)
    (hslot : ∀ d', e'.slot d' = if d' = d then some t else e.slot d')
    (hused : e'.inUse = true) (hfd : e'.fd = fd)
    (hset : croutinePollerSet o p fd (ioWaitEntryEvents e)
      ((ioWaitEntryEvents e).union (IoEvents.none.put d true)) = (q, true)) :
    IoWatch q (table'.setEntry i e') := by
  obtain ⟨_, hlook⟩ := hins.valid.store hins.entry hins.inUse hused (hfd.trans hins.fdEq.symm)
  obtain ⟨_, hnew, hothers⟩ := croutinePollerSet_ok hset (hins.events ▸ hwatch fd)
  intro g
  by_cases hg : g = fd
  · subst hg
    have hevents : (table'.setEntry i e').events g =
        (ioWaitEntryEvents e).union (IoEvents.none.put d true) := by
      refine IoEvents.ext_has fun d' => ?_
      unfold IoWaitTable.events
      rw [hlook, if_pos hins.fdEq.symm]
      show (ioWaitEntryEvents e').has d' = _
      rw [ioWaitEntryEvents_has, hslot]
      cases d <;> cases d' <;>
        simp [IoEvents.union, IoEvents.put, IoEvents.has, IoEvents.none, ioWaitEntryEvents,
          IoWaitEntry.slot]
    rw [hevents]
    exact hnew
  · have hsame : (table'.setEntry i e').events g = table.events g := by
      unfold IoWaitTable.events
      rw [hlook, hins.fdEq, if_neg hg, hins.lookup, if_neg hg]
    rw [hsame]
    exact hothers g _ hg (hwatch g)

end Croutine
