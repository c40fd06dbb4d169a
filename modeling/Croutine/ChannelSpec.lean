import Mathlib.Logic.Relation
import Mathlib.Tactic.Common
import Croutine.Select

/-!
# What the channel operations do

One inversion result per operation of `channel.c`, so that no later proof unfolds
an operation.  The state besides the channels changes only by wakes, and a wake
does not read the channels, so every result separates the two: the new channel
state is written out, and the rest is the old state or the result of one
`worker_wake_task_locked`.

`Chans.dropHeads` is what a run of `wait_queue_pop_head` calls leaves behind;
`popLiveWaiterLocked_some` and `popLiveWaiterLocked_none` say which waiters
`pop_live_waiter_locked` removes.
-/

namespace Croutine

namespace Chans

variable (κ : Chans) (c c' : ChanId) (op op' : Direction) (w w' : WaiterId)

/-! ## Reading a channel state after one update -/

/-- The queues after a channel is overwritten. -/
theorem queue_setChan (ch : Channel) :
    (κ.setChan c ch).queue c' op = if c' = c then ch.queue op else κ.queue c' op := by
  by_cases h : c' = c <;> simp [queue, setChan, h]

/-- The queues after one of them is overwritten. -/
@[simp] theorem queue_setQueue (q : List WaiterId) :
    (κ.setQueue c op q).queue c' op' =
      if c' = c ∧ op' = op then q else κ.queue c' op' := by
  by_cases h : c' = c <;> simp [queue, setQueue, setChan, h]

@[simp] theorem queue_setLink (link : Option ChanId) :
    (κ.setLink w link).queue c op = κ.queue c op := rfl

@[simp] theorem queue_setSelect (k : CallId) (st : SelectState) :
    (κ.setSelect k st).queue c op = κ.queue c op := rfl

@[simp] theorem queue_record (e : Event) : (κ.record e).queue c op = κ.queue c op := rfl

@[simp] theorem queue_copyValue (dst : Addr) (v : Bytes) :
    (κ.copyValue dst v).queue c op = κ.queue c op := rfl

@[simp] theorem queue_tick : κ.tick.queue c op = κ.queue c op := rfl

/-- A value that enters a buffer moves no waiter. -/
@[simp] theorem queue_bufferPush (v : Bytes) :
    (κ.bufferPush c v).queue c' op = κ.queue c' op := by
  rw [bufferPush, queue_setChan]
  split
  · next h => subst h; cases op <;> rfl
  · rfl

/-- A value that leaves a buffer moves no waiter. -/
@[simp] theorem queue_bufferPop (v : Bytes) (rest : List Bytes) (out : Addr) :
    (κ.bufferPop c v rest out).queue c' op = κ.queue c' op := by
  rw [bufferPop, queue_copyValue, queue_setChan]
  split
  · next h => subst h; cases op <;> rfl
  · rfl

/-- Liveness reads only the kind, the select state and its `done` flag. -/
theorem live_congr {κ κ' : Chans} {w : WaiterId}
    (hkind : (κ'.waiter w).kind = (κ.waiter w).kind)
    (hstate : (κ'.waiter w).state = (κ.waiter w).state)
    (hselect : ∀ k, (κ.waiter w).state = some k → κ'.select k = κ.select k) :
    κ'.live w = κ.live w := by
  simp only [live, hkind, hstate]
  split
  · next k _ hk => rw [hselect k hk]
  · rfl

@[simp] theorem live_record (e : Event) : (κ.record e).live w = κ.live w := rfl

@[simp] theorem live_copyValue (dst : Addr) (v : Bytes) :
    (κ.copyValue dst v).live w = κ.live w := rfl

@[simp] theorem live_setChan (ch : Channel) : (κ.setChan c ch).live w = κ.live w := rfl

@[simp] theorem live_tick : κ.tick.live w = κ.live w := rfl

@[simp] theorem live_bufferPush (v : Bytes) : (κ.bufferPush c v).live w = κ.live w := rfl

@[simp] theorem live_bufferPop (v : Bytes) (rest : List Bytes) (out : Addr) :
    (κ.bufferPop c v rest out).live w = κ.live w := rfl

/-! ## Removing waiters from the head of a queue -/

/-- The waiters `gone` were popped from the head of a queue that keeps `rest`. -/
def dropHeads (gone rest : List WaiterId) : Chans :=
  { κ with
    chan := Function.update κ.chan c ((κ.chan c).setQueue op rest)
    waiter := fun w =>
      if w ∈ gone then { κ.waiter w with channel := none } else κ.waiter w }

variable (gone rest : List WaiterId)

/-- Taking out one head is taking out a list of one. -/
theorem dropHead_eq_dropHeads : κ.dropHead c op w rest = κ.dropHeads c op [w] rest := by
  have hwaiter : Function.update κ.waiter w { κ.waiter w with channel := none } =
      fun x => if x ∈ [w] then { κ.waiter x with channel := none } else κ.waiter x := by
    funext x
    by_cases hx : x = w
    · subst hx; simp
    · simp [hx]
  simpa [dropHead, dropHeads, setLink, setQueue, setChan] using hwaiter

/-- Taking heads out of one queue leaves the others alone. -/
@[simp] theorem queue_dropHeads :
    (κ.dropHeads c op gone rest).queue c' op' =
      if c' = c ∧ op' = op then rest else κ.queue c' op' := by
  by_cases h : c' = c <;> simp [queue, dropHeads, h]

/-- The waiters that are taken out are unlinked, and no other field of a waiter changes. -/
theorem waiter_dropHeads :
    (κ.dropHeads c op gone rest).waiter w =
      if w ∈ gone then { κ.waiter w with channel := none } else κ.waiter w := rfl

@[simp] theorem dropHeads_kind :
    ((κ.dropHeads c op gone rest).waiter w).kind = (κ.waiter w).kind := by
  rw [waiter_dropHeads]; split <;> rfl

@[simp] theorem dropHeads_state :
    ((κ.dropHeads c op gone rest).waiter w).state = (κ.waiter w).state := by
  rw [waiter_dropHeads]; split <;> rfl

@[simp] theorem dropHeads_task :
    ((κ.dropHeads c op gone rest).waiter w).task = (κ.waiter w).task := by
  rw [waiter_dropHeads]; split <;> rfl

@[simp] theorem dropHeads_valueSlot :
    ((κ.dropHeads c op gone rest).waiter w).valueSlot = (κ.waiter w).valueSlot := by
  rw [waiter_dropHeads]; split <;> rfl

@[simp] theorem dropHeads_caseIndex :
    ((κ.dropHeads c op gone rest).waiter w).caseIndex = (κ.waiter w).caseIndex := by
  rw [waiter_dropHeads]; split <;> rfl

/-- Who is taken out stays alive or dead. -/
@[simp] theorem dropHeads_live : (κ.dropHeads c op gone rest).live w = κ.live w :=
  live_congr (by simp) (by simp) fun _ _ => rfl

/-- Removing heads leaves every field of every channel but the queue. -/
theorem dropHeads_chan :
    (κ.dropHeads c op gone rest).chan c' =
      if c' = c then (κ.chan c).setQueue op rest else κ.chan c' := by
  by_cases h : c' = c <;> simp [dropHeads, h]

/-- Taking waiters out moves no value. -/
@[simp] theorem dropHeads_buffer :
    ((κ.dropHeads c op gone rest).chan c').buffer = (κ.chan c').buffer := by
  rw [dropHeads_chan]; split <;> simp_all

@[simp] theorem dropHeads_capacity :
    ((κ.dropHeads c op gone rest).chan c').capacity = (κ.chan c').capacity := by
  rw [dropHeads_chan]; split <;> simp_all

/-- Taking waiters out closes no channel. -/
@[simp] theorem dropHeads_closed :
    ((κ.dropHeads c op gone rest).chan c').closed = (κ.chan c').closed := by
  rw [dropHeads_chan]; split <;> simp_all

@[simp] theorem dropHeads_elemSize :
    ((κ.dropHeads c op gone rest).chan c').elemSize = (κ.chan c').elemSize := by
  rw [dropHeads_chan]; split <;> simp_all

@[simp] theorem dropHeads_select (k : CallId) :
    (κ.dropHeads c op gone rest).select k = κ.select k := rfl

@[simp] theorem dropHeads_mem : (κ.dropHeads c op gone rest).mem = κ.mem := rfl

@[simp] theorem dropHeads_log : (κ.dropHeads c op gone rest).log = κ.log := rfl

@[simp] theorem dropHeads_clock : (κ.dropHeads c op gone rest).clock = κ.clock := rfl

@[simp] theorem dropHeads_registry :
    (κ.dropHeads c op gone rest).registry = κ.registry := rfl

@[simp] theorem dropHeads_nextChan :
    (κ.dropHeads c op gone rest).nextChan = κ.nextChan := rfl

/-- Taking heads out twice is taking out all of them. -/
theorem dropHeads_dropHeads (gone' rest' : List WaiterId) :
    (κ.dropHeads c op gone rest).dropHeads c op gone' rest' =
      κ.dropHeads c op (gone ++ gone') rest' := by
  have hchan : ((κ.chan c).setQueue op rest).setQueue op rest' =
      (κ.chan c).setQueue op rest' := by
    cases op <;> rfl
  have hwaiter : (fun x =>
      if x ∈ gone' then { (if x ∈ gone then { κ.waiter x with channel := none }
        else κ.waiter x) with channel := none }
      else if x ∈ gone then { κ.waiter x with channel := none } else κ.waiter x) =
      fun x => if x ∈ gone ++ gone' then { κ.waiter x with channel := none }
        else κ.waiter x := by
    funext x
    by_cases h : x ∈ gone <;> by_cases h' : x ∈ gone' <;> simp [h, h']
  simp only [dropHeads, Function.update_self, Function.update_idem, hchan, hwaiter]

/-- Taking nobody out changes nothing. -/
theorem dropHeads_nil (hqueue : κ.queue c op = rest) : κ.dropHeads c op [] rest = κ := by
  have hchan : (κ.chan c).setQueue op rest = κ.chan c := by
    subst hqueue; cases op <;> rfl
  simp [dropHeads, hchan]

end Chans

/-! ## Popping a live waiter -/

/-- The loop of `pop_live_waiter_locked`: it drops the dead waiters in front of
the first live one, and that one too. -/
theorem popLive_cases (c : ChanId) (op : Direction) :
    ∀ (q : List WaiterId) (κ : Chans), κ.queue c op = q →
      ((∀ w ∈ q, κ.live w = false) ∧
        Chans.popLive c op q κ = (κ.dropHeads c op q [], none)) ∨
      ∃ dead w rest, q = dead ++ w :: rest ∧ (∀ x ∈ dead, κ.live x = false) ∧
        κ.live w = true ∧
        Chans.popLive c op q κ = (κ.dropHeads c op (dead ++ [w]) rest, some w) := by
  intro q
  induction q with
  | nil =>
      intro κ hq
      exact .inl ⟨by simp, by rw [κ.dropHeads_nil c op [] hq]; rfl⟩
  | cons w rest ih =>
      intro κ hq
      rw [Chans.popLive, κ.dropHead_eq_dropHeads, Chans.dropHeads_live]
      by_cases hlive : κ.live w = true
      · exact .inr ⟨[], w, rest, rfl, by simp, hlive, by simp [hlive]⟩
      · rw [if_neg hlive]
        have hdead : κ.live w = false := by simpa using hlive
        rcases ih (κ.dropHeads c op [w] rest) (by simp) with
          ⟨hall, heq⟩ | ⟨dead, x, tail, hsplit, hall, hx, heq⟩
        · refine .inl ⟨?_, by rw [heq, Chans.dropHeads_dropHeads]; rfl⟩
          intro y hy
          rcases List.mem_cons.mp hy with rfl | hy
          · exact hdead
          · simpa using hall y hy
        · refine .inr ⟨w :: dead, x, tail, by simp [hsplit], ?_, by simpa using hx, ?_⟩
          · intro y hy
            rcases List.mem_cons.mp hy with rfl | hy
            · exact hdead
            · simpa using hall y hy
          · rw [heq, Chans.dropHeads_dropHeads]; rfl

/-- Without a live waiter the whole queue is taken out. -/
theorem popLiveWaiterLocked_none {κ κ' : Chans} {c : ChanId} {op : Direction}
    (h : κ.popLiveWaiterLocked c op = (κ', none)) :
    (∀ w ∈ κ.queue c op, κ.live w = false) ∧
      κ' = κ.dropHeads c op (κ.queue c op) [] := by
  rcases popLive_cases c op _ κ rfl with ⟨hall, heq⟩ | ⟨_, _, _, _, _, _, heq⟩
  · rw [Chans.popLiveWaiterLocked, heq] at h
    exact ⟨hall, (Prod.mk.inj h).1.symm⟩
  · rw [Chans.popLiveWaiterLocked, heq] at h
    exact absurd (Prod.mk.inj h).2 (by simp)

/-- The first live waiter is popped, with the dead ones in front of it. -/
theorem popLiveWaiterLocked_some {κ κ' : Chans} {c : ChanId} {op : Direction} {w : WaiterId}
    (h : κ.popLiveWaiterLocked c op = (κ', some w)) :
    ∃ dead rest, κ.queue c op = dead ++ w :: rest ∧ (∀ x ∈ dead, κ.live x = false) ∧
      κ.live w = true ∧ κ' = κ.dropHeads c op (dead ++ [w]) rest := by
  rcases popLive_cases c op _ κ rfl with ⟨_, heq⟩ | ⟨dead, x, rest, hq, hall, hx, heq⟩
  · rw [Chans.popLiveWaiterLocked, heq] at h
    exact absurd (Prod.mk.inj h).2 (by simp)
  · rw [Chans.popLiveWaiterLocked, heq] at h
    obtain ⟨hκ, hw⟩ := Prod.mk.inj h
    cases hw
    exact ⟨dead, rest, hq, hall, hx, hκ.symm⟩

/-! ## Waking -/

/-- The capacity `cap` is `n` after some doublings. -/
def Doubled (n cap : Nat) : Prop := ∃ k, cap = n * 2 ^ k

namespace Doubled

variable {n m cap : Nat}

/-- A capacity is itself doubled no times. -/
theorem refl (n : Nat) : Doubled n n := ⟨0, by simp⟩

/-- Doublings add up. -/
theorem trans (h : Doubled n m) (h' : Doubled m cap) : Doubled n cap := by
  obtain ⟨i, rfl⟩ := h
  obtain ⟨j, rfl⟩ := h'
  exact ⟨i + j, by rw [Nat.pow_add, Nat.mul_assoc]⟩

/-- A doubled capacity is positive when the first one was. -/
theorem pos (h : Doubled n cap) (hn : 0 < n) : 0 < cap := by
  obtain ⟨k, rfl⟩ := h
  exact Nat.mul_pos hn (Nat.two_pow_pos k)

end Doubled

/-- A push that succeeds leaves a queued task where it is and appends any other, in a ring
that has grown if it was full. -/
theorem taskQueuePush_some {o : Oracle} {s s' : Sys} {t : TaskId}
    (h : taskQueuePush o s t = some s') :
    ((s.tasks t).queued = true ∧ s' = s) ∨
      ((s.tasks t).queued = false ∧ ∃ cap, Doubled s.runq.capacity cap ∧
        s' = taskQueueAppend s ⟨s.runq.tasks, cap⟩ t) := by
  unfold taskQueuePush taskQueueGrow at h
  split at h
  · exact absurd h (by simp)
  · next hcap =>
    split at h
    · next hqueued => exact .inl ⟨hqueued, (Option.some.inj h).symm⟩
    · next hqueued =>
      refine .inr ⟨by simpa using hqueued, ?_⟩
      split at h
      · split at h
        · exact ⟨s.runq.capacity * 2, ⟨1, rfl⟩, (Option.some.inj h).symm⟩
        · exact absurd h (by simp)
      · exact ⟨s.runq.capacity, .refl _, (Option.some.inj h).symm⟩

/-- A task after a wake moved it to the run queue. -/
def Task.requeued (task : Task) : Task :=
  { task with state := .runnable, queued := true, ioFd := -1, ioEvents := .none }

/-- The run queue after a push that stores a task unless it is queued already. -/
def RunQueue.pushed (q : RunQueue) (t : TaskId) (queued : Bool) (cap : Nat) : RunQueue :=
  ⟨if queued then q.tasks else q.tasks ++ [t], cap⟩

/-- A task that becomes runnable is appended to the run queue, which may have been doubled. -/
theorem enqueueRunnableTaskLocked_some {o : Oracle} {s s' : Sys} {t : TaskId}
    (h : enqueueRunnableTaskLocked o s t = some s') :
    ∃ cap, Doubled s.runq.capacity cap ∧
      s' = { s with
        tasks := Function.update s.tasks t (s.tasks t).requeued
        runq := s.runq.pushed t (s.tasks t).queued cap } := by
  rcases taskQueuePush_some h with ⟨hqueued, rfl⟩ | ⟨hqueued, cap, hcap, rfl⟩
  · simp only [Sys.setTask, Function.update_self] at hqueued
    refine ⟨s.runq.capacity, .refl _, ?_⟩
    simp [Sys.setTask, Task.requeued, RunQueue.pushed, hqueued]
  · simp only [Sys.setTask, Function.update_self] at hqueued
    refine ⟨cap, hcap, ?_⟩
    simp [taskQueueAppend, Sys.setTask, Task.requeued, RunQueue.pushed, hqueued]

/-- What `worker_wake_task_locked` does when it succeeds. -/
theorem workerWakeTaskLocked_some {o : Oracle} {s s' : Sys} {t : TaskId} {success : Bool}
    (h : workerWakeTaskLocked o s t success = some s') :
    (s.tasks t).state = .waitingChannel ∧
    ∃ cap, Doubled s.runq.capacity cap ∧
      s' = { s with
        tasks := Function.update s.tasks t
          { (s.tasks t).requeued with channelWakeSuccess := success }
        runq := s.runq.pushed t (s.tasks t).queued cap
        wk := s.wk.wakeForTask o.pick } := by
  unfold workerWakeTaskLocked at h
  split at h
  · exact absurd h (by simp)
  · next hstate =>
    obtain ⟨s1, hs1, rfl⟩ := Option.map_eq_some_iff.mp h
    obtain ⟨cap, hcap, rfl⟩ := enqueueRunnableTaskLocked_some hs1
    refine ⟨by simpa using hstate, cap, hcap, ?_⟩
    simp [Sys.mapWk, Sys.setTask, Task.requeued]

/-- A wake does not look at the channels. -/
theorem workerWakeTaskLocked_ch (o : Oracle) (s : Sys) (κ : Chans) (t : TaskId)
    (success : Bool) :
    workerWakeTaskLocked o { s with ch := κ } t success =
      (workerWakeTaskLocked o s t success).map fun s => { s with ch := κ } := by
  simp only [workerWakeTaskLocked, enqueueRunnableTaskLocked, taskQueuePush, taskQueueGrow,
    Sys.setTask, Function.update_self]
  split_ifs <;> rfl

/-- The channel state after `complete_waiter_locked`. -/
def Chans.completed (κ : Chans) (w : WaiterId) (status : SelectStatus) : Chans :=
  (κ.markDone w status).record (.woken (κ.waiter w).task w.call true)

/-- A wake that did not abort went through `worker_wake_task_locked`, and is logged. -/
theorem wakeWaiter_ok {o : Oracle} {s s' : Sys} {κ : Chans} {w : WaiterId} {success : Bool}
    {message : String} (h : wakeWaiter o { s with ch := κ } w success message = .ok s') :
    ∃ s1, workerWakeTaskLocked o s (κ.waiter w).task success = some s1 ∧
      s' = { s1 with ch := κ.record (.woken (κ.waiter w).task w.call success) } := by
  unfold wakeWaiter at h
  split at h
  · next s2 hs2 =>
    rw [workerWakeTaskLocked_ch] at hs2
    obtain ⟨s1, hs1, rfl⟩ := Option.map_eq_some_iff.mp hs2
    exact ⟨s1, hs1, (Except.ok.inj h).symm⟩
  · exact absurd h (by simp)

/-- Ending a select changes no waiter. -/
@[simp] theorem Chans.waiter_markDone (κ : Chans) (w : WaiterId) (status : SelectStatus) :
    (κ.markDone w status).waiter = κ.waiter := by
  unfold markDone; split <;> rfl

/-- A waiter that is completed has its select ended and its task woken with success. -/
theorem completeWaiterLocked_ok {o : Oracle} {s s' : Sys} {κ : Chans} {w : WaiterId}
    {status : SelectStatus} (h : completeWaiterLocked o { s with ch := κ } w status = .ok s') :
    ∃ s1, workerWakeTaskLocked o s (κ.waiter w).task true = some s1 ∧
      s' = { s1 with ch := κ.completed w status } := by
  obtain ⟨s1, hs1, hs'⟩ := wakeWaiter_ok (s := s) (κ := κ.markDone w status) h
  rw [Chans.waiter_markDone] at hs1 hs'
  exact ⟨s1, hs1, hs'⟩

/-! ## The two non-blocking attempts -/

/-- Taking waiters out leaves the values in memory. -/
@[simp] theorem Chans.valueAt_dropHeads (κ : Chans) (c c' : ChanId) (op : Direction)
    (gone rest : List WaiterId) (src : Addr) :
    (κ.dropHeads c op gone rest).valueAt c' src = κ.valueAt c' src := by
  simp [valueAt]

/-- The value of `offer` went to the live receiver `r` behind the dead ones. -/
def Chans.handedTo (κ : Chans) (c : ChanId) (offer r : WaiterId) (value : Addr)
    (dead rest : List WaiterId) : Chans :=
  let v := κ.valueAt c value
  let slot := (κ.waiter r).valueSlot
  (((κ.dropHeads c .recv (dead ++ [r]) rest).copyValue slot v).record
    (.handoff c offer r slot v)).completed r .value

/-- The value of the live sender `x` behind the dead ones went to `offer`. -/
def Chans.takenFrom (κ : Chans) (c : ChanId) (offer x : WaiterId) (out : Addr)
    (dead rest : List WaiterId) : Chans :=
  let v := κ.valueAt c (κ.waiter x).valueSlot
  (((κ.dropHeads c .send (dead ++ [x]) rest).copyValue out v).record
    (.handoff c x offer out v)).completed x .sent

/-- The value of the live sender `x` behind the dead ones entered the buffer. -/
def Chans.bufferedFrom (κ : Chans) (c : ChanId) (x : WaiterId)
    (dead rest : List WaiterId) : Chans :=
  let v := κ.valueAt c (κ.waiter x).valueSlot
  (((κ.dropHeads c .send (dead ++ [x]) rest).bufferPush c v).record
    (.buffered c x v)).completed x .sent

/-- The outcomes of `try_send_locked`. -/
inductive TrySend (o : Oracle) (s : Sys) (c : ChanId) (offer : WaiterId) (value : Addr) :
    Sys → SendResult → Prop
  | refused (h : (s.ch.chan c).closed = true ∨ s.shutdownRequested = true) :
      TrySend o s c offer value
        { s with ch := s.ch.record (.closed c offer (s.ch.chan c).closed) } .closed
  | handed (hopen : (s.ch.chan c).closed = false) (hrun : s.shutdownRequested = false)
      {dead rest : List WaiterId} {r : WaiterId}
      (hqueue : s.ch.queue c .recv = dead ++ r :: rest)
      (hdead : ∀ x ∈ dead, s.ch.live x = false) (hlive : s.ch.live r = true)
      {s1 : Sys} (hwake : workerWakeTaskLocked o s (s.ch.waiter r).task true = some s1) :
      TrySend o s c offer value
        { s1 with ch := s.ch.handedTo c offer r value dead rest } .ok
  | buffered (hopen : (s.ch.chan c).closed = false) (hrun : s.shutdownRequested = false)
      (hdead : ∀ x ∈ s.ch.queue c .recv, s.ch.live x = false)
      (hroom : (s.ch.chan c).buffer.length < (s.ch.chan c).capacity) :
      TrySend o s c offer value
        { s with
          ch := ((s.ch.dropHeads c .recv (s.ch.queue c .recv) []).bufferPush c
            (s.ch.valueAt c value)).record (.buffered c offer (s.ch.valueAt c value)) } .ok
  | blocked (hopen : (s.ch.chan c).closed = false) (hrun : s.shutdownRequested = false)
      (hdead : ∀ x ∈ s.ch.queue c .recv, s.ch.live x = false)
      (hfull : (s.ch.chan c).capacity ≤ (s.ch.chan c).buffer.length) :
      TrySend o s c offer value
        { s with ch := s.ch.dropHeads c .recv (s.ch.queue c .recv) [] } .wouldBlock

/-- `wake_waiting_receiver_locked` hands the value to the first live receiver, or finds none.
-/
theorem wakeWaitingReceiverLocked_ok {o : Oracle} {s s' : Sys} {c : ChanId}
    {offer : WaiterId} {value : Addr} {woke : Bool}
    (h : wakeWaitingReceiverLocked o s c offer value = .ok (s', woke)) :
    (woke = false ∧ (∀ x ∈ s.ch.queue c .recv, s.ch.live x = false) ∧
      s' = { s with ch := s.ch.dropHeads c .recv (s.ch.queue c .recv) [] }) ∨
    (woke = true ∧ ∃ dead r rest, s.ch.queue c .recv = dead ++ r :: rest ∧
      (∀ x ∈ dead, s.ch.live x = false) ∧ s.ch.live r = true ∧
      ∃ s1, workerWakeTaskLocked o s (s.ch.waiter r).task true = some s1 ∧
        s' = { s1 with ch := s.ch.handedTo c offer r value dead rest }) := by
  unfold wakeWaitingReceiverLocked at h
  split at h
  · next κ hpop =>
    obtain ⟨hdead, rfl⟩ := popLiveWaiterLocked_none hpop
    obtain ⟨rfl, rfl⟩ := Prod.mk.inj (Except.ok.inj h)
    exact .inl ⟨rfl, hdead, rfl⟩
  · next κ r hpop =>
    obtain ⟨dead, rest, hq, hdead, hlive, rfl⟩ := popLiveWaiterLocked_some hpop
    obtain ⟨s2, hs2, hret⟩ := Res.bind_ok.mp h
    obtain ⟨s1, hwake, rfl⟩ := completeWaiterLocked_ok hs2
    obtain ⟨rfl, rfl⟩ := Prod.mk.inj (Res.pure_ok.mp hret)
    refine .inr ⟨rfl, dead, r, rest, hq, hdead, hlive, s1, ?_, ?_⟩
    · simpa [Chans.record, Chans.copyValue] using hwake
    · simp [Chans.handedTo]

/-- **What `try_send_locked` does**, outcome by outcome. -/
theorem trySendLocked_ok {o : Oracle} {s s' : Sys} {c : ChanId} {offer : WaiterId}
    {value : Addr} {r : SendResult} (h : trySendLocked o s c offer value = .ok (s', r)) :
    TrySend o s c offer value s' r := by
  unfold trySendLocked at h
  split at h
  · next hclosed =>
    obtain ⟨rfl, rfl⟩ := Prod.mk.inj (Res.pure_ok.mp h)
    exact .refused (by simpa using hclosed)
  · next hclosed =>
    simp only [Bool.or_eq_true, not_or, Bool.not_eq_true] at hclosed
    obtain ⟨hopen, hrun⟩ := hclosed
    obtain ⟨⟨s2, woke⟩, hs2, hrest⟩ := Res.bind_ok.mp h
    rcases wakeWaitingReceiverLocked_ok hs2 with
      ⟨rfl, hdead, rfl⟩ | ⟨rfl, dead, w, rest, hq, hdead, hlive, s1, hwake, rfl⟩
    · simp only [Bool.false_eq_true, if_false] at hrest
      split at hrest
      · next hroom =>
        obtain ⟨rfl, rfl⟩ := Prod.mk.inj (Res.pure_ok.mp hrest)
        have hres := @TrySend.buffered o s c offer value hopen hrun
          hdead (by simpa using hroom.2)
        simpa [Sys.mapCh] using hres
      · next hroom =>
        obtain ⟨rfl, rfl⟩ := Prod.mk.inj (Res.pure_ok.mp hrest)
        refine .blocked hopen hrun hdead ?_
        simp at hroom
        omega
    · simp only [if_true] at hrest
      obtain ⟨rfl, rfl⟩ := Prod.mk.inj (Res.pure_ok.mp hrest)
      exact .handed hopen hrun hq hdead hlive hwake

/-- The oldest value left the buffer for `offer`. -/
def Chans.tookBuffered (κ : Chans) (c : ChanId) (offer : WaiterId) (out : Addr) (v : Bytes)
    (rest : List Bytes) : Chans :=
  (κ.bufferPop c v rest out).record (.taken c offer out v)

/-- The outcomes of `try_recv_locked`. -/
inductive TryRecv (o : Oracle) (s : Sys) (c : ChanId) (offer : WaiterId) (out : Addr) :
    Sys → RecvResult → Prop
  /-- A buffered value, with no parked sender to move up: the channel is closed or
  its ring has no room after all. -/
  | taken {v : Bytes} {rest : List Bytes} (hbuffer : (s.ch.chan c).buffer = v :: rest)
      (hskip : (s.ch.chan c).closed = true ∨ (s.ch.chan c).capacity = 0 ∨
        (s.ch.chan c).capacity ≤ rest.length) :
      TryRecv o s c offer out { s with ch := s.ch.tookBuffered c offer out v rest } .value
  /-- A buffered value, and every parked sender is dead. -/
  | drained {v : Bytes} {rest : List Bytes} (hbuffer : (s.ch.chan c).buffer = v :: rest)
      (hopen : (s.ch.chan c).closed = false)
      (hdead : ∀ x ∈ s.ch.queue c .send, s.ch.live x = false) :
      TryRecv o s c offer out
        { s with
          ch := (s.ch.tookBuffered c offer out v rest).dropHeads c .send
            (s.ch.queue c .send) [] } .value
  /-- A buffered value, and the first live sender moves into the freed slot. -/
  | refilled {v : Bytes} {rest : List Bytes} (hbuffer : (s.ch.chan c).buffer = v :: rest)
      (hopen : (s.ch.chan c).closed = false)
      (hroom : rest.length < (s.ch.chan c).capacity)
      {dead tail : List WaiterId} {x : WaiterId}
      (hqueue : s.ch.queue c .send = dead ++ x :: tail)
      (hdead : ∀ y ∈ dead, s.ch.live y = false) (hlive : s.ch.live x = true)
      {s1 : Sys} (hwake : workerWakeTaskLocked o s (s.ch.waiter x).task true = some s1) :
      TryRecv o s c offer out
        { s1 with
          ch := (s.ch.tookBuffered c offer out v rest).bufferedFrom c x dead tail } .value
  | direct (hbuffer : (s.ch.chan c).buffer = [])
      {dead tail : List WaiterId} {x : WaiterId}
      (hqueue : s.ch.queue c .send = dead ++ x :: tail)
      (hdead : ∀ y ∈ dead, s.ch.live y = false) (hlive : s.ch.live x = true)
      {s1 : Sys} (hwake : workerWakeTaskLocked o s (s.ch.waiter x).task true = some s1) :
      TryRecv o s c offer out
        { s1 with ch := s.ch.takenFrom c offer x out dead tail } .value
  | refused (hbuffer : (s.ch.chan c).buffer = [])
      (hdead : ∀ x ∈ s.ch.queue c .send, s.ch.live x = false)
      (h : (s.ch.chan c).closed = true ∨ s.shutdownRequested = true) :
      TryRecv o s c offer out
        { s with
          ch := (s.ch.dropHeads c .send (s.ch.queue c .send) []).record
            (.closed c offer (s.ch.chan c).closed) } .closed
  | blocked (hbuffer : (s.ch.chan c).buffer = [])
      (hdead : ∀ x ∈ s.ch.queue c .send, s.ch.live x = false)
      (hopen : (s.ch.chan c).closed = false) (hrun : s.shutdownRequested = false) :
      TryRecv o s c offer out
        { s with ch := s.ch.dropHeads c .send (s.ch.queue c .send) [] } .empty

/-- `wake_waiting_sender_direct_locked` takes the value of the first live sender, or finds
none. -/
theorem wakeWaitingSenderDirectLocked_ok {o : Oracle} {s s' : Sys} {c : ChanId}
    {offer : WaiterId} {out : Addr} {woke : Bool}
    (h : wakeWaitingSenderDirectLocked o s c offer out = .ok (s', woke)) :
    (woke = false ∧ (∀ x ∈ s.ch.queue c .send, s.ch.live x = false) ∧
      s' = { s with ch := s.ch.dropHeads c .send (s.ch.queue c .send) [] }) ∨
    (woke = true ∧ ∃ dead x tail, s.ch.queue c .send = dead ++ x :: tail ∧
      (∀ y ∈ dead, s.ch.live y = false) ∧ s.ch.live x = true ∧
      ∃ s1, workerWakeTaskLocked o s (s.ch.waiter x).task true = some s1 ∧
        s' = { s1 with ch := s.ch.takenFrom c offer x out dead tail }) := by
  unfold wakeWaitingSenderDirectLocked at h
  split at h
  · next κ hpop =>
    obtain ⟨hdead, rfl⟩ := popLiveWaiterLocked_none hpop
    obtain ⟨rfl, rfl⟩ := Prod.mk.inj (Except.ok.inj h)
    exact .inl ⟨rfl, hdead, rfl⟩
  · next κ x hpop =>
    obtain ⟨dead, tail, hq, hdead, hlive, rfl⟩ := popLiveWaiterLocked_some hpop
    obtain ⟨s2, hs2, hret⟩ := Res.bind_ok.mp h
    obtain ⟨s1, hwake, rfl⟩ := completeWaiterLocked_ok hs2
    obtain ⟨rfl, rfl⟩ := Prod.mk.inj (Res.pure_ok.mp hret)
    refine .inr ⟨rfl, dead, x, tail, hq, hdead, hlive, s1, ?_, ?_⟩
    · simpa [Chans.record, Chans.copyValue] using hwake
    · simp [Chans.takenFrom]

/-- `buffer_one_waiting_sender_locked` moves the first live sender's value up, or finds none.
-/
theorem bufferOneWaitingSenderLocked_ok {o : Oracle} {s s' : Sys} {κ : Chans} {c : ChanId}
    (h : bufferOneWaitingSenderLocked o { s with ch := κ } c = .ok s') :
    (((κ.chan c).capacity = 0 ∨ (κ.chan c).capacity ≤ (κ.chan c).buffer.length) ∧
      s' = { s with ch := κ }) ∨
    ((∀ x ∈ κ.queue c .send, κ.live x = false) ∧
      s' = { s with ch := κ.dropHeads c .send (κ.queue c .send) [] }) ∨
    ((κ.chan c).buffer.length < (κ.chan c).capacity ∧
      ∃ dead x tail, κ.queue c .send = dead ++ x :: tail ∧
      (∀ y ∈ dead, κ.live y = false) ∧ κ.live x = true ∧
      ∃ s1, workerWakeTaskLocked o s (κ.waiter x).task true = some s1 ∧
        s' = { s1 with ch := κ.bufferedFrom c x dead tail }) := by
  unfold bufferOneWaitingSenderLocked at h
  split at h
  · next hskip => exact .inl ⟨hskip, (Except.ok.inj h).symm⟩
  · next hroom =>
    split at h
    · next κ' hpop =>
      obtain ⟨hdead, rfl⟩ := popLiveWaiterLocked_none hpop
      exact .inr (.inl ⟨hdead, (Except.ok.inj h).symm⟩)
    · next κ' x hpop =>
      obtain ⟨dead, tail, hq, hdead, hlive, rfl⟩ := popLiveWaiterLocked_some hpop
      obtain ⟨s1, hwake, rfl⟩ := completeWaiterLocked_ok (s := s) h
      refine .inr (.inr ⟨?_, dead, x, tail, hq, hdead, hlive, s1, ?_, ?_⟩)
      · simp only [not_or, Nat.not_le] at hroom
        exact hroom.2
      · simpa [Chans.record, Chans.bufferPush, Chans.setChan] using hwake
      · simp [Chans.bufferedFrom]

/-- **What `try_recv_locked` does**, outcome by outcome. -/
theorem tryRecvLocked_ok {o : Oracle} {s s' : Sys} {c : ChanId} {offer : WaiterId}
    {out : Addr} {r : RecvResult} (h : tryRecvLocked o s c offer out = .ok (s', r)) :
    TryRecv o s c offer out s' r := by
  unfold tryRecvLocked at h
  split at h
  · next v rest hbuffer =>
    have hclosed : ((s.ch.tookBuffered c offer out v rest).chan c).closed =
        (s.ch.chan c).closed := by
      simp [Chans.tookBuffered, Chans.bufferPop, Chans.record, Chans.copyValue, Chans.setChan]
    have hcap : ((s.ch.tookBuffered c offer out v rest).chan c).capacity =
        (s.ch.chan c).capacity := by
      simp [Chans.tookBuffered, Chans.bufferPop, Chans.record, Chans.copyValue, Chans.setChan]
    have hrest : ((s.ch.tookBuffered c offer out v rest).chan c).buffer = rest := by
      simp [Chans.tookBuffered, Chans.bufferPop, Chans.record, Chans.copyValue, Chans.setChan]
    have hqueue : (s.ch.tookBuffered c offer out v rest).queue c .send =
        s.ch.queue c .send := by
      simp [Chans.tookBuffered]
    dsimp only at h
    split at h
    · next hc =>
      obtain ⟨rfl, rfl⟩ := Prod.mk.inj (Res.pure_ok.mp h)
      exact .taken hbuffer (.inl (hclosed.symm.trans hc))
    · next hc =>
      obtain ⟨s2, hs2, hret⟩ := Res.bind_ok.mp h
      obtain ⟨rfl, rfl⟩ := Prod.mk.inj (Res.pure_ok.mp hret)
      have hopen : (s.ch.chan c).closed = false :=
        hclosed.symm.trans (by simpa [Sys.mapCh, Chans.tookBuffered] using hc)
      rcases bufferOneWaitingSenderLocked_ok
          (κ := s.ch.tookBuffered c offer out v rest) hs2 with
        ⟨hskip, rfl⟩ | ⟨hdead, rfl⟩ | ⟨hroom, dead, x, tail, hq, hdead, hlive, s1, hwake, rfl⟩
      · rw [hcap, hrest] at hskip
        exact .taken hbuffer (.inr hskip)
      · rw [hqueue] at hdead ⊢
        exact .drained hbuffer hopen hdead
      · rw [hcap, hrest] at hroom
        rw [hqueue] at hq
        exact .refilled hbuffer hopen hroom hq hdead hlive hwake
  · next hbuffer =>
    obtain ⟨⟨s2, woke⟩, hs2, hrest⟩ := Res.bind_ok.mp h
    rcases wakeWaitingSenderDirectLocked_ok hs2 with
      ⟨rfl, hdead, rfl⟩ | ⟨rfl, dead, x, tail, hq, hdead, hlive, s1, hwake, rfl⟩
    · simp only [Bool.false_eq_true, if_false, Chans.dropHeads_closed] at hrest
      split at hrest
      · next hclosed =>
        obtain ⟨rfl, rfl⟩ := Prod.mk.inj (Res.pure_ok.mp hrest)
        simpa [Sys.mapCh] using @TryRecv.refused o s c offer out
          hbuffer hdead (by simpa using hclosed)
      · next hclosed =>
        obtain ⟨rfl, rfl⟩ := Prod.mk.inj (Res.pure_ok.mp hrest)
        simp only [Bool.or_eq_true, not_or, Bool.not_eq_true] at hclosed
        exact .blocked hbuffer hdead hclosed.1 hclosed.2
    · simp only [if_true] at hrest
      obtain ⟨rfl, rfl⟩ := Prod.mk.inj (Res.pure_ok.mp hrest)
      exact .direct hbuffer hq hdead hlive hwake

/-! ## Closing -/

/-- One round of `wake_all_as_closed_locked`, which pops the head `w`. -/
inductive CloseRound (o : Oracle) (c : ChanId) (op : Direction) (w : WaiterId)
    (rest : List WaiterId) (s : Sys) : Sys → Prop
  /-- A select waiter without a live shared state is only unlinked. -/
  | skipped (hkind : (s.ch.waiter w).kind = .select)
      (hskip : (s.ch.waiter w).state = none ∨ s.ch.live w = false) :
      CloseRound o c op w rest s { s with ch := s.ch.dropHeads c op [w] rest }
  | selected (hkind : (s.ch.waiter w).kind = .select) (hlive : s.ch.live w = true)
      {s1 : Sys} (hwake : workerWakeTaskLocked o s (s.ch.waiter w).task true = some s1) :
      CloseRound o c op w rest s
        { s1 with
          ch := ((s.ch.dropHeads c op [w] rest).record
            (.closed c w (s.ch.chan c).closed)).completed w .closed }
  | regular (hkind : (s.ch.waiter w).kind = .regular)
      {s1 : Sys} (hwake : workerWakeTaskLocked o s (s.ch.waiter w).task false = some s1) :
      CloseRound o c op w rest s
        { s1 with
          ch := ((s.ch.dropHeads c op [w] rest).record
            (.closed c w (s.ch.chan c).closed)).record
            (.woken (s.ch.waiter w).task w.call false) }

/-- The loop of `wake_all_as_closed_locked` is its rounds. -/
theorem wakeAllAsClosed_cons {o : Oracle} {c : ChanId} {op : Direction} {w : WaiterId}
    {rest : List WaiterId} {s s' : Sys}
    (h : wakeAllAsClosed o c op (w :: rest) s = .ok s') :
    ∃ s1, CloseRound o c op w rest s s1 ∧ wakeAllAsClosed o c op rest s1 = .ok s' := by
  rw [wakeAllAsClosed] at h
  simp only [Sys.mapCh, Chans.dropHead_eq_dropHeads, Chans.dropHeads_kind,
    Chans.dropHeads_state, Chans.dropHeads_select, Chans.dropHeads_closed] at h
  split at h
  · next k hkind hstate =>
    have hlive : s.ch.live w = !(s.ch.select k).done := by
      simp [Chans.live, hkind, hstate]
    split at h
    · next hdone =>
      exact ⟨_, .skipped hkind (.inr (by simp [hlive, hdone])), h⟩
    · next hdone =>
      obtain ⟨s2, hs2, hrest⟩ := Res.bind_ok.mp h
      obtain ⟨s1, hwake, rfl⟩ := completeWaiterLocked_ok (s := s) hs2
      have hwake' : workerWakeTaskLocked o s (s.ch.waiter w).task true = some s1 := by
        simpa [Chans.record] using hwake
      exact ⟨_, .selected hkind (by simp [hlive, hdone]) hwake', hrest⟩
  · next hkind hstate => exact ⟨_, .skipped hkind (.inl hstate), h⟩
  · next hkind =>
    obtain ⟨s2, hs2, hrest⟩ := Res.bind_ok.mp h
    obtain ⟨s1, hwake, rfl⟩ := wakeWaiter_ok (s := s) hs2
    have hwake' : workerWakeTaskLocked o s (s.ch.waiter w).task false = some s1 := by
      simpa [Chans.record] using hwake
    refine ⟨_, .regular hkind hwake', ?_⟩
    simpa [Chans.record] using hrest

/-- A round leaves the waiters behind the head. -/
theorem CloseRound.queue {o : Oracle} {c : ChanId} {op : Direction} {w : WaiterId}
    {rest : List WaiterId} {s s1 : Sys} (h : CloseRound o c op w rest s s1) :
    s1.ch.queue c op = rest := by
  cases h with
  | skipped hkind hskip => simp
  | selected hkind hlive hwake =>
      unfold Chans.completed Chans.markDone
      split <;> simp
  | regular hkind hwake => simp

/-- **Close rule.**  What every round of the loop keeps, with the waiters still to
be visited, holds after the loop with none left. -/
theorem wakeAllAsClosed_induct {o : Oracle} {c : ChanId} {op : Direction}
    {I : List WaiterId → Sys → Prop}
    (hround : ∀ w rest s s', I (w :: rest) s → CloseRound o c op w rest s s' → I rest s') :
    ∀ (q : List WaiterId) {s s' : Sys}, I q s → wakeAllAsClosed o c op q s = .ok s' →
      I [] s' := by
  intro q
  induction q with
  | nil =>
      intro s s' hI h
      cases h
      exact hI
  | cons w rest ih =>
      intro s s' hI h
      obtain ⟨s1, hs1, hrest⟩ := wakeAllAsClosed_cons h
      exact ih (hround w rest s s1 hI hs1) hrest

/-- The channel's `closed` flag is set. -/
def Chans.markClosed (κ : Chans) (c : ChanId) : Chans :=
  κ.setChan c { κ.chan c with closed := true }

/-- `channel_close_locked` does nothing on a closed channel, and otherwise sets the
flag and drains both queues. -/
theorem channelCloseLocked_ok {o : Oracle} {s s' : Sys} {c : ChanId}
    (h : channelCloseLocked o s c = .ok s') :
    ((s.ch.chan c).closed = true ∧ s' = s) ∨
    ((s.ch.chan c).closed = false ∧ ∃ s1,
      wakeAllAsClosedLocked o { s with ch := s.ch.markClosed c } c .send = .ok s1 ∧
      wakeAllAsClosedLocked o s1 c .recv = .ok s') := by
  unfold channelCloseLocked at h
  split at h
  · next hclosed => exact .inl ⟨hclosed, (Except.ok.inj h).symm⟩
  · next hclosed =>
    obtain ⟨s1, hsend, hrecv⟩ := Res.bind_ok.mp h
    exact .inr ⟨by simpa using hclosed, s1, hsend, hrecv⟩

/-! ## An operation works on one channel -/

/-- Every channel but `c` is as before. -/
def Chans.OnlyAt (c : ChanId) (κ κ' : Chans) : Prop :=
  ∀ c', c' ≠ c → κ'.chan c' = κ.chan c'

namespace Chans.OnlyAt

variable {κ κ' κ'' : Chans} {c : ChanId}

theorem refl (c : ChanId) (κ : Chans) : OnlyAt c κ κ := fun _ _ => rfl

theorem trans (h : OnlyAt c κ κ') (h' : OnlyAt c κ' κ'') : OnlyAt c κ κ'' :=
  fun c' hc => (h' c' hc).trans (h c' hc)

/-- Taking heads out of a queue of the channel. -/
theorem dropHeads (κ : Chans) (c : ChanId) (op : Direction) (gone rest : List WaiterId) :
    OnlyAt c κ (κ.dropHeads c op gone rest) := by
  intro c' hc
  rw [dropHeads_chan, if_neg hc]

/-- Overwriting the channel. -/
theorem setChan (κ : Chans) (c : ChanId) (ch : Channel) : OnlyAt c κ (κ.setChan c ch) :=
  fun _ hc => Function.update_of_ne hc _ _

/-- Completing a waiter changes no channel. -/
theorem completed (κ : Chans) (c : ChanId) (w : WaiterId) (status : SelectStatus) :
    OnlyAt c κ (κ.completed w status) := by
  intro c' _
  unfold Chans.completed Chans.markDone
  split <;> rfl

/-- A value handed to a receiver of the channel. -/
theorem handedTo (κ : Chans) (c : ChanId) (offer r : WaiterId) (value : Addr)
    (dead rest : List WaiterId) : OnlyAt c κ (κ.handedTo c offer r value dead rest) :=
  (dropHeads κ c .recv (dead ++ [r]) rest).trans (completed _ c r .value)

/-- A value taken from a sender on the channel. -/
theorem takenFrom (κ : Chans) (c : ChanId) (offer x : WaiterId) (out : Addr)
    (dead rest : List WaiterId) : OnlyAt c κ (κ.takenFrom c offer x out dead rest) :=
  (dropHeads κ c .send (dead ++ [x]) rest).trans (completed _ c x .sent)

/-- A sender's value that moves into the buffer. -/
theorem bufferedFrom (κ : Chans) (c : ChanId) (x : WaiterId) (dead rest : List WaiterId) :
    OnlyAt c κ (κ.bufferedFrom c x dead rest) :=
  ((dropHeads κ c .send (dead ++ [x]) rest).trans (setChan _ c _)).trans (completed _ c x .sent)

end Chans.OnlyAt

/-- A send changes no other channel. -/
theorem TrySend.onlyAt {o : Oracle} {s s' : Sys} {c : ChanId} {offer : WaiterId} {value : Addr}
    {r : SendResult} (h : TrySend o s c offer value s' r) : s.ch.OnlyAt c s'.ch := by
  cases h with
  | refused h => exact .refl c _
  | handed hopen hrun hqueue hdead hlive hwake => exact .handedTo _ c _ _ _ _ _
  | buffered hopen hrun hdead hroom =>
      exact (Chans.OnlyAt.dropHeads s.ch c .recv (s.ch.queue c .recv) []).trans (.setChan _ c _)
  | blocked hopen hrun hdead hfull => exact .dropHeads _ c .recv _ _

/-- A receive changes no other channel. -/
theorem TryRecv.onlyAt {o : Oracle} {s s' : Sys} {c : ChanId} {offer : WaiterId} {out : Addr}
    {r : RecvResult} (h : TryRecv o s c offer out s' r) : s.ch.OnlyAt c s'.ch := by
  have htook : ∀ v rest, s.ch.OnlyAt c (s.ch.tookBuffered c offer out v rest) :=
    fun v rest => .setChan _ c _
  cases h with
  | taken hbuffer hskip => exact htook _ _
  | @drained v rest hbuffer hopen hdead => exact (htook v rest).trans (.dropHeads _ c .send _ _)
  | @refilled v rest hbuffer hopen hroom dead tail x hqueue hdead hlive s1 hwake =>
      exact (htook v rest).trans (.bufferedFrom _ c x dead tail)
  | direct hbuffer hqueue hdead hlive hwake => exact .takenFrom _ c _ _ _ _ _
  | refused hbuffer hdead h | blocked hbuffer hdead hopen hrun =>
      exact .dropHeads s.ch c .send (s.ch.queue c .send) []

/-- A round of a close changes no other channel. -/
theorem CloseRound.onlyAt {o : Oracle} {c : ChanId} {op : Direction} {w : WaiterId}
    {rest : List WaiterId} {s s' : Sys} (h : CloseRound o c op w rest s s') :
    s.ch.OnlyAt c s'.ch := by
  cases h with
  | skipped hkind hskip => exact .dropHeads _ c op _ _
  | selected hkind hlive hwake =>
      exact (Chans.OnlyAt.dropHeads s.ch c op [w] rest).trans (.completed _ c w .closed)
  | regular hkind hwake => exact .dropHeads s.ch c op [w] rest

/-- Waking a queue as closed changes no other channel. -/
theorem wakeAllAsClosedLocked_onlyAt {o : Oracle} {s s' : Sys} {c : ChanId} {op : Direction}
    (h : wakeAllAsClosedLocked o s c op = .ok s') : s.ch.OnlyAt c s'.ch :=
  wakeAllAsClosed_induct (I := fun _ x => s.ch.OnlyAt c x.ch)
    (fun _ _ _ _ hI hround => hI.trans hround.onlyAt) _ (.refl c _) h

/-- A close changes no other channel. -/
theorem channelCloseLocked_onlyAt {o : Oracle} {s s' : Sys} {c : ChanId}
    (h : channelCloseLocked o s c = .ok s') : s.ch.OnlyAt c s'.ch := by
  rcases channelCloseLocked_ok h with ⟨_, rfl⟩ | ⟨_, s1, hsend, hrecv⟩
  · exact .refl c _
  · have hmark : s.ch.OnlyAt c (s.ch.markClosed c) := .setChan _ c _
    exact (hmark.trans (wakeAllAsClosedLocked_onlyAt hsend)).trans
      (wakeAllAsClosedLocked_onlyAt hrecv)

/-! ## What every channel operation leaves alone

Seen from the scheduler a channel operation is a sequence of wakes: the channel
state may change in between, and nothing else does.
-/

inductive WakeStep : Sys → Sys → Prop
  | chans (s : Sys) (κ : Chans) : WakeStep s { s with ch := κ }
  | wake {o : Oracle} {s s' : Sys} {t : TaskId} {success : Bool}
      (h : workerWakeTaskLocked o s t success = some s') : WakeStep s s'

abbrev Wakes : Sys → Sys → Prop := Relation.ReflTransGen WakeStep

/-- **Wake rule.**  A property that does not depend on the channels and is kept by
a wake is kept by every channel operation. -/
theorem Wakes.invariant {I : Sys → Prop}
    (hchans : ∀ s κ, I s → I { s with ch := κ })
    (hwake : ∀ o s t success s', I s → workerWakeTaskLocked o s t success = some s' → I s')
    {s s' : Sys} (h : Wakes s s') (hs : I s) : I s' := by
  induction h with
  | refl => exact hs
  | tail _ hstep ih =>
      cases hstep with
      | chans => exact hchans _ _ ih
      | wake hw => exact hwake _ _ _ _ _ ih hw

/-- A change of the channels alone. -/
theorem Wakes.chans (s : Sys) (κ : Chans) : Wakes s { s with ch := κ } :=
  .single (.chans s κ)

/-- Wakes, followed by a change of the channels. -/
theorem Wakes.thenChans {s s' : Sys} (h : Wakes s s') (κ : Chans) :
    Wakes s { s' with ch := κ } :=
  h.tail (.chans s' κ)

/-- One wake, with a change of the channels. -/
theorem Wakes.wakeThen {o : Oracle} {s s1 : Sys} {t : TaskId} {success : Bool}
    (h : workerWakeTaskLocked o s t success = some s1) (κ : Chans) :
    Wakes s { s1 with ch := κ } :=
  (Relation.ReflTransGen.single (.wake h)).tail (.chans s1 κ)

/-- A send only wakes tasks and changes channels. -/
theorem TrySend.wakes {o : Oracle} {s s' : Sys} {c : ChanId} {offer : WaiterId}
    {value : Addr} {r : SendResult} (h : TrySend o s c offer value s' r) : Wakes s s' := by
  cases h with
  | refused h => exact .chans s _
  | handed hopen hrun hqueue hdead hlive hwake => exact .wakeThen hwake _
  | buffered hopen hrun hdead hroom => exact .chans s _
  | blocked hopen hrun hdead hfull => exact .chans s _

/-- A receive only wakes tasks and changes channels. -/
theorem TryRecv.wakes {o : Oracle} {s s' : Sys} {c : ChanId} {offer : WaiterId}
    {out : Addr} {r : RecvResult} (h : TryRecv o s c offer out s' r) : Wakes s s' := by
  cases h with
  | taken hbuffer hskip => exact .chans s _
  | drained hbuffer hopen hdead => exact .chans s _
  | refilled hbuffer hopen hroom hqueue hdead hlive hwake => exact .wakeThen hwake _
  | direct hbuffer hqueue hdead hlive hwake => exact .wakeThen hwake _
  | refused hbuffer hdead h => exact .chans s _
  | blocked hbuffer hdead hopen hrun => exact .chans s _

/-- A round of a close only wakes tasks and changes channels. -/
theorem CloseRound.wakes {o : Oracle} {c : ChanId} {op : Direction} {w : WaiterId}
    {rest : List WaiterId} {s s' : Sys} (h : CloseRound o c op w rest s s') : Wakes s s' := by
  cases h with
  | skipped hkind hskip => exact .chans s _
  | selected hkind hlive hwake => exact .wakeThen hwake _
  | regular hkind hwake => exact .wakeThen hwake _

/-- Waking a queue as closed only wakes tasks and changes channels. -/
theorem wakeAllAsClosedLocked_wakes {o : Oracle} {s s' : Sys} {c : ChanId} {op : Direction}
    (h : wakeAllAsClosedLocked o s c op = .ok s') : Wakes s s' :=
  wakeAllAsClosed_induct (I := fun _ x => Wakes s x)
    (fun _ _ _ _ hI hround => hI.trans hround.wakes) _ .refl h

/-- A close only wakes tasks and changes channels. -/
theorem channelCloseLocked_wakes {o : Oracle} {s s' : Sys} {c : ChanId}
    (h : channelCloseLocked o s c = .ok s') : Wakes s s' := by
  rcases channelCloseLocked_ok h with ⟨_, rfl⟩ | ⟨_, s1, hsend, hrecv⟩
  · exact .refl
  · exact ((Wakes.chans s _).trans (wakeAllAsClosedLocked_wakes hsend)).trans
      (wakeAllAsClosedLocked_wakes hrecv)

/-- The closes of a shutdown only wake tasks and change channels. -/
theorem croutineChannelShutdownAllLocked_wakes {o : Oracle} {s s' : Sys}
    (h : croutineChannelShutdownAllLocked o s = .ok s') : Wakes s s' :=
  Res.foldlM_induct (I := fun x => Wakes s x)
    (fun _ _ _ hI hclose => hI.trans (channelCloseLocked_wakes hclose)) _ .refl h

/-- The fields that neither a channel update nor a wake writes. -/
structure SameCore (s s' : Sys) : Prop where
  ledger : s'.ledger = s.ledger
  freeLog : s'.freeLog = s.freeLog
  nextTask : s'.nextTask = s.nextTask
  spawns : s'.spawns = s.spawns
  io : s'.io = s.io
  poller : s'.poller = s.poller
  readyLog : s'.readyLog = s.readyLog
  shutdownRequested : s'.shutdownRequested = s.shutdownRequested
  schedulerMainFinished : s'.schedulerMainFinished = s.schedulerMainFinished
  mainFinished : s'.mainFinished = s.mainFinished
  mainSpawned : s'.mainSpawned = s.mainSpawned
  life : s'.life = s.life
  count : s'.wk.count = s.wk.count
  lock : s'.wk.lock = s.wk.lock
  owes : s'.wk.owes = s.wk.owes
  idleWorkers : s'.wk.idleWorkers = s.wk.idleWorkers
  pollerWaiterActive : s'.wk.pollerWaiterActive = s.wk.pollerWaiterActive

/-- `pthread_cond_signal` changes one program point at most. -/
theorem Workers.condSignal_cases (pick : List WorkerId → Nat) (wk : Workers) :
    (wk.unsignalled = [] ∧ wk.condSignal pick = wk) ∨
      ∃ w ∈ wk.unsignalled, wk.condSignal pick = wk.setPc w (wk.pc w).signal := by
  unfold condSignal
  split
  · next w hw => exact .inr ⟨w, List.mem_of_getElem? hw, rfl⟩
  · next hw =>
    refine .inl ⟨?_, rfl⟩
    rw [List.getElem?_eq_none_iff] at hw
    by_contra hne
    exact absurd (Nat.mod_lt _ (List.length_pos_iff.mpr hne)) (Nat.not_lt.mpr hw)

/-- A signal changes nothing but program points. -/
theorem Workers.condSignal_fields (pick : List WorkerId → Nat) (wk : Workers) :
    (wk.condSignal pick).count = wk.count ∧ (wk.condSignal pick).lock = wk.lock ∧
    (wk.condSignal pick).owes = wk.owes ∧
    (wk.condSignal pick).idleWorkers = wk.idleWorkers ∧
    (wk.condSignal pick).pollerWaiterActive = wk.pollerWaiterActive ∧
    (wk.condSignal pick).wakePending = wk.wakePending := by
  rcases wk.condSignal_cases pick with ⟨_, heq⟩ | ⟨w, _, heq⟩ <;>
    · rw [heq]; exact ⟨rfl, rfl, rfl, rfl, rfl, rfl⟩

/-- Of the workers a wake touches only the points they are at. -/
theorem Workers.wakeForTask_fields (pick : List WorkerId → Nat) (wk : Workers) :
    (wk.wakeForTask pick).count = wk.count ∧ (wk.wakeForTask pick).lock = wk.lock ∧
    (wk.wakeForTask pick).owes = wk.owes ∧
    (wk.wakeForTask pick).idleWorkers = wk.idleWorkers ∧
    (wk.wakeForTask pick).pollerWaiterActive = wk.pollerWaiterActive ∧
    (wk.wakeForTask pick).pc = (wk.condSignal pick).pc := by
  obtain ⟨h1, h2, h3, h4, h5, _⟩ := wk.condSignal_fields pick
  unfold wakeForTask
  dsimp only
  split <;> exact ⟨h1, h2, h3, h4, h5, rfl⟩

/-- Program points change only by signals. -/
def Signals (wk wk' : Workers) : Prop :=
  ∀ w, wk'.pc w = wk.pc w ∨ wk'.pc w = (wk.pc w).signal

namespace Signals

/-- `pthread_cond_signal` is a signal. -/
theorem condSignal (pick : List WorkerId → Nat) (wk : Workers) :
    Signals wk (wk.condSignal pick) := by
  intro v
  rcases wk.condSignal_cases pick with ⟨_, heq⟩ | ⟨w, _, heq⟩
  · exact .inl (by rw [heq])
  · rw [heq]
    by_cases hv : v = w
    · subst hv
      exact .inr (by simp [Workers.setPc])
    · exact .inl (by simp [Workers.setPc, hv])

/-- The wake for a new task is a signal. -/
theorem wakeForTask (pick : List WorkerId → Nat) (wk : Workers) :
    Signals wk (wk.wakeForTask pick) := by
  intro v
  rw [(wk.wakeForTask_fields pick).2.2.2.2.2]
  exact condSignal pick wk v

/-- `pthread_cond_broadcast` is a signal. -/
theorem condBroadcast (wk : Workers) : Signals wk wk.condBroadcast :=
  fun _ => .inr rfl

/-- A worker outside the condition variable does not notice signals. -/
theorem fixed {wk wk' : Workers} (h : Signals wk wk') {w : WorkerId}
    (hw : (wk.pc w).signal = wk.pc w) : wk'.pc w = wk.pc w := by
  rcases h w with heq | heq
  · exact heq
  · exact heq.trans hw

/-- Two rounds of signals leave every point as one round does. -/
theorem trans {wk wk' wk'' : Workers} (h : Signals wk wk') (h' : Signals wk' wk'') :
    Signals wk wk'' := by
  intro w
  rcases h w with heq | heq <;> rcases h' w with heq' | heq' <;> rw [heq', heq]
  · exact .inl rfl
  · exact .inr rfl
  · exact .inr rfl
  · exact .inr (by cases wk.pc w <;> rfl)

end Signals

/-- Waking tasks leaves the rest of the scheduler alone. -/
theorem Wakes.sameCore {s s' : Sys} (h : Wakes s s') : SameCore s s' := by
  refine Wakes.invariant (I := fun x => SameCore s x) ?_ ?_ h
    ⟨rfl, rfl, rfl, rfl, rfl, rfl, rfl, rfl, rfl, rfl, rfl, rfl, rfl, rfl, rfl, rfl, rfl⟩
  · intro x κ hx
    exact ⟨hx.1, hx.2, hx.3, hx.4, hx.5, hx.6, hx.7, hx.8, hx.9, hx.10, hx.11, hx.12,
      hx.13, hx.14, hx.15, hx.16, hx.17⟩
  · intro o x t success x' hx hwake
    obtain ⟨_, cap, _, rfl⟩ := workerWakeTaskLocked_some hwake
    obtain ⟨hcount, hlock, howes, hidle, hactive, _⟩ := x.wk.wakeForTask_fields o.pick
    exact ⟨hx.1, hx.2, hx.3, hx.4, hx.5, hx.6, hx.7, hx.8, hx.9, hx.10, hx.11, hx.12,
      hcount.trans hx.13, hlock.trans hx.14, howes.trans hx.15, hidle.trans hx.16,
      hactive.trans hx.17⟩

/-- Waking tasks signals workers. -/
theorem Wakes.signals {s s' : Sys} (h : Wakes s s') : Signals s.wk s'.wk := by
  refine Wakes.invariant (I := fun x => Signals s.wk x.wk) ?_ ?_ h fun _ => .inl rfl
  · exact fun _ _ hx => hx
  · intro o x t success x' hx hwake
    obtain ⟨_, cap, _, rfl⟩ := workerWakeTaskLocked_some hwake
    exact hx.trans (Signals.wakeForTask o.pick x.wk)

/-- Wakes touch only tasks that wait on channels. -/
theorem Wakes.tasks {s s' : Sys} (h : Wakes s s') {t : TaskId}
    (ht : (s.tasks t).state ≠ .waitingChannel) : s'.tasks t = s.tasks t := by
  refine Wakes.invariant (I := fun x => x.tasks t = s.tasks t) ?_ ?_ h rfl
  · exact fun _ _ hx => hx
  · intro o x u success x' hx hwake
    obtain ⟨hstate, cap, _, rfl⟩ := workerWakeTaskLocked_some hwake
    have hne : t ≠ u := by
      rintro rfl
      rw [hx] at hstate
      exact ht hstate
    simpa [hne] using hx

end Croutine
