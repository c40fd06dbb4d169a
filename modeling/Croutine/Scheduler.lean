import Croutine.State

/-!
# Scheduler primitives

The run queue, the condition variable, waking and parking of tasks, and the
release of a task's memory (`worker.c` and `task.c`).  The run queue is the list
of its tasks; the ring behind it only shows through its capacity, which decides
when a push has to grow it.
-/

namespace Croutine

/-- `task_queue_grow`, whose allocation may fail. -/
def taskQueueGrow (o : Oracle) (q : RunQueue) : Option RunQueue :=
  if o.grow q.capacity then
    some { q with capacity := if q.capacity = 0 then 1 else q.capacity * 2 }
  else none

/-- The state after storing `t` at the tail of a queue with room. -/
def taskQueueAppend (s : Sys) (q : RunQueue) (t : TaskId) : Sys :=
  { s.setTask t { s.tasks t with queued := true } with
    runq := { q with tasks := q.tasks ++ [t] } }

/-- `task_queue_push`; `none` is its result `false`. -/
def taskQueuePush (o : Oracle) (s : Sys) (t : TaskId) : Option Sys :=
  if s.runq.capacity = 0 then none
  else if (s.tasks t).queued then some s
  else if s.runq.tasks.length = s.runq.capacity then
    (taskQueueGrow o s.runq).map fun q => taskQueueAppend s q t
  else some (taskQueueAppend s s.runq t)

/-- `task_queue_pop`. -/
def taskQueuePop (s : Sys) : Option (TaskId × Sys) :=
  match s.runq.tasks with
  | [] => none
  | t :: rest =>
    some (t, { s.setTask t { s.tasks t with queued := false } with
      runq := { s.runq with tasks := rest } })

/-- `enqueue_runnable_task_locked`. -/
def enqueueRunnableTaskLocked (o : Oracle) (s : Sys) (t : TaskId) : Option Sys :=
  taskQueuePush o
    (s.setTask t { s.tasks t with state := .runnable, ioFd := -1, ioEvents := .none }) t

namespace Workers

/-- The workers blocked in `pthread_cond_wait` that were not signalled. -/
def unsignalled (wk : Workers) : List WorkerId :=
  (List.range wk.count).filter fun w => (wk.pc w).unsignalled

def setPc (wk : Workers) (w : WorkerId) (pc : Pc) : Workers :=
  { wk with pc := Function.update wk.pc w pc }

/-- `pthread_cond_signal`: unblocks one waiter that was not signalled, if any. -/
def condSignal (pick : List WorkerId → Nat) (wk : Workers) : Workers :=
  match wk.unsignalled[pick wk.unsignalled % wk.unsignalled.length]? with
  | some w => wk.setPc w (wk.pc w).signal
  | none => wk

/-- `pthread_cond_broadcast`. -/
def condBroadcast (wk : Workers) : Workers :=
  { wk with pc := fun w => (wk.pc w).signal }

/-- `croutine_poller_wake`. -/
def pollerWake (wk : Workers) : Workers := { wk with wakePending := true }

/-- The wakeups of `worker_wake_task_locked` after it enqueued a task. -/
def wakeForTask (pick : List WorkerId → Nat) (wk : Workers) : Workers :=
  let wk := wk.condSignal pick
  if wk.idleWorkers = 0 ∧ wk.pollerWaiterActive then wk.pollerWake else wk

def owe (wk : Workers) (θ : Thread) : Workers := { wk with owes := θ :: wk.owes }

end Workers

namespace Sys

def mapWk (s : Sys) (f : Workers → Workers) : Sys := { s with wk := f s.wk }

def mapCh (s : Sys) (f : Chans → Chans) : Sys := { s with ch := f s.ch }

end Sys

/-- `worker_wake_task_locked`; `none` is its result `false`. -/
def workerWakeTaskLocked (o : Oracle) (s : Sys) (t : TaskId) (success : Bool) : Option Sys :=
  if (s.tasks t).state ≠ .waitingChannel then none
  else
    (enqueueRunnableTaskLocked o
      (s.setTask t { s.tasks t with channelWakeSuccess := success }) t).map
      fun s => s.mapWk (Workers.wakeForTask o.pick)

/-- `worker_park_current_on_channel_locked` on the worker that runs `t`, which
is inside the call described by `frame`.  After shutdown was requested the park is
refused and the task runs on; otherwise it keeps the lock until its worker is
back in the scheduler. -/
def workerParkCurrentOnChannelLocked (s : Sys) (w : WorkerId) (t : TaskId)
    (frame : Bool → Frame) : Sys :=
  if s.shutdownRequested then
    s.setTask t { s.tasks t with frame := frame false }
  else
    let s := s.setTask t { s.tasks t with
      state := .waitingChannel, channelWakeSuccess := false, frame := frame true }
    s.mapWk fun wk => { wk.setPc w (.switching t .waitingChannel) with lock := some w }

/-! ## Releasing tasks -/

namespace Sys

/-- Some channel queue or I/O wait entry refers to the task. -/
def refersTo (s : Sys) (t : TaskId) : Bool :=
  s.ch.registry.any (fun c =>
    (s.ch.queue c .send ++ s.ch.queue c .recv).any fun w => (s.ch.waiter w).task = t) ||
  s.io.entries.any fun e => e.inUse && (e.readTask = some t || e.writeTask = some t)

/-- Account for `free(task)`. -/
def freeStruct (s : Sys) (t : TaskId) (l : Ledger) : Sys :=
  { s with
    freeLog := s.freeLog ++ [⟨t, s.refersTo t⟩]
    ledger := Function.update s.ledger t { l with structFrees := l.structFrees + 1 } }

end Sys

/-- `cleanup_task`: release the stack, the owned argument and the task. -/
def cleanupTask (s : Sys) (t : TaskId) : Sys :=
  let task := s.tasks t
  let l := s.ledger t
  let l := { l with
    stackFrees := l.stackFrees + if task.hasStack then 1 else 0
    argFrees := l.argFrees + if task.ownsArg then 1 else 0 }
  (s.freeStruct t l).setTask t { task with
    state := .runnable, queued := false, isMain := false, hasStack := false,
    ownsArg := false, ioFd := -1, ioEvents := .none, ioWakeSuccess := false,
    channelWakeSuccess := false }

end Croutine
