import Croutine.IoWaitTable
import Croutine.Poller

/-!
# The state of the runtime

All state protected by `scheduler_mutex`, the poller, the worker threads with
their program points, and the bookkeeping of whole runs.

A critical section is one step, taken when the lock is free.  The exception is
parking: a task publishes itself in a wait structure, keeps the lock across
`context_switch`, and the worker it came from releases it.  `lock` is therefore
the worker whose task is between those two points.

Threads are the workers, the thread inside `croutine_runtime_run` or
`croutine_runtime_shutdown`, and any number of external threads.  `owes` lists
the threads that left a critical section and have not yet made the
`croutine_poller_wake` call that follows it, and `spawns` the tasks allocated by
a `worker_spawn` call that has not yet published them.
-/

namespace Croutine

inductive Thread where
  | worker (w : WorkerId)
  | runtime
  | external (e : Nat)
  deriving DecidableEq

inductive Timeout where
  | zero
  | infinite
  deriving DecidableEq

/-- Where a worker thread is.  `checked` is `checked_ready_io`; `st` is the
worker's `yielded_state`. -/
inductive Pc where
  | notStarted
  /-- about to take the lock at the head of the scheduling loop -/
  | top (checked : Bool)
  | condWait (signalled checked : Bool)
  /-- inside the kernel wait of `croutine_poller_wait` -/
  | polling (timeout : Timeout)
  | polled (raw : List RawEvent)
  | filtered (events : List PollEvent)
  | pollError
  /-- popped, before `switch_from_scheduler` -/
  | dispatched (t : TaskId)
  | running (t : TaskId)
  | finishMain (t : TaskId)
  | finishSched (t : TaskId)
  /-- before the `context_switch` back to the scheduler -/
  | switching (t : TaskId) (st : TaskState)
  /-- back in the scheduler, holding the lock the task handed over -/
  | returned (t : TaskId) (st : TaskState)
  /-- about to read `shutdown_requested` -/
  | reread (t : TaskId) (st : TaskState)
  | requeue (t : TaskId)
  | cleanup (t : TaskId)
  | exited
  deriving DecidableEq

namespace Pc

/-- Blocked in `pthread_cond_wait` and not signalled. -/
def unsignalled : Pc → Bool
  | .condWait false _ => true
  | _ => false

def signal : Pc → Pc
  | .condWait _ checked => .condWait true checked
  | pc => pc

end Pc

/-- The sleeping and waking state of the worker threads. -/
structure Workers where
  count : Nat
  pc : WorkerId → Pc
  idleWorkers : Nat
  pollerWaiterActive : Bool
  lock : Option WorkerId
  owes : List Thread
  /-- the wake descriptor of the poller is readable -/
  wakePending : Bool

/-- The run queue: its tasks in order and the capacity of its ring. -/
structure RunQueue where
  tasks : List TaskId
  capacity : Nat

/-- Channels with everything their operations touch besides the scheduler. -/
structure Chans where
  chan : ChanId → Channel
  registry : List ChanId
  nextChan : ChanId
  waiter : WaiterId → Waiter
  select : CallId → SelectState
  mem : Memory
  clock : CallId
  log : List Event

/-- Progress of `croutine_runtime_init`, `_run` and `_shutdown`. -/
inductive Lifecycle where
  | preInit
  | inited
  | runSpawn
  | creating (next : Nat)
  | joining
  | ranOut
  | shutJoin
  | drained
  | down
  deriving DecidableEq

/-- A task woken with readiness: the registration period of its descriptor when
it parked, and the period the kernel event was reported for. -/
structure ReadyRecord where
  task : TaskId
  fd : Int
  parkPeriod : Nat
  eventPeriod : Nat
  deriving DecidableEq

structure Sys where
  ch : Chans
  tasks : TaskId → Task
  ledger : TaskId → Ledger
  freeLog : List FreeRecord
  nextTask : TaskId
  spawns : List (Thread × TaskId)
  runq : RunQueue
  io : IoWaitTable
  poller : Poller
  readyLog : List ReadyRecord
  wk : Workers
  shutdownRequested : Bool
  schedulerMainFinished : Bool
  mainFinished : Bool
  mainSpawned : Bool
  life : Lifecycle

/-- Choices of the environment inside one critical section: whether growing a run
queue of a given capacity succeeds, which of the unsignalled waiters a
`pthread_cond_signal` unblocks, whether the I/O wait table can grow, and the
poller's outcomes. -/
structure Oracle where
  grow : Nat → Bool
  pick : List WorkerId → Nat
  ioGrow : Bool
  poller : PollerOracle

namespace Sys

def setTask (s : Sys) (t : TaskId) (task : Task) : Sys :=
  { s with tasks := Function.update s.tasks t task }

def setPc (s : Sys) (w : WorkerId) (pc : Pc) : Sys :=
  { s with wk := { s.wk with pc := Function.update s.wk.pc w pc } }

/-- `worker_current_task` on a thread. -/
def currentTask (s : Sys) : Thread → Option TaskId
  | .worker w =>
    match s.wk.pc w with
    | .running t => some t
    | _ => none
  | .runtime | .external _ => none

/-- A thread that runs user code may call the API: it has no poller wake to make,
is not inside `worker_spawn`, and a task is not inside a blocking call. -/
def canAct (s : Sys) (θ : Thread) : Bool :=
  !s.wk.owes.contains θ && !s.spawns.any (fun p => p.1 = θ) &&
    match θ with
    | .external _ => true
    | .runtime => false
    | .worker w =>
      match s.wk.pc w with
      | .running t => (s.tasks t).frame = .user
      | _ => false

def lockFree (s : Sys) : Bool := s.wk.lock.isNone

end Sys

/-! ## Channel state -/

namespace Chans

def queue (κ : Chans) (c : ChanId) (op : Direction) : List WaiterId :=
  (κ.chan c).queue op

def setChan (κ : Chans) (c : ChanId) (ch : Channel) : Chans :=
  { κ with chan := Function.update κ.chan c ch }

def setQueue (κ : Chans) (c : ChanId) (op : Direction) (q : List WaiterId) : Chans :=
  κ.setChan c ((κ.chan c).setQueue op q)

/-- Store the `channel` field of a waiter. -/
def setLink (κ : Chans) (w : WaiterId) (link : Option ChanId) : Chans :=
  { κ with waiter := Function.update κ.waiter w { κ.waiter w with channel := link } }

def setSelect (κ : Chans) (k : CallId) (st : SelectState) : Chans :=
  { κ with select := Function.update κ.select k st }

def record (κ : Chans) (e : Event) : Chans :=
  { κ with log := κ.log ++ [e] }

/-- `copy_value` into user memory. -/
def copyValue (κ : Chans) (dst : Addr) (v : Bytes) : Chans :=
  { κ with mem := writeBytes κ.mem dst v }

/-- A waiter still eligible for waking: regular, or of a select not yet done. -/
def live (κ : Chans) (w : WaiterId) : Bool :=
  match (κ.waiter w).kind, (κ.waiter w).state with
  | .select, some k => !(κ.select k).done
  | _, _ => true

end Chans

end Croutine
