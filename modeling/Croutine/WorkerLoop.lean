import Croutine.Select
import Croutine.IoWait

/-!
# The worker loop, spawning and shutdown

`worker_loop_impl` cut at the points where the lock is taken or released, and the
critical sections of `worker_spawn`, `worker_request_shutdown` and
`worker_deinit`.
-/

namespace Croutine

/-- One iteration of the inner loop of `worker_loop_impl` under the lock: exit,
start a poll, dispatch a task, or wait on the condition variable. -/
def loopBody (w : WorkerId) (checked : Bool) (s : Sys) : Sys :=
  if s.shutdownRequested || s.schedulerMainFinished then s.setPc w .exited
  else
    let haveRunnable := !s.runq.tasks.isEmpty
    if !s.wk.pollerWaiterActive && (!haveRunnable || !checked) then
      s.mapWk fun wk =>
        { wk.setPc w (.polling (if haveRunnable then .zero else .infinite)) with
          pollerWaiterActive := true }
    else
      match taskQueuePop s with
      | some (t, s) => s.setPc w (.dispatched t)
      | none =>
        s.mapWk fun wk =>
          { wk.setPc w (.condWait false checked) with idleWorkers := wk.idleWorkers + 1 }

/-- `pthread_cond_wait` returned with the lock. -/
def leaveCondWait (w : WorkerId) (checked : Bool) (s : Sys) : Sys :=
  loopBody w checked
    (s.mapWk fun wk => { wk with idleWorkers := wk.idleWorkers - 1 })

/-- Give up the poller role after a wait. -/
def releasePoller (s : Sys) : Sys :=
  s.mapWk fun wk => { wk.condBroadcast with pollerWaiterActive := false }

/-- Apply one event of a batch. -/
def applyPollEvent (o : Oracle) (s : Sys) (e : PollEvent) : Res Sys := do
  let (s, _) ← wakeWaitingTasksLocked o s e.fd e.events true e.period
  return s

/-- The worker is back from `croutine_poller_wait` with a batch. -/
def leavePoll (o : Oracle) (w : WorkerId) (events : List PollEvent) (s : Sys) : Res Sys :=
  let s := releasePoller s
  if s.shutdownRequested || s.schedulerMainFinished then .ok (s.setPc w .exited)
  else do
    let s ← events.foldlM (applyPollEvent o) s
    return loopBody w true s

/-- The worker is back from a `croutine_poller_wait` that failed. -/
def leavePollError (w : WorkerId) (s : Sys) : Res Sys :=
  let s := releasePoller s
  if s.shutdownRequested || s.schedulerMainFinished then .ok (s.setPc w .exited)
  else .error (.abort "Poller wait failed")

/-- The worker decides what to do with the task that switched back. -/
def afterReread (s : Sys) (t : TaskId) : TaskState → Pc
  | .runnable => if s.shutdownRequested then .cleanup t else .requeue t
  | .waitingIo | .waitingChannel => .top false
  | .finished => .cleanup t

def requeueTask (o : Oracle) (w : WorkerId) (t : TaskId) (s : Sys) : Res Sys :=
  match taskQueuePush o s t with
  | none => .error (.abort "Failed to requeue task")
  | some s => .ok (s.mapWk fun wk => (wk.condSignal o.pick).setPc w (.top false))

/-! ## Spawning -/

/-- The parameters of a `worker_spawn` call and the outcomes of its allocations. -/
structure SpawnRequest where
  isMain : Bool
  ownsArg : Bool
  callocOk : Bool
  stackOk : Bool
  argOk : Bool

/-- A failed spawn of the main task ends `croutine_runtime_run`. -/
def spawnFailed (s : Sys) (isMain : Bool) : Sys :=
  if isMain then { s with life := .ranOut } else s

/-- `worker_spawn` up to the point where the task is ready to be published. -/
def workerSpawnAlloc (s : Sys) (θ : Thread) (r : SpawnRequest) : Sys :=
  if !r.callocOk then spawnFailed s r.isMain
  else
    let t := s.nextTask
    let s := { s with nextTask := t + 1 }
    if !r.stackOk then
      spawnFailed (s.freeStruct t { structAllocs := 1 }) r.isMain
    else if r.ownsArg && !r.argOk then
      spawnFailed (s.freeStruct t { structAllocs := 1, stackAllocs := 1, stackFrees := 1 })
        r.isMain
    else
      { s.setTask t { isMain := r.isMain, hasStack := true, ownsArg := r.ownsArg,
                      contextSaved := true } with
        ledger := Function.update s.ledger t
          { structAllocs := 1, stackAllocs := 1, argAllocs := if r.ownsArg then 1 else 0 }
        spawns := (θ, t) :: s.spawns }

/-- Bookkeeping of a task that was pushed. -/
def published (s : Sys) (o : Oracle) (θ : Thread) (t : TaskId) (isMain : Bool) : Sys :=
  { s with
    ledger := Function.update s.ledger t { s.ledger t with published := true }
    wk :=
      let wk := s.wk.condSignal o.pick
      if s.wk.pollerWaiterActive then wk.owe θ else wk
    mainSpawned := s.mainSpawned || isMain
    life := if isMain then .creating 0 else s.life }

/-- The critical section of `worker_spawn` for a task of the calling thread. -/
def workerSpawnPublish (o : Oracle) (s : Sys) (θ : Thread) (t : TaskId) : Sys :=
  let isMain := (s.tasks t).isMain
  let s := { s with spawns := s.spawns.erase (θ, t) }
  if (isMain && s.mainSpawned) || s.shutdownRequested then
    spawnFailed (cleanupTask s t) isMain
  else
    match taskQueuePush o s t with
    | some s => published s o θ t isMain
    | none => spawnFailed (cleanupTask s t) isMain

/-! ## Shutdown -/

/-- `worker_request_shutdown`.  `main_finished` is set under its own lock before
the poller wake that the thread still owes. -/
def workerRequestShutdown (o : Oracle) (s : Sys) (θ : Thread) : Res Sys := do
  let s ← croutineChannelShutdownAllLocked o { s with shutdownRequested := true }
  return { s with wk := s.wk.condBroadcast.owe θ, mainFinished := true }

/-- The loop of `worker_deinit` that drains the run queue. -/
def drainRunQueue : List TaskId → Sys → Sys
  | [], s => s
  | _ :: rest, s =>
    match taskQueuePop s with
    | some (t, s) => drainRunQueue rest (cleanupTask s t)
    | none => s

def cleanupOption (s : Sys) : Option TaskId → Sys
  | some t => cleanupTask s t
  | none => s

/-- One round of the loop of `worker_deinit` over the I/O wait table. -/
def drainIoEntry (s : Sys) (i : Nat) : Sys :=
  let entry := s.io.entries.getD i ioWaitEntryReset
  if !entry.inUse then s
  else
    let s := { s with io := ioWaitTableRemoveEntry s.io i }
    let s := cleanupOption s entry.readTask
    if entry.writeTask ≠ entry.readTask then cleanupOption s entry.writeTask else s

/-- The critical section of `worker_deinit`. -/
def workerDeinitDrain (s : Sys) : Sys :=
  let s := drainRunQueue s.runq.tasks s
  (List.range s.io.entries.length).foldl drainIoEntry s

/-- The rest of `worker_deinit`: the poller, the table and the queue are closed. -/
def workerDeinitClose (s : Sys) : Sys :=
  { s with
    poller := { s.poller with
      interest := fun _ => none
      filters := fun _ => .none
      fdGenerations := fun _ => 0
      fdRegistered := fun _ => false
      fdTableCapacity := 0 }
    io := ⟨[], 0⟩
    runq := ⟨[], 0⟩
    life := .down }

end Croutine
