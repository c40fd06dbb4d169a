import Croutine.Scheduler

/-!
# Waiting for readiness

Parking a task on a descriptor, waking the tasks of a descriptor, and forgetting
a descriptor.  These are the only functions that touch the I/O wait table and the
poller's registrations together.
-/

namespace Croutine

/-- The registration period of a descriptor. -/
def Poller.periodOf (p : Poller) (fd : Int) : Nat :=
  match p.interest fd with
  | some r => r.period
  | none => 0

/-- One round of the wake loop of `wake_waiting_tasks_locked`. -/
def wakeIoTask (o : Oracle) (fd : Int) (success : Bool) (period : Nat) (s : Sys)
    (t : TaskId) : Res Sys :=
  match enqueueRunnableTaskLocked o
      (s.setTask t { s.tasks t with ioWakeSuccess := success }) t with
  | none => .error (.abort "Failed to enqueue runnable task")
  | some s' =>
    if success then
      .ok { s' with readyLog := s'.readyLog ++ [⟨t, fd, (s.tasks t).ioPeriod, period⟩] }
    else .ok s'

/-- The tasks that a set of ready directions wakes, and the entry without them. -/
def takeReadyTasks (entry : IoWaitEntry) (ready : IoEvents) : List TaskId × IoWaitEntry :=
  let reader := if ready.read then entry.readTask else none
  let entry := match reader with
    | some t => ioWaitEntryClearTask entry t
    | none => entry
  let writer := if ready.write then entry.writeTask else none
  let entry := match writer with
    | some t => ioWaitEntryClearTask entry t
    | none => entry
  (reader.toList ++ (if writer = reader then [] else writer.toList), entry)

/-- `wake_waiting_tasks_locked`, with the number of tasks it woke.  `period` is
the registration period of the event that is applied. -/
def wakeWaitingTasksLocked (o : Oracle) (s : Sys) (fd : Int) (ready : IoEvents)
    (success : Bool) (period : Nat) : Res (Sys × Nat) :=
  match ioWaitTableFind s.io fd with
  | none => .ok (s, 0)
  | some i => do
    let entry := s.io.entries.getD i ioWaitEntryReset
    let (tasks, rest) := takeReadyTasks entry ready
    let newEvents := ioWaitEntryEvents rest
    let (poller, ok) := croutinePollerSet o.poller s.poller fd (ioWaitEntryEvents entry) newEvents
    if !ok then
      .error (.abort "Failed to update poller interest while waking task")
    else
      let io := s.io.setEntry i rest
      let io := if newEvents = .none then ioWaitTableRemoveEntry io i else io
      let s ← tasks.foldlM (wakeIoTask o fd success period) { s with poller := poller, io := io }
      return (if tasks = [] then s else s.mapWk Workers.condBroadcast, tasks.length)

/-- `worker_forget_fd`. -/
def workerForgetFd (o : Oracle) (s : Sys) (θ : Thread) (fd : Int) : Res Sys :=
  if fd < 0 then .ok s
  else do
    let (s, woken) ← wakeWaitingTasksLocked o s fd .all false 0
    return if 0 < woken ∧ s.wk.pollerWaiterActive then s.mapWk (·.owe θ) else s

/-- The final stores of `worker_park_current_on_io` and the switch back. -/
def parkOnIo (s : Sys) (w : WorkerId) (t : TaskId) (fd : Int) (events : IoEvents)
    (i : Nat) (entry : IoWaitEntry) (poller : Poller) : Sys :=
  let entry := { entry with
    readTask := if events.read then some t else entry.readTask
    writeTask := if events.write then some t else entry.writeTask }
  let s := { s with poller := poller, io := s.io.setEntry i entry }
  let s := s.setTask t { s.tasks t with
    state := .waitingIo, ioFd := fd, ioEvents := events, ioWakeSuccess := false,
    frame := .ioWait, ioPeriod := poller.periodOf fd }
  s.mapWk fun wk => { wk.setPc w (.switching t .waitingIo) with lock := some w }

/-- `worker_park_current_on_io` on the worker that runs `t`.  In every branch but
the last it returns `CROUTINE_IO_WAIT_FAILED` and the task runs on. -/
def workerParkCurrentOnIo (o : Oracle) (s : Sys) (w : WorkerId) (t : TaskId) (fd : Int)
    (events : IoEvents) : Sys :=
  if events = .none || s.shutdownRequested then s
  else
    match ioWaitTableGetOrInsert o.ioGrow s.io fd with
    | (io, none) => { s with io := io }
    | (io, some i) =>
      let s := { s with io := io }
      let entry := io.entries.getD i ioWaitEntryReset
      let oldEvents := ioWaitEntryEvents entry
      if (events.read && oldEvents.read) || (events.write && oldEvents.write) then s
      else
        match croutinePollerSet o.poller s.poller fd oldEvents (oldEvents.union events) with
        | (poller, true) => parkOnIo s w t fd events i entry poller
        | (poller, false) =>
          { s with
            poller := poller
            io := if oldEvents = .none then ioWaitTableRemoveEntry io i else io }

end Croutine
