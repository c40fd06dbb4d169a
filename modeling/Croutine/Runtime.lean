import Croutine.WorkerLoop

/-!
# The runtime as a machine

`Action` lists every step any thread can take, with the choices of its
environment, and `step` is the resulting state.  A step that takes the scheduler
lock is enabled only when the lock is free.
-/

namespace Croutine

inductive Action where
  -- calls of the API by user code
  | channelCreate (θ : Thread) (elemSize capacity : Nat) (allocOk : Bool)
  | channelDestroy (θ : Thread) (c : ChanId)
  | channelSend (θ : Thread) (c : ChanId) (value : Addr) (o : Oracle)
  | channelTrySend (θ : Thread) (c : ChanId) (value : Addr) (o : Oracle)
  | channelRecv (θ : Thread) (c : ChanId) (out : Addr) (o : Oracle)
  | channelTryRecv (θ : Thread) (c : ChanId) (out : Addr) (o : Oracle)
  | channelClose (θ : Thread) (c : ChanId) (o : Oracle)
  | select (θ : Thread) (cases : List SelectCase) (hasDefault : Bool)
      (choice : SelectChoice) (o : Oracle)
  | userWrite (θ : Thread) (a : Addr) (bs : Bytes)
  | spawnAlloc (θ : Thread) (r : SpawnRequest)
  | spawnPublish (θ : Thread) (t : TaskId) (o : Oracle)
  | forgetFd (θ : Thread) (fd : Int) (o : Oracle)
  | requestShutdown (θ : Thread) (o : Oracle)
  | pollerWake (θ : Thread)
  -- steps of the task a worker runs
  | waitIo (w : WorkerId) (fd : Int) (direction : Filter) (o : Oracle)
  | yield (w : WorkerId)
  | callReturn (w : WorkerId)
  | taskReturn (w : WorkerId)
  | finishMain (w : WorkerId)
  | finishSched (w : WorkerId)
  | switchOut (w : WorkerId)
  -- steps of a worker in the scheduler
  | release (w : WorkerId)
  | rereadShutdown (w : WorkerId)
  | requeue (w : WorkerId) (o : Oracle)
  | cleanup (w : WorkerId)
  | loop (w : WorkerId)
  | condReturn (w : WorkerId)
  | kernelReturn (w : WorkerId) (batch : List Reported)
  | kernelError (w : WorkerId)
  | filterBatch (w : WorkerId)
  | pollReturn (w : WorkerId) (o : Oracle)
  | resume (w : WorkerId)
  -- the kernel's readiness of a descriptor changes
  | setReady (fd : Int) (mask : EpollMask)
  -- the thread in croutine_runtime_init, _run and _shutdown
  | runtimeInit
  | runCall
  | workersAllocFail (o : Oracle)
  | createWorker
  | createWorkerFail (o : Oracle)
  | waitForMain
  | joinWorkers
  | shutdownCall (o : Oracle)
  | deinitDrain
  | deinitClose

/-- A value of the C type `int`. -/
def isInt (n : Int) : Bool := -2 ^ 31 ≤ n && n < 2 ^ 31

/-- The thread is inside `croutine_runtime_run` and its task is not yet spawned,
or it runs user code. -/
def canSpawn (s : Sys) (θ : Thread) (isMain : Bool) : Bool :=
  if isMain then
    θ = .runtime && s.life = .runSpawn && !s.spawns.any (fun p => p.1 = θ)
  else s.canAct θ

/-- Between `croutine_runtime_init` and the end of `worker_deinit`. -/
def Sys.initialized (s : Sys) : Bool :=
  s.life ≠ .preInit && s.life ≠ .down

def MAX_POLLER_EVENTS : Nat := 64

/-- The batch a kernel wait returns: at most `MAX_POLLER_EVENTS` distinct reports,
each one possible, and at least one when the wait has no timeout. -/
def kernelBatch (s : Sys) (timeout : Timeout) (batch : List Reported) :
    Option (List RawEvent) :=
  if batch.length ≤ MAX_POLLER_EVENTS ∧ batch.Nodup ∧ (timeout = .infinite → batch ≠ []) then
    batch.mapM (s.poller.report s.wk.wakePending)
  else none

/-- The tail of a blocking call after the task was resumed.  Only an operation
that succeeded on a single channel and an I/O wait return without the lock. -/
def callReturn (s : Sys) (t : TaskId) : Res Sys :=
  let task := s.tasks t
  let user := s.setTask t { task with frame := .user }
  match task.frame with
  | .user => .error .disabled
  | .ioWait => .ok user
  | .single op call c parked => do
    let success := parked && task.channelWakeSuccess
    Res.require (success || s.lockFree)
    return user.mapCh fun κ => returnFromSingle κ op call c success
  | .select call cases parked => do
    Res.require s.lockFree
    return user.mapCh fun κ =>
      returnFromSelect κ call cases (parked && task.channelWakeSuccess)

/-- The end of a task's function (`task_finished`). -/
def taskReturn (s : Sys) (w : WorkerId) (t : TaskId) : Sys :=
  let task := s.tasks t
  (s.setTask t { task with state := .finished }).setPc w
    (if task.isMain then .finishMain t else .switching t .finished)

def step (s : Sys) : Action → Res Sys
  | .channelCreate θ elemSize capacity allocOk => do
    Res.require (s.canAct θ && s.lockFree)
    return s.mapCh fun κ => croutineChannelCreate κ elemSize capacity allocOk
  | .channelDestroy θ c => do
    Res.require (s.canAct θ && s.lockFree && s.ch.registry.contains c)
    return s.mapCh fun κ => croutineChannelDestroy κ c
  | .channelSend θ c value o => do
    Res.require (s.canAct θ && s.lockFree && s.ch.registry.contains c)
    croutineChannelSend o s θ c value
  | .channelTrySend θ c value o => do
    Res.require (s.canAct θ && s.lockFree && s.ch.registry.contains c)
    croutineChannelTrySend o s c value
  | .channelRecv θ c out o => do
    Res.require (s.canAct θ && s.lockFree && s.ch.registry.contains c)
    croutineChannelRecv o s θ c out
  | .channelTryRecv θ c out o => do
    Res.require (s.canAct θ && s.lockFree && s.ch.registry.contains c)
    croutineChannelTryRecv o s c out
  | .channelClose θ c o => do
    Res.require (s.canAct θ && s.lockFree && s.ch.registry.contains c)
    channelCloseLocked o s c
  | .select θ cases hasDefault choice o => do
    Res.require (s.canAct θ && s.lockFree &&
      cases.all fun cs => cs.channel.all s.ch.registry.contains)
    croutineSelect o choice s θ cases hasDefault
  | .userWrite θ a bs => do
    Res.require (s.canAct θ)
    return s.mapCh (·.copyValue a bs)
  | .spawnAlloc θ r => do
    Res.require (canSpawn s θ r.isMain && s.life ≠ .down)
    return workerSpawnAlloc s θ r
  | .spawnPublish θ t o => do
    Res.require (s.lockFree && s.spawns.contains (θ, t))
    return workerSpawnPublish o s θ t
  | .forgetFd θ fd o => do
    Res.require (s.canAct θ && s.lockFree && isInt fd)
    workerForgetFd o s θ fd
  | .requestShutdown θ o => do
    Res.require (s.canAct θ && s.lockFree && s.initialized)
    workerRequestShutdown o s θ
  | .pollerWake θ => do
    Res.require (s.wk.owes.contains θ)
    return s.mapWk fun wk => { wk.pollerWake with owes := wk.owes.erase θ }
  -- croutine_io_wait_readable and croutine_io_wait_writable
  | .waitIo w fd direction o => do
    Res.require (s.canAct (.worker w) && s.lockFree && isInt fd)
    match s.wk.pc w with
    | .running t =>
      return workerParkCurrentOnIo o s w t fd (IoEvents.none.put direction true)
    | _ => .error .disabled
  | .yield w => do
    Res.require (s.canAct (.worker w))
    match s.wk.pc w with
    | .running t => return s.setPc w (.switching t .runnable)
    | _ => .error .disabled
  | .callReturn w =>
    match s.wk.pc w with
    | .running t => callReturn s t
    | _ => .error .disabled
  | .taskReturn w => do
    Res.require (s.canAct (.worker w))
    match s.wk.pc w with
    | .running t => return taskReturn s w t
    | _ => .error .disabled
  | .finishMain w =>
    match s.wk.pc w with
    | .finishMain t => .ok ({ s with mainFinished := true }.setPc w (.finishSched t))
    | _ => .error .disabled
  | .finishSched w => do
    Res.require s.lockFree
    match s.wk.pc w with
    | .finishSched t =>
      return { s with schedulerMainFinished := true }.mapWk fun wk =>
        (wk.condBroadcast.setPc w (.switching t .finished)).owe (.worker w)
    | _ => .error .disabled
  | .switchOut w => do
    Res.require (!s.wk.owes.contains (.worker w))
    match s.wk.pc w with
    | .switching t st =>
      return (s.setTask t { s.tasks t with contextSaved := true }).setPc w
        (if st.waiting then .returned t st else .reread t st)
    | _ => .error .disabled
  | .release w =>
    match s.wk.pc w with
    | .returned t st =>
      .ok (s.mapWk fun wk => { wk.setPc w (.reread t st) with lock := none })
    | _ => .error .disabled
  | .rereadShutdown w => do
    Res.require s.lockFree
    match s.wk.pc w with
    | .reread t st => return s.setPc w (afterReread s t st)
    | _ => .error .disabled
  | .requeue w o => do
    Res.require s.lockFree
    match s.wk.pc w with
    | .requeue t => requeueTask o w t s
    | _ => .error .disabled
  | .cleanup w =>
    match s.wk.pc w with
    | .cleanup t => .ok ((cleanupTask s t).setPc w (.top false))
    | _ => .error .disabled
  | .loop w => do
    Res.require s.lockFree
    match s.wk.pc w with
    | .top checked => return loopBody w checked s
    | _ => .error .disabled
  | .condReturn w => do
    -- also without a signal: pthread_cond_wait may return spuriously
    Res.require s.lockFree
    match s.wk.pc w with
    | .condWait _ checked => return leaveCondWait w checked s
    | _ => .error .disabled
  | .kernelReturn w batch =>
    match s.wk.pc w with
    | .polling timeout =>
      match kernelBatch s timeout batch with
      | some raw => .ok (s.setPc w (.polled raw))
      | none => .error .disabled
    | _ => .error .disabled
  | .kernelError w =>
    match s.wk.pc w with
    | .polling _ => .ok (s.setPc w .pollError)
    | _ => .error .disabled
  | .filterBatch w =>
    match s.wk.pc w with
    | .polled raw =>
      .ok (s.mapWk fun wk =>
        { wk.setPc w (.filtered (pollerTranslate s.poller [] raw)) with
          wakePending := wk.wakePending && !raw.any s.poller.isWake })
    | _ => .error .disabled
  | .pollReturn w o => do
    Res.require s.lockFree
    match s.wk.pc w with
    | .filtered events => leavePoll o w events s
    | .pollError => leavePollError w s
    | _ => .error .disabled
  | .resume w =>
    match s.wk.pc w with
    | .dispatched t =>
      .ok ((s.setTask t { s.tasks t with contextSaved := false }).setPc w (.running t))
    | _ => .error .disabled
  | .setReady fd mask =>
    .ok { s with poller := { s.poller with ready := Function.update s.poller.ready fd mask } }
  | .runtimeInit => do
    Res.require (s.life = .preInit && s.lockFree)
    return { s with
      shutdownRequested := false, schedulerMainFinished := false, mainFinished := false
      mainSpawned := false, life := .inited
      wk := { s.wk with pollerWaiterActive := false } }
  | .runCall => do
    Res.require (s.life = .inited && !s.wk.owes.contains .runtime)
    return { s with life := .runSpawn }
  | .workersAllocFail o => do
    Res.require (s.life = .creating 0 && s.lockFree && !s.wk.owes.contains .runtime)
    let s ← workerRequestShutdown o s .runtime
    return { s with life := .ranOut }
  | .createWorker =>
    match s.life with
    | .creating k => do
      Res.require (k < s.wk.count && !s.wk.owes.contains .runtime)
      return { s.setPc k (.top false) with life := .creating (k + 1) }
    | _ => .error .disabled
  | .createWorkerFail o =>
    match s.life with
    | .creating k => do
      Res.require (k < s.wk.count && s.lockFree && !s.wk.owes.contains .runtime)
      let s ← workerRequestShutdown o s .runtime
      return { s with life := .joining }
    | _ => .error .disabled
  | .waitForMain => do
    Res.require (s.life = .creating s.wk.count && s.mainFinished)
    return { s with life := .joining }
  | .joinWorkers => do
    Res.require (s.life = .joining && !s.wk.owes.contains .runtime &&
      (List.range s.wk.count).all fun w =>
        s.wk.pc w = .exited || s.wk.pc w = .notStarted)
    return { s with life := .ranOut }
  | .shutdownCall o => do
    Res.require ((s.life = .inited || s.life = .ranOut) && s.lockFree &&
      !s.wk.owes.contains .runtime)
    let s ← workerRequestShutdown o s .runtime
    return { s with life := .shutJoin }
  | .deinitDrain => do
    Res.require (s.life = .shutJoin && s.lockFree && !s.wk.owes.contains .runtime)
    return { workerDeinitDrain s with life := .drained }
  | .deinitClose => do
    Res.require (s.life = .drained)
    return workerDeinitClose s

/-- The state after `runtime_init_impl`: nothing spawned, no channels, and a run
queue of positive capacity. -/
def initial (backend : Backend) (wakeFd : Int) (workers runCapacity ioCapacity : Nat) : Sys where
  ch :=
    { chan := fun _ => {}, registry := [], nextChan := 0, waiter := fun _ => {},
      select := fun _ => {}, mem := fun _ => 0, clock := 0, log := [] }
  tasks := fun _ => {}
  ledger := fun _ => {}
  freeLog := []
  nextTask := 0
  spawns := []
  runq := ⟨[], runCapacity⟩
  io := ⟨List.replicate ioCapacity ioWaitEntryReset, 0⟩
  poller :=
    { backend := backend, interest := fun _ => none, filters := fun _ => .none,
      ready := fun _ => .empty, wakeReadFd := wakeFd, fdGenerations := fun _ => 0,
      fdRegistered := fun _ => false, fdTableCapacity := 0, bumps := fun _ => 0,
      periods := 0, began := fun _ => 0 }
  readyLog := []
  wk :=
    { count := workers, pc := fun _ => .notStarted, idleWorkers := 0,
      pollerWaiterActive := false, lock := none, owes := [], wakePending := false }
  shutdownRequested := false
  schedulerMainFinished := false
  mainFinished := false
  mainSpawned := false
  life := .preInit

/-- The runtime on a back end, with any number of workers. -/
def runtime (backend : Backend) : Machine Sys Action where
  init s := ∃ wakeFd workers runCapacity ioCapacity, 0 < workers ∧ 0 < runCapacity ∧
    s = initial backend wakeFd workers runCapacity ioCapacity
  step := step

/-! ## Concrete runs -/

/-- An environment in which every allocation and registration succeeds and a
signal goes to the first waiter. -/
def Oracle.calm : Oracle :=
  ⟨fun _ => true, fun _ => 0, true, ⟨fun _ _ _ => true, fun _ _ _ => true, true⟩⟩

/-- A spawn without an argument copy that is given all it asks for. -/
def SpawnRequest.plain (isMain : Bool) : SpawnRequest := ⟨isMain, false, true, true, true⟩

/-- A small epoll runtime. -/
def small (workers : Nat) : Sys := initial .epoll 3 workers 4 4

theorem small_init (workers : Nat) (h : 0 < workers) : (runtime .epoll).init (small workers) :=
  ⟨3, workers, 4, 4, h, by decide, rfl⟩

/-- Initialize, spawn the main task and start the workers. -/
def startUp (workers : Nat) : List Action :=
  [.runtimeInit, .runCall, .spawnAlloc .runtime (.plain true),
    .spawnPublish .runtime 0 .calm] ++ List.replicate workers .createWorker

/-- Worker `w` looks for ready descriptors, finds none, and resumes the oldest
runnable task. -/
def dispatchOn (w : WorkerId) : List Action :=
  [.loop w, .kernelReturn w [], .filterBatch w, .pollReturn w .calm, .resume w]

/-- The task that parked on worker `w` hands its lock over. -/
def handOver (w : WorkerId) : List Action :=
  [.switchOut w, .release w, .rereadShutdown w]

/-- The main task runs beside a channel of capacity one. -/
def oneChannel : List Action :=
  startUp 1 ++ dispatchOn 0 ++ [.channelCreate (.external 0) 1 1 true]

/-- The main task waits for a value and all three workers sleep when another thread spawns
a task: it signals one worker, writes a wake token for the one in the poller, and leaves
the third asleep. -/
def spawnBesideSleepers : List Action :=
  startUp 3 ++ dispatchOn 0 ++
    [.channelCreate (.external 0) 1 0 true, .channelRecv (.worker 0) 0 8 .calm] ++ handOver 0 ++
    [.loop 0, .loop 1, .loop 2, .spawnAlloc (.external 0) (.plain false),
      .spawnPublish (.external 0) 1 .calm, .pollerWake (.external 0)]

end Croutine
