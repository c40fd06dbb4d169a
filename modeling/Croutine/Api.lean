import Croutine.Lib.Account
import Croutine.LifeMoves
import Croutine.Stack

/-!
# Starting and stopping the process-wide runtime

`croutine_runtime_init`, `croutine_runtime_run` and `croutine_runtime_shutdown` of `runtime.c`
with the checks and flags they begin with, and what they acquire and release: the run queue and
the wait table, the descriptors of the poller, the array of thread handles and the threads.
`worker_init` runs `runtime_init_impl` once, for the first thread that calls it, be it in
`croutine_runtime_init` or in a spawn.

The scheduler below is the one of `Runtime`, whose first state is that after
`runtime_init_impl`.  The number of workers is part of that state although
`croutine_runtime_init` decides it, as nothing reads it before.  The three functions are called
by one thread; all other threads go on in between.
-/

namespace Croutine

/-- What the process acquires and has to release.  The wake descriptor is an eventfd on epoll and
the two ends of a pipe on kqueue. -/
inductive Resource where
  | runQueue
  | ioWaits
  | pollerFd
  | wakeFd
  | wakeWriteFd
  | workerArray
  | thread (k : Nat)
  deriving DecidableEq

/-- Answers to the calls that `runtime_init_impl` makes: the two allocations, `epoll_create1` or
`kqueue`, `eventfd` or `pipe`, the flags of the pipe, and the registration of the wake
descriptor. -/
structure InitAnswers where
  queueOk : Bool
  tableOk : Bool
  pollerOk : Bool
  wakeOk : Bool
  prepareOk : Bool
  registerOk : Bool

abbrev Holdings := Account Resource

/-- `close_if_open`, and the tests of `croutine_poller_deinit` on epoll. -/
def closeIfOpen (a : Holdings) (r : Resource) : Holdings :=
  if a.held r then a.release r else a

/-- `create_wake_pipe` of `poller_kqueue.c`. -/
def createWakePipe (ans : InitAnswers) (a : Holdings) : Holdings × Bool :=
  if !ans.wakeOk then (a, false)
  else
    let a := (a.acquire .wakeFd).acquire .wakeWriteFd
    if !ans.prepareOk then ((a.release .wakeFd).release .wakeWriteFd, false) else (a, true)

def croutinePollerInit (backend : Backend) (ans : InitAnswers) (a : Holdings) : Holdings × Bool :=
  if a.held .pollerFd then (a, true)
  else if !ans.pollerOk then (a, false)
  else
    let a := a.acquire .pollerFd
    match backend with
    | .epoll =>
      if !ans.wakeOk then (a.release .pollerFd, false)
      else
        let a := a.acquire .wakeFd
        if !ans.registerOk then ((a.release .wakeFd).release .pollerFd, false) else (a, true)
    | .kqueue =>
      match createWakePipe ans a with
      | (a, false) => (closeIfOpen a .pollerFd, false)
      | (a, true) =>
        if !ans.registerOk then
          (closeIfOpen (closeIfOpen (closeIfOpen a .wakeWriteFd) .wakeFd) .pollerFd, false)
        else (a, true)

def croutinePollerDeinit (backend : Backend) (a : Holdings) : Holdings :=
  match backend with
  | .epoll => closeIfOpen (closeIfOpen a .wakeFd) .pollerFd
  | .kqueue => closeIfOpen (closeIfOpen (closeIfOpen a .wakeWriteFd) .wakeFd) .pollerFd

def runtimeInitImpl (backend : Backend) (ans : InitAnswers) (a : Holdings) : Holdings × Bool :=
  if !ans.queueOk then (a, false)
  else
    let a := a.acquire .runQueue
    if !ans.tableOk then (a.release .runQueue, false)
    else
      match croutinePollerInit backend ans (a.acquire .ioWaits) with
      | (a, false) => ((a.release .ioWaits).release .runQueue, false)
      | (a, true) => (a, true)

/-- `croutine_runtime_config`. -/
structure Config where
  workerCount : Nat
  stackSize : BitVec 64

/-- The number of workers that `croutine_runtime_init` settles on; `none` where it refuses.
`online` is the answer of `sysconf`. -/
def configuredWorkers (config : Option Config) (online : Int) : Option Nat :=
  let count := match config with
    | some c => c.workerCount
    | none => 0
  if count ≠ 0 then some count
  else if online ≤ 0 then none
  else some online.toNat

/-- What a call of the control thread returned. -/
inductive Returned where
  | init (ok : Bool)
  | ran (code : Int)
  | shutdown
  deriving DecidableEq

/-- The static variables of `runtime.c` and those of `worker.c` that tell whether it is
initialized, over the state of the scheduler.  `runtimeWorkers` says that the pointer is not
`NULL`, and `exitCode` is the local variable of `croutine_runtime_run`. -/
structure Api where
  sys : Sys
  runtimeInitialized : Bool := false
  runtimeEverInitialized : Bool := false
  runtimeRan : Bool := false
  runtimeInitOnce : Bool := false
  runtimeInitOk : Bool := false
  runtimeWorkerCount : Nat := 0
  runtimeStartedWorkers : Nat := 0
  runtimeWorkers : Bool := false
  stackSize : BitVec 64 := defaultStackSize
  mainExitCode : Int := 0
  exitCode : Int := 0
  account : Holdings := {}
  returned : List Returned := []

namespace Api

/-- `worker_init`. -/
def workerInit (backend : Backend) (ans : InitAnswers) (x : Api) : Api :=
  if x.runtimeInitOnce then x
  else
    let (a, ok) := runtimeInitImpl backend ans x.account
    { x with runtimeInitOnce := true, runtimeInitOk := ok, account := a }

/-- The control thread is outside the three functions. -/
def idle (x : Api) : Bool :=
  (x.sys.life = .preInit || x.sys.life = .inited || x.sys.life = .ranOut || x.sys.life = .down) &&
    !x.sys.wk.owes.contains .runtime

def returns (x : Api) (r : Returned) : Api := { x with returned := x.returned ++ [r] }

/-- Join the started workers and free the array of their handles. -/
def joinAll (x : Api) : Api :=
  let a := ((List.range x.runtimeStartedWorkers).map Resource.thread).foldl Account.release
    x.account
  { x with
    account := closeIfOpen a .workerArray, runtimeWorkers := false, runtimeStartedWorkers := 0 }

end Api

/-- Steps that come after a successful `worker_init` of the same thread. -/
def Action.needsInit : Action → Bool
  | .spawnAlloc _ _ => true
  | _ => false

inductive ApiAction where
  /-- a step of any thread that is not one of the three functions' own -/
  | act (a : Action)
  /-- `worker_init` in a spawn -/
  | workerInit (ans : InitAnswers)
  | setExitCode (code : Int)
  | init (config : Option Config) (online : Int) (ans : InitAnswers)
  | run (mainFn : Bool)
  | allocWorkers (ok : Bool) (o : Oracle)
  | createWorker (ok : Bool) (o : Oracle)
  | waitForMain
  | joinWorkers
  | shutdown (o : Oracle)
  | deinitDrain
  | deinitClose

def apiStep (backend : Backend) (x : Api) : ApiAction → Res Api
  | .act a => do
    Res.require (!a.ofControl && (!a.needsInit || x.runtimeInitOk))
    let s ← step x.sys a
    -- the main task could not be spawned
    if x.sys.life = .runSpawn ∧ s.life = .ranOut then return { x with sys := s }.returns (.ran (-1))
    else return { x with sys := s }
  | .workerInit ans => .ok (x.workerInit backend ans)
  | .setExitCode code => .ok { x with mainExitCode := code }
  | .init config online ans => do
    Res.require x.idle
    if x.runtimeInitialized || x.runtimeEverInitialized then return x.returns (.init false)
    else
      match configuredWorkers config online,
          configuredStackSize ((config.map Config.stackSize).getD 0) with
      | some count, some stackSize =>
        let x := { x.workerInit backend ans with stackSize := stackSize, mainExitCode := 0 }
        if !x.runtimeInitOk then
          return { x with runtimeEverInitialized := true }.returns (.init false)
        else do
          Res.require (count = x.sys.wk.count)
          let s ← step x.sys .runtimeInit
          return { x with
            sys := s, runtimeEverInitialized := true, runtimeWorkerCount := count
            runtimeInitialized := true }.returns (.init true)
      | _, _ => return x.returns (.init false)
  | .run mainFn => do
    Res.require x.idle
    if !x.runtimeInitialized || x.runtimeRan || !mainFn then return x.returns (.ran (-1))
    else
      let s ← step x.sys .runCall
      return { x with sys := s, runtimeRan := true }
  | .allocWorkers ok o => do
    Res.require (x.sys.life = .creating 0 && !x.runtimeWorkers &&
      !x.sys.wk.owes.contains .runtime)
    if ok then return { x with runtimeWorkers := true, account := x.account.acquire .workerArray }
    else
      let s ← step x.sys (.workersAllocFail o)
      return { x with sys := s }.returns (.ran (-1))
  | .createWorker ok o => do
    Res.require x.runtimeWorkers
    if ok then
      let s ← step x.sys .createWorker
      return { x with
        sys := s, runtimeStartedWorkers := x.runtimeStartedWorkers + 1
        account := x.account.acquire (.thread x.runtimeStartedWorkers) }
    else
      let s ← step x.sys (.createWorkerFail o)
      return { x with sys := s, exitCode := -1 }
  | .waitForMain => do
    Res.require (x.runtimeWorkers && x.runtimeStartedWorkers = x.runtimeWorkerCount)
    let s ← step x.sys .waitForMain
    return { x with sys := s, exitCode := x.mainExitCode }
  | .joinWorkers => do
    let s ← step x.sys .joinWorkers
    return { x with sys := s }.joinAll.returns (.ran x.exitCode)
  | .shutdown o => do
    Res.require x.idle
    if !x.runtimeInitialized then return x.returns .shutdown
    else
      let s ← step x.sys (.shutdownCall o)
      return { x with sys := s }
  | .deinitDrain => do
    let s ← step x.sys .deinitDrain
    return { x with sys := s }.joinAll
  | .deinitClose => do
    let s ← step x.sys .deinitClose
    return { x with
      sys := s
      account := ((croutinePollerDeinit backend x.account).release .ioWaits).release .runQueue
      runtimeInitOk := false, runtimeInitialized := false }.returns .shutdown

/-- A process: nothing is initialized yet. -/
def api (backend : Backend) : Machine Api ApiAction where
  init x := (runtime backend).init x.sys ∧ x = { sys := x.sys }
  step := apiStep backend

end Croutine
