import Croutine.WorkerMoves

/-!
# Blocking I/O calls

`io.c` on top of the runtime.  A call of `croutine_read`, `croutine_write`, `croutine_accept`
or `croutine_fd_set_nonblocking` is cut at the points where it enters the kernel, reads or
stores `errno`, or waits for readiness.  The caller is a task or an external thread.  A task
that waits may come back on another worker, and `errno` belongs to the thread: between two
steps of a call any other code may have changed the `errno` of any thread that is not inside
a call itself.

Each call keeps the list of what the kernel and the runtime answered it.  No function of
`io.c` reads this list.
-/

namespace Croutine

/-- The values of `errno` that `io.c` tells apart. -/
inductive Errno where
  | EINTR
  | EAGAIN
  | EWOULDBLOCK
  | ECANCELED
  | ENOTSUP
  | other (code : Nat)
  deriving DecidableEq

/-- `croutine_io_wait_result`. -/
inductive IoWaitResult where
  | failed
  | ready
  | closed
  deriving DecidableEq

/-- `wait_errno`. -/
def waitErrno (wait : IoWaitResult) : Errno :=
  if wait = .closed then .ECANCELED else .ENOTSUP

/-- The value of `O_NONBLOCK` on the systems of the two back ends. -/
def oNonblock : Backend → Nat
  | .epoll => 0x800
  | .kqueue => 0x4

/-- A function of `io.c` with its arguments.  Where `accept` stores the peer's address is left
out. -/
inductive IoRequest where
  | read (fd : Int) (buffer : Addr) (count : Nat)
  | write (fd : Int) (buffer : Addr) (count : Nat)
  | accept (fd : Int)
  | setNonblocking (fd : Int)
  deriving DecidableEq

/-- A system call with its arguments. -/
inductive SysCall where
  | read (fd : Int) (buffer : Addr) (count : Nat)
  | write (fd : Int) (buffer : Addr) (count : Nat)
  | accept (fd : Int)
  | getfl (fd : Int)
  | setfl (fd : Int) (flags : Nat)
  | close (fd : Int)
  deriving DecidableEq

/-- What a system call returns; `failed` is `-1` with this `errno`. -/
inductive Answer where
  | moved (data : Bytes)
  | accepted (fd : Nat)
  | flags (flags : Nat)
  | done
  | failed (error : Errno)
  deriving DecidableEq

/-- What a call was told, in order. -/
inductive IoEvent where
  | called (call : SysCall) (answer : Answer)
  | waited (result : IoWaitResult)
  deriving DecidableEq

/-- Where a call is. -/
inductive IoPoint where
  /-- before `read`, `write` or `accept` -/
  | attempt
  /-- the attempt returned `-1` -/
  | failed
  /-- before `croutine_io_wait_readable` or `_writable` -/
  | wait
  /-- inside it, in `switch_from_task` -/
  | parked
  /-- before `set_errno(error); return -1` -/
  | setErrno (error : Errno)
  /-- in `croutine_fd_set_nonblocking`, before `fcntl(fd, F_GETFL)` -/
  | getFlags (fd : Int)
  | getFailed (fd : Int)
  /-- before `fcntl(fd, F_SETFL, flags | O_NONBLOCK)` -/
  | setFlags (fd : Int) (flags : Nat)
  | setFailed (fd : Int) (flags : Nat)
  /-- in `croutine_accept`, before `error = current_errno()` -/
  | saveErrno (accepted : Int)
  | close (accepted : Int) (error : Errno)
  | returned (result : Int)
  deriving DecidableEq

structure IoCall where
  request : IoRequest
  point : IoPoint
  events : List IoEvent
  deriving DecidableEq

/-- Who makes a call: a task, or a thread outside the runtime. -/
inductive Caller where
  | task (t : TaskId)
  | external (e : Nat)
  deriving DecidableEq

/-- The runtime with the calls of `io.c` that are under way. -/
structure IoSys where
  sys : Sys
  errno : Thread → Errno
  calls : Caller → Option IoCall

namespace IoRequest

def fd : IoRequest → Int
  | .read fd _ _ | .write fd _ _ | .accept fd | .setNonblocking fd => fd

/-- Which wait the loop of a request uses. -/
def direction : IoRequest → Filter
  | .write _ _ _ => .write
  | .read _ _ _ | .accept _ | .setNonblocking _ => .read

/-- The system call that the loop of a request repeats. -/
def sysCall : IoRequest → Option SysCall
  | .read fd buffer count => some (.read fd buffer count)
  | .write fd buffer count => some (.write fd buffer count)
  | .accept fd => some (.accept fd)
  | .setNonblocking _ => none

def start : IoRequest → IoPoint
  | .setNonblocking fd => .getFlags fd
  | .read _ _ _ | .write _ _ _ | .accept _ => .attempt

end IoRequest

/-- The system call at a point of a call. -/
def IoPoint.sysCall (nonblock : Nat) (q : IoRequest) : IoPoint → Option SysCall
  | .attempt => q.sysCall
  | .getFlags fd => some (.getfl fd)
  | .setFlags fd flags => some (.setfl fd (flags ||| nonblock))
  | .close accepted _ => some (.close accepted)
  | _ => none

/-- The answers a system call can get.  A successful `F_SETFL` returns 0. -/
def SysCall.fits (mem : Memory) : SysCall → Answer → Bool
  | _, .failed _ => true
  | .read _ _ count, .moved data => data.length ≤ count
  | .write _ buffer count, .moved data =>
    data.length ≤ count && data = readBytes mem buffer data.length
  | .accept _, .accepted fd => isInt fd
  | .getfl _, .flags _ => true
  | .setfl _ _, .done | .close _, .done => true
  | _, _ => false

/-- Where a call goes when `croutine_fd_set_nonblocking(fd)` returns. -/
def afterNonblocking (q : IoRequest) (fd result : Int) : IoPoint :=
  match q with
  | .accept _ => if result = 0 then .returned fd else .saveErrno fd
  | _ => .returned result

/-- Where a call goes when its system call returns. -/
def afterAnswer (nonblock : Nat) (q : IoRequest) : IoPoint → Answer → IoPoint
  | .attempt, .moved data => .returned data.length
  | .attempt, .accepted fd => .getFlags fd
  | .attempt, _ => .failed
  | .getFlags fd, .flags flags =>
    if flags &&& nonblock ≠ 0 then afterNonblocking q fd 0 else .setFlags fd flags
  | .getFlags fd, _ => .getFailed fd
  | .setFlags fd _, .done => afterNonblocking q fd 0
  | .setFlags fd flags, _ => .setFailed fd flags
  -- the result of close is not looked at
  | .close _ error, _ => .setErrno error
  | point, _ => point

/-- A step of `io.c` itself on a thread with this `errno`, and the `errno` it leaves. -/
def afterErrno (q : IoRequest) (errno : Errno) : IoPoint → Option (IoPoint × Errno)
  | .failed =>
    some (if errno = .EINTR then .attempt
      else if errno ≠ .EAGAIN ∧ errno ≠ .EWOULDBLOCK then .returned (-1)
      else .wait, errno)
  | .getFailed fd =>
    some (if errno = .EINTR then .getFlags fd else afterNonblocking q fd (-1), errno)
  | .setFailed fd flags =>
    some (if errno = .EINTR then .setFlags fd flags else afterNonblocking q fd (-1), errno)
  | .saveErrno accepted => some (.close accepted errno, errno)
  | .setErrno error => some (.returned (-1), error)
  | _ => none

/-- The loops of `io.c` after a wait. -/
def afterWait (wait : IoWaitResult) : IoPoint :=
  if wait = .ready then .attempt else .setErrno (waitErrno wait)

/-- The system call of a call returned. -/
def IoCall.answered (nonblock : Nat) (call : IoCall) (sc : SysCall) (answer : Answer) : IoCall :=
  { call with
    point := afterAnswer nonblock call.request call.point answer
    events := call.events ++ [.called sc answer] }

/-- The wait of a call is over. -/
def IoCall.waited (call : IoCall) (wait : IoWaitResult) : IoCall :=
  { call with point := afterWait wait, events := call.events ++ [.waited wait] }

namespace IoSys

/-- Who runs user code on a thread. -/
def caller (s : IoSys) : Thread → Option Caller
  | .worker w =>
    match s.sys.wk.pc w with
    | .running t => some (.task t)
    | _ => none
  | .external e => some (.external e)
  | .runtime => none

/-- The call that a thread is inside. -/
def callAt (s : IoSys) (θ : Thread) : Option (Caller × IoCall) :=
  (s.caller θ).bind fun c => (s.calls c).map fun call => (c, call)

def inCall (s : IoSys) (θ : Thread) : Bool := (s.callAt θ).isSome

def setCall (s : IoSys) (c : Caller) (call : Option IoCall) : IoSys :=
  { s with calls := Function.update s.calls c call }

def setErrno (s : IoSys) (θ : Thread) (error : Errno) : IoSys :=
  { s with errno := Function.update s.errno θ error }

end IoSys

inductive IoAction where
  /-- a step of the runtime that belongs to no call of `io.c` -/
  | runtime (a : Action)
  /-- other code on a thread changes `errno` -/
  | clobber (θ : Thread) (error : Errno)
  | call (θ : Thread) (q : IoRequest)
  /-- a system call returns; one that succeeds may still change `errno` -/
  | kernel (θ : Thread) (answer : Answer) (error : Errno)
  | go (θ : Thread)
  /-- `croutine_io_wait_readable` or `_writable` up to its return or its switch -/
  | wait (θ : Thread) (o : Oracle) (error : Errno)
  /-- it returns after the switch -/
  | awake (θ : Thread)
  /-- the caller has the result and goes on -/
  | finish (θ : Thread)

/-- What a system call does to the memory of the program: `read` fills the buffer. -/
def SysCall.store (s : Sys) (θ : Thread) : SysCall → Answer → Res Sys
  | .read _ buffer _, .moved data => step s (.userWrite θ buffer data)
  | _, _ => .ok s

/-- The `errno` that a system call leaves. -/
def Answer.errno (answer : Answer) (error : Errno) : Errno :=
  match answer with
  | .failed e => e
  | _ => error

def ioStep (s : IoSys) : IoAction → Res IoSys
  | .runtime a => do
    Res.require (a.caller.all fun θ => !s.inCall θ)
    let sys ← step s.sys a
    return { s with sys := sys }
  | .clobber θ error => do
    Res.require (!s.inCall θ)
    return s.setErrno θ error
  | .call θ q => do
    Res.require (s.sys.canAct θ && !s.inCall θ && isInt q.fd)
    match s.caller θ with
    | some c => return s.setCall c (some ⟨q, q.start, []⟩)
    | none => .error .disabled
  | .kernel θ answer error =>
    match s.callAt θ with
    | some (c, call) =>
      let nonblock := oNonblock s.sys.poller.backend
      match call.point.sysCall nonblock call.request with
      | some sc => do
        Res.require (sc.fits s.sys.ch.mem answer)
        let sys ← sc.store s.sys θ answer
        return ({ s with sys := sys }.setErrno θ (answer.errno error)).setCall c
          (some (call.answered nonblock sc answer))
      | none => .error .disabled
    | none => .error .disabled
  | .go θ =>
    match s.callAt θ with
    | some (c, call) =>
      match afterErrno call.request (s.errno θ) call.point with
      | some (point, error) =>
        .ok ((s.setErrno θ error).setCall c (some { call with point := point }))
      | none => .error .disabled
    | none => .error .disabled
  | .wait θ o error =>
    match s.callAt θ with
    | some (c, call) => do
      Res.require (call.point = .wait)
      match θ with
      | .worker w =>
        let sys ← step s.sys (.waitIo w call.request.fd call.request.direction o)
        -- a task that runs on was refused
        return ({ s with sys := sys }.setErrno θ error).setCall c (some
          (if sys.wk.pc w = s.sys.wk.pc w then call.waited .failed
            else { call with point := .parked }))
      | .external _ | .runtime =>
        return (s.setErrno θ error).setCall c (some (call.waited .failed))
    | none => .error .disabled
  | .awake θ =>
    match θ, s.callAt θ with
    | .worker w, some (.task t, call) => do
      Res.require (call.point = .parked)
      let sys ← step s.sys (.callReturn w)
      return { s with sys := sys }.setCall (.task t) (some
        (call.waited (if (s.sys.tasks t).ioWakeSuccess then .ready else .closed)))
    | _, _ => .error .disabled
  | .finish θ =>
    match s.callAt θ with
    | some (c, call) =>
      match call.point with
      | .returned _ => .ok (s.setCall c none)
      | _ => .error .disabled
    | none => .error .disabled

/-- The runtime and the I/O calls on top of it, with any `errno` to begin with. -/
def ioRuntime (backend : Backend) : Machine IoSys IoAction where
  init s := (runtime backend).init s.sys ∧ s.calls = fun _ => none
  step := ioStep

end Croutine
