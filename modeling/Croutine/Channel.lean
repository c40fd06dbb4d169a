import Croutine.Scheduler

/-!
# Channel operations

The wait queues, the buffer, the wake helpers and the two non-blocking attempts
of `channel.c`, and the blocking calls, close, create and destroy on top of them.
A queue is the list of its waiters from `head` to `tail`.

The functions that complete an operation take the offer they complete: the
waiter that the caller parks, or would park.
-/

namespace Croutine

namespace Chans

def waitQueuePushTail (κ : Chans) (c : ChanId) (op : Direction) (w : WaiterId) : Chans :=
  (κ.setLink w (some c)).setQueue c op (κ.queue c op ++ [w])

/-- Remove the head `w` of a queue whose remaining waiters are `rest`. -/
def dropHead (κ : Chans) (c : ChanId) (op : Direction) (w : WaiterId)
    (rest : List WaiterId) : Chans :=
  (κ.setQueue c op rest).setLink w none

def waitQueueUnlink (κ : Chans) (c : ChanId) (op : Direction) (w : WaiterId) : Chans :=
  (κ.setQueue c op ((κ.queue c op).erase w)).setLink w none

/-- The loop of `pop_live_waiter_locked` over the waiters from the head. -/
def popLive (c : ChanId) (op : Direction) : List WaiterId → Chans → Chans × Option WaiterId
  | [], κ => (κ, none)
  | w :: rest, κ =>
    let κ := κ.dropHead c op w rest
    if κ.live w then (κ, some w) else popLive c op rest κ

def popLiveWaiterLocked (κ : Chans) (c : ChanId) (op : Direction) : Chans × Option WaiterId :=
  popLive c op (κ.queue c op) κ

/-- The value at `src`, of the channel's element size. -/
def valueAt (κ : Chans) (c : ChanId) (src : Addr) : Bytes :=
  readBytes κ.mem src (κ.chan c).elemSize

def bufferPush (κ : Chans) (c : ChanId) (v : Bytes) : Chans :=
  κ.setChan c { κ.chan c with buffer := (κ.chan c).buffer ++ [v] }

/-- Remove the oldest value `v` of a buffer whose remaining values are `rest`
and store it at `out`. -/
def bufferPop (κ : Chans) (c : ChanId) (v : Bytes) (rest : List Bytes) (out : Addr) : Chans :=
  (κ.setChan c { κ.chan c with buffer := rest }).copyValue out v

end Chans

/-- `(int32_t)` of a 32-bit value. -/
def toInt32 (n : Nat) : Int := Int.bmod (n : Int) (2 ^ 32)

/-- The select part of `complete_waiter_locked`. -/
def Chans.markDone (κ : Chans) (w : WaiterId) (status : SelectStatus) : Chans :=
  match (κ.waiter w).kind, (κ.waiter w).state with
  | .select, some k => κ.setSelect k ⟨true, toInt32 (κ.waiter w).caseIndex, status⟩
  | _, _ => κ

/-- Wake the task of a waiter, or stop with `message`. -/
def wakeWaiter (o : Oracle) (s : Sys) (w : WaiterId) (success : Bool) (message : String) :
    Res Sys :=
  match workerWakeTaskLocked o s (s.ch.waiter w).task success with
  | some s => .ok (s.mapCh (·.record (.woken (s.ch.waiter w).task w.call success)))
  | none => .error (.abort message)

def completeWaiterLocked (o : Oracle) (s : Sys) (w : WaiterId) (status : SelectStatus) :
    Res Sys :=
  wakeWaiter o (s.mapCh (·.markDone w status)) w true
    "channel: could not schedule a woken task"

def wakeWaitingReceiverLocked (o : Oracle) (s : Sys) (c : ChanId) (offer : WaiterId)
    (value : Addr) : Res (Sys × Bool) :=
  match s.ch.popLiveWaiterLocked c .recv with
  | (κ, none) => .ok ({ s with ch := κ }, false)
  | (κ, some receiver) => do
    let v := κ.valueAt c value
    let slot := (κ.waiter receiver).valueSlot
    let κ := (κ.copyValue slot v).record (.handoff c offer receiver slot v)
    let s ← completeWaiterLocked o { s with ch := κ } receiver .value
    return (s, true)

def wakeWaitingSenderDirectLocked (o : Oracle) (s : Sys) (c : ChanId) (offer : WaiterId)
    (out : Addr) : Res (Sys × Bool) :=
  match s.ch.popLiveWaiterLocked c .send with
  | (κ, none) => .ok ({ s with ch := κ }, false)
  | (κ, some sender) => do
    let v := κ.valueAt c (κ.waiter sender).valueSlot
    let κ := (κ.copyValue out v).record (.handoff c sender offer out v)
    let s ← completeWaiterLocked o { s with ch := κ } sender .sent
    return (s, true)

def bufferOneWaitingSenderLocked (o : Oracle) (s : Sys) (c : ChanId) : Res Sys :=
  if (s.ch.chan c).capacity = 0 ∨ (s.ch.chan c).buffer.length ≥ (s.ch.chan c).capacity then
    .ok s
  else
    match s.ch.popLiveWaiterLocked c .send with
    | (κ, none) => .ok { s with ch := κ }
    | (κ, some sender) =>
      let v := κ.valueAt c (κ.waiter sender).valueSlot
      let κ := (κ.bufferPush c v).record (.buffered c sender v)
      completeWaiterLocked o { s with ch := κ } sender .sent

/-- The loop of `wake_all_as_closed_locked` over the waiters from the head. -/
def wakeAllAsClosed (o : Oracle) (c : ChanId) (op : Direction) : List WaiterId → Sys → Res Sys
  | [], s => .ok s
  | w :: rest, s => do
    let s := s.mapCh (·.dropHead c op w rest)
    let closed := s.mapCh (·.record (.closed c w (s.ch.chan c).closed))
    let s ← match (s.ch.waiter w).kind, (s.ch.waiter w).state with
      | .select, some k =>
        if (s.ch.select k).done then .ok s else completeWaiterLocked o closed w .closed
      | .select, none => .ok s
      | .regular, _ =>
        wakeWaiter o closed w false "channel: could not schedule a task woken by close"
    wakeAllAsClosed o c op rest s

def wakeAllAsClosedLocked (o : Oracle) (s : Sys) (c : ChanId) (op : Direction) : Res Sys :=
  wakeAllAsClosed o c op (s.ch.queue c op) s

def trySendLocked (o : Oracle) (s : Sys) (c : ChanId) (offer : WaiterId) (value : Addr) :
    Res (Sys × SendResult) := do
  if (s.ch.chan c).closed || s.shutdownRequested then
    return (s.mapCh (·.record (.closed c offer (s.ch.chan c).closed)), .closed)
  let (s, woke) ← wakeWaitingReceiverLocked o s c offer value
  if woke then
    return (s, .ok)
  else if (s.ch.chan c).capacity > 0 ∧
      (s.ch.chan c).buffer.length < (s.ch.chan c).capacity then
    let v := s.ch.valueAt c value
    return (s.mapCh fun κ => (κ.bufferPush c v).record (.buffered c offer v), .ok)
  else
    return (s, .wouldBlock)

def tryRecvLocked (o : Oracle) (s : Sys) (c : ChanId) (offer : WaiterId) (out : Addr) :
    Res (Sys × RecvResult) :=
  match (s.ch.chan c).buffer with
  | v :: rest => do
    let s := s.mapCh fun κ => (κ.bufferPop c v rest out).record (.taken c offer out v)
    let s ← if (s.ch.chan c).closed then .ok s else bufferOneWaitingSenderLocked o s c
    return (s, .value)
  | [] => do
    let (s, woke) ← wakeWaitingSenderDirectLocked o s c offer out
    if woke then
      return (s, .value)
    else if (s.ch.chan c).closed || s.shutdownRequested then
      return (s.mapCh (·.record (.closed c offer (s.ch.chan c).closed)), .closed)
    else
      return (s, .empty)

/-! ## Creation and destruction -/

/-- `croutine_channel_create`; `allocOk` is the outcome of its allocations.  The
registry is the linked list from `channel_registry`, newest channel first. -/
def croutineChannelCreate (κ : Chans) (elemSize capacity : Nat) (allocOk : Bool) : Chans :=
  if (capacity ≠ 0 ∧ elemSize > sizeMax / capacity) ∨ !allocOk then κ
  else
    { κ.setChan κ.nextChan { elemSize := elemSize, capacity := capacity } with
      registry := κ.nextChan :: κ.registry
      nextChan := κ.nextChan + 1 }

/-- `croutine_channel_destroy`, which refuses an open channel and one with
waiters. -/
def croutineChannelDestroy (κ : Chans) (c : ChanId) : Chans :=
  if (κ.chan c).closed && (κ.queue c .send).isEmpty && (κ.queue c .recv).isEmpty then
    { κ with registry := κ.registry.erase c }
  else κ

/-! ## Close -/

def channelCloseLocked (o : Oracle) (s : Sys) (c : ChanId) : Res Sys :=
  if (s.ch.chan c).closed then .ok s
  else do
    let s := s.mapCh fun κ => κ.setChan c { κ.chan c with closed := true }
    let s ← wakeAllAsClosedLocked o s c .send
    wakeAllAsClosedLocked o s c .recv

def croutineChannelShutdownAllLocked (o : Oracle) (s : Sys) : Res Sys :=
  s.ch.registry.foldlM (channelCloseLocked o) s

/-! ## Blocking and non-blocking calls -/

namespace Chans

/-- The call number of the running critical section, and the state that hands out
the next one. -/
def tick (κ : Chans) : Chans := { κ with clock := κ.clock + 1 }

/-- A waiter is laid out and linked. -/
def park (κ : Chans) (c : ChanId) (w : WaiterId) (waiter : Waiter) : Chans :=
  { κ with waiter := Function.update κ.waiter w waiter }.waitQueuePushTail c waiter.op.direction w

end Chans

/-- Park the calling task on one channel (`croutine_channel_send` and
`croutine_channel_recv`). -/
def parkOnChannel (s : Sys) (w : WorkerId) (t : TaskId) (op : Direction) (call : CallId)
    (c : ChanId) (slot : Addr) : Sys :=
  let s := s.mapCh fun κ => κ.park c ⟨call, 0⟩
    { kind := .regular, op := op, task := t, valueSlot := slot }
  workerParkCurrentOnChannelLocked s w t (.single op call c)

def croutineChannelSend (o : Oracle) (s : Sys) (θ : Thread) (c : ChanId) (value : Addr) :
    Res Sys := do
  let call := s.ch.clock
  let (s, r) ← trySendLocked o (s.mapCh Chans.tick) c ⟨call, 0⟩ value
  match r, θ, s.currentTask θ with
  | .wouldBlock, .worker w, some t => return parkOnChannel s w t .send call c value
  | .ok, _, _ => return s.mapCh (·.record (.sendReturned call c .ok))
  | _, _, _ => return s.mapCh (·.record (.sendReturned call c .closed))

def croutineChannelTrySend (o : Oracle) (s : Sys) (c : ChanId) (value : Addr) : Res Sys := do
  let (s, _) ← trySendLocked o (s.mapCh Chans.tick) c ⟨s.ch.clock, 0⟩ value
  return s

def croutineChannelRecv (o : Oracle) (s : Sys) (θ : Thread) (c : ChanId) (out : Addr) :
    Res Sys := do
  let call := s.ch.clock
  let (s, r) ← tryRecvLocked o (s.mapCh Chans.tick) c ⟨call, 0⟩ out
  match r, θ, s.currentTask θ with
  | .empty, .worker w, some t => return parkOnChannel s w t .recv call c out
  | r, _, _ => return s.mapCh (·.record (.recvReturned call c r))

def croutineChannelTryRecv (o : Oracle) (s : Sys) (c : ChanId) (out : Addr) : Res Sys := do
  let (s, _) ← tryRecvLocked o (s.mapCh Chans.tick) c ⟨s.ch.clock, 0⟩ out
  return s

/-- What `croutine_channel_send` and `croutine_channel_recv` do after the park
returned `success`: a waiter still linked is removed, and the result is reported. -/
def returnFromSingle (κ : Chans) (op : Direction) (call : CallId) (c : ChanId)
    (success : Bool) : Chans :=
  let κ := if !success && (κ.waiter ⟨call, 0⟩).channel.isSome then
      κ.waitQueueUnlink c op ⟨call, 0⟩ else κ
  match op with
  | .send => κ.record (.sendReturned call c (if success then .ok else .closed))
  | .recv => κ.record (.recvReturned call c (if success then .value else .closed))

end Croutine
