import Mathlib.Logic.Function.Basic
import Croutine.Lib.Machine

/-!
# Data of the runtime

Identifiers, tasks, channel waiters, channels and the history of channel effects.
The C objects become records indexed by natural numbers: a task pointer is a
`TaskId`, a channel pointer a `ChanId`, and a waiter on a task's stack (or in a
select's heap array) a `WaiterId`.

Every call of a channel operation takes the next `CallId` inside its critical
section.  A waiter is named by its call and its position among the call's
waiters, so the order of calls is the order of the critical sections in which
operations arrived, and hence the order in which waiters were parked.

`Event` is the history of channel effects.  It is written by the operations and
read by none of them; the properties of whole runs are stated over it.
-/

namespace Croutine

abbrev TaskId := Nat
abbrev ChanId := Nat
abbrev WorkerId := Nat
abbrev CallId := Nat
abbrev Addr := Nat
abbrev Bytes := List UInt8

/-- User memory, where the value slots of channel operations live. -/
abbrev Memory := Addr → UInt8

/-- The `n` bytes at address `a`. -/
def readBytes (m : Memory) (a : Addr) (n : Nat) : Bytes :=
  (List.range n).map fun i => m (a + i)

/-- Store bytes from address `a` upwards. -/
def writeBytes (m : Memory) (a : Addr) (bs : Bytes) : Memory :=
  fun x => if a ≤ x ∧ x < a + bs.length then bs.getD (x - a) 0 else m x

/-- A read of `n` bytes gives `n` bytes. -/
@[simp] theorem length_readBytes (m : Memory) (a : Addr) (n : Nat) :
    (readBytes m a n).length = n := by
  simp [readBytes]

/-- **What was stored is read back.** -/
theorem readBytes_writeBytes (m : Memory) (a : Addr) (bs : Bytes) :
    readBytes (writeBytes m a bs) a bs.length = bs := by
  refine List.ext_getElem (by simp) fun i hi hi' => ?_
  simp [readBytes, writeBytes, hi']

/-- **A store leaves the rest of memory alone.** -/
theorem writeBytes_outside (m : Memory) {a x : Addr} {bs : Bytes}
    (hx : x < a ∨ a + bs.length ≤ x) : writeBytes m a bs x = m x := by
  refine if_neg fun hin => ?_
  rcases hx with hlow | hhigh
  · exact Nat.not_le_of_lt hlow hin.1
  · exact Nat.not_lt_of_le hhigh hin.2

/-- `enum TaskState`. -/
inductive TaskState where
  | runnable
  | waitingIo
  | waitingChannel
  | finished
  deriving DecidableEq

/-- The two states in which a task switches back with the scheduler lock held. -/
def TaskState.waiting : TaskState → Bool
  | .waitingIo | .waitingChannel => true
  | .runnable | .finished => false

/-- A set of `CROUTINE_IO_EVENT_*` bits. -/
structure IoEvents where
  read : Bool
  write : Bool
  deriving DecidableEq

namespace IoEvents

def none : IoEvents := ⟨false, false⟩

def all : IoEvents := ⟨true, true⟩

def union (a b : IoEvents) : IoEvents :=
  ⟨a.read || b.read, a.write || b.write⟩

end IoEvents

/-- The two wait queues of a channel, `send_waiters` and `recv_waiters`. -/
inductive Direction where
  | send
  | recv
  deriving DecidableEq

/-- `croutine_select_op`.  The field is a number, and `other` is any that names neither
operation: such a case is never tried and waits among the receivers. -/
inductive SelectOp where
  | send
  | recv
  | other
  deriving DecidableEq

/-- `op == CROUTINE_SELECT_OP_SEND ? send_waiters : recv_waiters`. -/
def SelectOp.direction : SelectOp → Direction
  | .send => .send
  | .recv | .other => .recv

def Direction.op : Direction → SelectOp
  | .send => .send
  | .recv => .recv

instance : Coe Direction SelectOp := ⟨Direction.op⟩

/-- The operation of a direction goes in that direction. -/
@[simp] theorem Direction.direction_op (d : Direction) : d.op.direction = d := by
  cases d <;> rfl

/-- A direction is a send or a receive. -/
@[simp] theorem Direction.op_ne_other (d : Direction) : d.op ≠ .other := by
  cases d <;> simp [op]

/-- `croutine_select_status`. -/
inductive SelectStatus where
  | value
  | closed
  | sent
  deriving DecidableEq

/-- Results of `try_send_locked`; `wouldBlock` is `TRY_SEND_WOULD_BLOCK`. -/
inductive SendResult where
  | ok
  | closed
  | wouldBlock
  deriving DecidableEq

/-- `croutine_channel_recv_result`. -/
inductive RecvResult where
  | value
  | empty
  | closed
  deriving DecidableEq

/-- The inputs of a `croutine_select_case`; its `status` is an output and is
recorded by the event of the select's return. -/
structure SelectCase where
  channel : Option ChanId
  op : SelectOp
  value : Addr
  deriving DecidableEq

/-- A waiter: the call that owns it and its index among that call's waiters. -/
structure WaiterId where
  call : CallId
  idx : Nat
  deriving DecidableEq

/-- `enum ChannelWaiterKind`. -/
inductive WaiterKind where
  | regular
  | select
  deriving DecidableEq

/-- `struct ChannelWaiter`.  `state` is the select evaluation whose shared state
the waiter points to, and `channel` is the queue it is linked in. -/
structure Waiter where
  kind : WaiterKind := .regular
  op : SelectOp := .send
  channel : Option ChanId := none
  task : TaskId := 0
  valueSlot : Addr := 0
  state : Option CallId := none
  caseIndex : Nat := 0
  deriving DecidableEq

/-- `struct CroutineSelectState`. -/
structure SelectState where
  done : Bool := false
  chosenIndex : Int := -1
  chosenStatus : SelectStatus := .value
  deriving DecidableEq

/-- `struct croutine_channel`.  `buffer` is the ring's contents, oldest value
first, so its length is the field `len`. -/
structure Channel where
  elemSize : Nat := 0
  capacity : Nat := 0
  closed : Bool := false
  buffer : List Bytes := []
  sendWaiters : List WaiterId := []
  recvWaiters : List WaiterId := []
  deriving DecidableEq

namespace Channel

/-- The wait queue for operations of the given direction. -/
def queue (ch : Channel) : Direction → List WaiterId
  | .send => ch.sendWaiters
  | .recv => ch.recvWaiters

def setQueue (ch : Channel) : Direction → List WaiterId → Channel
  | .send, q => { ch with sendWaiters := q }
  | .recv, q => { ch with recvWaiters := q }

variable (ch : Channel) (op op' : Direction) (q : List WaiterId)

/-- Setting one queue of a channel leaves the other alone. -/
@[simp] theorem queue_setQueue :
    (ch.setQueue op q).queue op' = if op' = op then q else ch.queue op' := by
  cases op <;> cases op' <;> simp [queue, setQueue]

@[simp] theorem setQueue_buffer : (ch.setQueue op q).buffer = ch.buffer := by
  cases op <;> rfl

@[simp] theorem setQueue_closed : (ch.setQueue op q).closed = ch.closed := by
  cases op <;> rfl

@[simp] theorem setQueue_capacity : (ch.setQueue op q).capacity = ch.capacity := by
  cases op <;> rfl

@[simp] theorem setQueue_elemSize : (ch.setQueue op q).elemSize = ch.elemSize := by
  cases op <;> rfl

end Channel

/-- The history of channel effects.  An offer is a waiter, or the waiter the call
would have parked had it not completed at once. -/
inductive Event where
  /-- A value went from `sender` straight into the slot of `receiver`. -/
  | handoff (c : ChanId) (sender receiver : WaiterId) (slot : Addr) (v : Bytes)
  /-- The value of `sender` entered the ring buffer. -/
  | buffered (c : ChanId) (sender : WaiterId) (v : Bytes)
  /-- The oldest buffered value went into the slot of `receiver`. -/
  | taken (c : ChanId) (receiver : WaiterId) (slot : Addr) (v : Bytes)
  /-- The offer completed as closed; `flag` is the channel's `closed` field then. -/
  | closed (c : ChanId) (offer : WaiterId) (flag : Bool)
  /-- A task parked by `call` was made runnable. -/
  | woken (t : TaskId) (call : CallId) (success : Bool)
  | sendReturned (call : CallId) (c : ChanId) (r : SendResult)
  | recvReturned (call : CallId) (c : ChanId) (r : RecvResult)
  | selectReturned (call : CallId) (cases : List SelectCase) (index : Int)
      (status : Option SelectStatus)
  deriving DecidableEq

/-- What a task's stack holds: user code, or the blocking call it is inside of.
`parked` tells a call that switched away from one whose park was refused. -/
inductive Frame where
  | user
  | single (op : Direction) (call : CallId) (c : ChanId) (parked : Bool)
  | select (call : CallId) (cases : List SelectCase) (parked : Bool)
  | ioWait
  deriving DecidableEq

/-- The channel call a task is inside of. -/
def Frame.call : Frame → Option CallId
  | .single _ call _ _ => some call
  | .select call _ _ => some call
  | .user | .ioWait => none

/-- `struct Task` with its scheduler, I/O wait and channel wait states.
`contextSaved` says that the task's registers are in `context`, `frame` is what
its stack holds, and `ioPeriod` the registration period of the descriptor it last
parked on. -/
structure Task where
  state : TaskState := .runnable
  queued : Bool := false
  isMain : Bool := false
  hasStack : Bool := false
  ownsArg : Bool := false
  ioFd : Int := -1
  ioEvents : IoEvents := .none
  ioWakeSuccess : Bool := false
  channelWakeSuccess : Bool := false
  contextSaved : Bool := false
  frame : Frame := .user
  ioPeriod : Nat := 0
  deriving DecidableEq

/-- How often the memory of one task was allocated and released. -/
structure Ledger where
  structAllocs : Nat := 0
  structFrees : Nat := 0
  stackAllocs : Nat := 0
  stackFrees : Nat := 0
  argAllocs : Nat := 0
  argFrees : Nat := 0
  published : Bool := false
  deriving DecidableEq

/-- A released task, and whether a channel queue or the I/O wait table still
referred to it at that moment. -/
structure FreeRecord where
  task : TaskId
  referenced : Bool
  deriving DecidableEq

end Croutine
