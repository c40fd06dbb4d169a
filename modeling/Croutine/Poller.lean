import Mathlib.Algebra.Order.Ring.Nat
import Croutine.Basic

/-!
# The readiness pollers

`poller_epoll.c` and `poller_kqueue.c` over the kernel state they drive.  The
kernel's interest list (epoll) and its registered filters (kqueue) change only
through the functions below.  Every outcome the kernel or the allocator may
choose is a field of `PollerOracle`.

An epoll registration carries the token the runtime stored with it.  `period` numbers
the registrations in the order in which the kernel took them: it names the registration
period.  Nothing reads it, nor `bumps`, the changes of a descriptor's generation counted
without wrapping, nor `began`, their number when a period began.
-/

namespace Croutine

def sizeMax : Nat := 2 ^ 64 - 1

/-- The epoll bits the runtime requests or understands. -/
structure EpollMask where
  input : Bool
  pri : Bool
  rdhup : Bool
  output : Bool
  err : Bool
  hup : Bool
  deriving DecidableEq

namespace EpollMask

def empty : EpollMask := ⟨false, false, false, false, false, false⟩

def inter (a b : EpollMask) : EpollMask :=
  ⟨a.input && b.input, a.pri && b.pri, a.rdhup && b.rdhup,
    a.output && b.output, a.err && b.err, a.hup && b.hup⟩

/-- The kernel reports errors and hang-ups whether or not they were requested. -/
def withErrors (a : EpollMask) : EpollMask := { a with err := true, hup := true }

end EpollMask

def toEpollEvents (events : IoEvents) : EpollMask :=
  ⟨events.read, events.read, events.read, events.write, false, false⟩

def fromEpollEvents (mask : EpollMask) : IoEvents :=
  ⟨mask.input || mask.pri || mask.rdhup || (mask.err || mask.hup),
    mask.output || (mask.err || mask.hup)⟩

inductive Backend where
  | epoll
  | kqueue
  deriving DecidableEq

/-- `EVFILT_READ` and `EVFILT_WRITE`. -/
inductive Filter where
  | read
  | write
  deriving DecidableEq

/-- The direction bit that a filter stands for. -/
def IoEvents.has (events : IoEvents) : Filter → Bool
  | .read => events.read
  | .write => events.write

def IoEvents.put (events : IoEvents) : Filter → Bool → IoEvents
  | .read, b => { events with read := b }
  | .write, b => { events with write := b }

structure Registration where
  mask : EpollMask
  token : Nat
  period : Nat
  deriving DecidableEq

/-- A raw kernel event: an `epoll_event` with its token, or a `kevent`. -/
inductive RawEvent where
  | epoll (token : Nat) (mask : EpollMask) (period : Nat)
  | kevent (ident : Int) (filter : Filter) (eof error : Bool)
  deriving DecidableEq

/-- `struct CroutinePollEvent`, with the registration period of its raw event. -/
structure PollEvent where
  fd : Int
  events : IoEvents
  period : Nat
  deriving DecidableEq

/-- The state of a poller and of the kernel object behind it. -/
structure Poller where
  backend : Backend
  interest : Int → Option Registration
  filters : Int → IoEvents
  ready : Int → EpollMask
  wakeReadFd : Int
  fdGenerations : Nat → Nat
  fdRegistered : Nat → Bool
  fdTableCapacity : Nat
  bumps : Nat → Nat
  periods : Nat
  began : Nat → Nat

/-- Outcomes of `epoll_ctl`, of a kevent change and of growing the fd table.  To delete
what is not there (`ENOENT`) counts as a success, as it does for the callers. -/
structure PollerOracle where
  ctlOk : Int → IoEvents → IoEvents → Bool
  filterOk : Int → Filter → Bool → Bool
  tableOk : Bool

def wakeToken : Nat := 2 ^ 64 - 1

/-- `(generation << 32) | (uint32_t)fd`. -/
def fdToken (generation : Nat) (fd : Int) : Nat :=
  generation * 2 ^ 32 + fd.toNat % 2 ^ 32

namespace Poller

/-- `(size_t)fd < fd_table_capacity`: a negative descriptor is out of range. -/
def inTable (p : Poller) (fd : Int) : Bool :=
  0 ≤ fd && fd.toNat < p.fdTableCapacity

/-- `fd_generations[fd]++` on 32-bit counters. -/
def bump (p : Poller) (fd : Int) : Poller :=
  { p with
    fdGenerations := Function.update p.fdGenerations fd.toNat
      ((p.fdGenerations fd.toNat + 1) % 2 ^ 32)
    bumps := Function.update p.bumps fd.toNat (p.bumps fd.toNat + 1) }

def setRegistered (p : Poller) (fd : Int) (b : Bool) : Poller :=
  { p with fdRegistered := Function.update p.fdRegistered fd.toNat b }

def setInterest (p : Poller) (fd : Int) (r : Option Registration) : Poller :=
  { p with interest := Function.update p.interest fd r }

/-- A registration begins a new period. -/
def register (p : Poller) (fd : Int) (mask : EpollMask) (token : Nat) : Poller :=
  { p.setInterest fd (some ⟨mask, token, p.periods + 1⟩) with
    periods := p.periods + 1
    began := Function.update p.began (p.periods + 1) (p.bumps fd.toNat) }

/-- `EPOLL_CTL_ADD`; a descriptor already registered is refused with `EEXIST`. -/
def ctlAdd (p : Poller) (ok : Bool) (fd : Int) (mask : EpollMask) (token : Nat) :
    Option Poller :=
  match p.interest fd with
  | some _ => none
  | none =>
    if ok then some (p.register fd mask token) else none

/-- `EPOLL_CTL_MOD`; an unregistered descriptor is refused with `ENOENT`. -/
def ctlMod (p : Poller) (ok : Bool) (fd : Int) (mask : EpollMask) (token : Nat) :
    Option Poller :=
  match p.interest fd with
  | none => none
  | some r =>
    if ok then some (p.setInterest fd (some { r with mask := mask, token := token })) else none

/-- `EPOLL_CTL_DEL`; the answer may be a refusal whether or not the descriptor is
registered (`EBADF`). -/
def ctlDel (p : Poller) (ok : Bool) (fd : Int) : Option Poller :=
  if ok then some (p.setInterest fd none) else none

end Poller

/-- The doubling loop of `ensure_fd_capacity`, which leaves `size_t` within 64
rounds. -/
def fdCapacityFor (needed : Nat) : Nat → Nat → Option Nat
  | 0, _ => none
  | rounds + 1, capacity =>
    if capacity < needed then
      if capacity > sizeMax / 2 then none
      else fdCapacityFor needed rounds (capacity * 2)
    else some capacity

def ensureFdCapacity (o : PollerOracle) (p : Poller) (fd : Int) : Option Poller :=
  if fd < 0 then none
  else if fd.toNat + 1 ≤ p.fdTableCapacity then some p
  else
    let start := if p.fdTableCapacity = 0 then 64 else p.fdTableCapacity
    match fdCapacityFor (fd.toNat + 1) 64 start with
    | none => none
    | some capacity =>
      if o.tableOk then
        some { p with
          fdGenerations := fun i => if i < p.fdTableCapacity then p.fdGenerations i else 0
          fdRegistered := fun i => i < p.fdTableCapacity && p.fdRegistered i
          fdTableCapacity := capacity }
      else none

def pollerSetLocked (o : PollerOracle) (p : Poller) (fd : Int)
    (oldEvents newEvents : IoEvents) : Poller × Bool :=
  if oldEvents = newEvents then (p, true)
  else if newEvents = .none then
    match p.ctlDel (o.ctlOk fd oldEvents newEvents) fd with
    | some q => (if q.inTable fd then (q.setRegistered fd false).bump fd else q, true)
    | none => (p, false)
  else if oldEvents = .none then
    match ensureFdCapacity o p fd with
    | none => (p, false)
    | some q =>
      let q := q.bump fd
      match q.ctlAdd (o.ctlOk fd oldEvents newEvents) fd (toEpollEvents newEvents)
          (fdToken (q.fdGenerations fd.toNat) fd) with
      | some r => (r.setRegistered fd true, true)
      | none => (q, false)
  else if !p.inTable fd || !p.fdRegistered fd.toNat then (p, false)
  else
    match p.ctlMod (o.ctlOk fd oldEvents newEvents) fd (toEpollEvents newEvents)
        (fdToken (p.fdGenerations fd.toNat) fd) with
    | some q => (q, true)
    | none => (p, false)

def applyFilterChange (o : PollerOracle) (p : Poller) (fd : Int) (filter : Filter)
    (enable : Bool) : Poller × Bool :=
  if o.filterOk fd filter enable then
    ({ p with filters := Function.update p.filters fd ((p.filters fd).put filter enable) }, true)
  else (p, false)

def syncFilter (o : PollerOracle) (p : Poller) (fd : Int)
    (oldEvents newEvents : IoEvents) (filter : Filter) : Poller × Bool :=
  if oldEvents.has filter = newEvents.has filter then (p, true)
  else applyFilterChange o p fd filter (newEvents.has filter)

def reverseFilter (o : PollerOracle) (p : Poller) (fd : Int)
    (oldEvents newEvents : IoEvents) (filter : Filter) : Poller × Bool :=
  if oldEvents.has filter = newEvents.has filter then (p, true)
  else applyFilterChange o p fd filter (oldEvents.has filter)

/-- `croutine_poller_set` of `poller_kqueue.c`. -/
def kqueuePollerSet (o : PollerOracle) (p : Poller) (fd : Int)
    (oldEvents newEvents : IoEvents) : Poller × Bool :=
  if oldEvents = newEvents then (p, true)
  else
    match syncFilter o p fd oldEvents newEvents .read with
    | (p, false) => (p, false)
    | (p, true) =>
      match syncFilter o p fd oldEvents newEvents .write with
      | (p, true) => (p, true)
      | (p, false) => ((reverseFilter o p fd oldEvents newEvents .read).1, false)

def croutinePollerSet (o : PollerOracle) (p : Poller) (fd : Int)
    (oldEvents newEvents : IoEvents) : Poller × Bool :=
  match p.backend with
  | .epoll => pollerSetLocked o p fd oldEvents newEvents
  | .kqueue => kqueuePollerSet o p fd oldEvents newEvents

/-! ## What the kernel reports and how a batch is translated -/

/-- One item the kernel chooses to report from a wait. -/
inductive Reported where
  | wake
  | epoll (fd : Int) (mask : EpollMask)
  | kevent (fd : Int) (filter : Filter) (eof error : Bool)
  deriving DecidableEq

namespace Poller

/-- The bits of descriptor `fd` that the kernel may report now. -/
def reportable (p : Poller) (fd : Int) : EpollMask :=
  match p.backend with
  | .epoll =>
    match p.interest fd with
    | some r => (p.ready fd).inter r.mask.withErrors
    | none => .empty
  | .kqueue => if p.filters fd = .none then .empty else p.ready fd

/-- The raw event of a report, when the kernel may make it. -/
def report (p : Poller) (wakePending : Bool) : Reported → Option RawEvent
  | .wake =>
    if wakePending then
      match p.backend with
      | .epoll => some (.epoll wakeToken { EpollMask.empty with input := true } 0)
      | .kqueue => some (.kevent p.wakeReadFd .read false false)
    else none
  | .epoll fd mask =>
    match p.backend, p.interest fd with
    | .epoll, some r =>
      if mask ≠ .empty ∧ mask.inter (p.reportable fd) = mask then
        some (.epoll r.token mask r.period)
      else none
    | _, _ => none
  | .kevent fd filter eof error =>
    if p.backend = .kqueue ∧ (p.filters fd).has filter ∧ p.ready fd ≠ .empty ∧
        ¬(fd = p.wakeReadFd ∧ filter = .read) then
      some (.kevent fd filter eof error)
    else none

/-- Events that tell the poller to drain its wake descriptor. -/
def isWake (p : Poller) : RawEvent → Bool
  | .epoll token _ _ => token = wakeToken
  | .kevent ident filter _ _ => ident = p.wakeReadFd ∧ filter = .read

end Poller

/-- `(int)(uint32_t)token`. -/
def tokenFd (token : Nat) : Int := Int.bmod (token % 2 ^ 32 : Nat) (2 ^ 32)

/-- The body of the filter loop of epoll's `croutine_poller_wait` for an event
that is not the wake event. -/
def epollTranslate (p : Poller) (token : Nat) (mask : EpollMask) (period : Nat) :
    Option PollEvent :=
  let fd := tokenFd token
  let generation := token / 2 ^ 32 % 2 ^ 32
  if !p.inTable fd || !p.fdRegistered fd.toNat || p.fdGenerations fd.toNat ≠ generation then
    none
  else
    let translated := fromEpollEvents mask
    if translated = .none then none else some ⟨fd, translated, period⟩

def translateReadyEvent (filter : Filter) (eof error : Bool) : IoEvents :=
  let ready := IoEvents.none.put filter true
  if eof || error then .all else ready

/-- `merge_ready_event`: join the bits of a descriptor already in the output. -/
def mergeReadyEvent : List PollEvent → Int → IoEvents → List PollEvent
  | [], fd, ready => [⟨fd, ready, 0⟩]
  | e :: rest, fd, ready =>
    if e.fd = fd then { e with events := e.events.union ready } :: rest
    else e :: mergeReadyEvent rest fd ready

/-- The loop of `croutine_poller_wait` over the raw events, on either back end. -/
def pollerTranslate (p : Poller) : List PollEvent → List RawEvent → List PollEvent
  | out, [] => out
  | out, raw :: rest =>
    if p.isWake raw then pollerTranslate p out rest
    else
      match raw with
      | .epoll token mask period =>
        pollerTranslate p (out ++ (epollTranslate p token mask period).toList) rest
      | .kevent ident filter eof error =>
        pollerTranslate p
          (mergeReadyEvent out ident (translateReadyEvent filter eof error)) rest

end Croutine
