import Croutine.PollerRuns
import Croutine.Lib.Cells

/-!
# The epoll poller in machine words

`poller_epoll.c` as it computes.  Sets of events are 32-bit words, a token is a 64-bit word
made of the generation and the descriptor, the generations and the flags of the descriptors
are two arrays that are allocated, copied and indexed by an `int`, and every access of an
array is checked.  The kernel keeps the words it was given.

The runtime's model has the same poller with sets of events as records, tokens as numbers and
the two arrays as functions.  `Represents` relates the two.  Whatever the callers ask for and
whatever the kernel answers or reports, no access leaves its array, and the two pollers give
the same answers.
-/

namespace Croutine

namespace Word

/-! ## The code -/

def CROUTINE_IO_EVENT_NONE : BitVec 32 := 0
def CROUTINE_IO_EVENT_READ : BitVec 32 := 1
def CROUTINE_IO_EVENT_WRITE : BitVec 32 := 2

def EPOLLIN : BitVec 32 := 0x001
def EPOLLPRI : BitVec 32 := 0x002
def EPOLLOUT : BitVec 32 := 0x004
def EPOLLERR : BitVec 32 := 0x008
def EPOLLHUP : BitVec 32 := 0x010
def EPOLLRDHUP : BitVec 32 := 0x2000

/-- `UINT64_MAX`. -/
def WAKE_TOKEN : BitVec 64 := BitVec.allOnes 64

def toEpollEvents (events : BitVec 32) : BitVec 32 :=
  let epollEvents := 0
  let epollEvents :=
    if events &&& CROUTINE_IO_EVENT_READ ≠ 0 then
      epollEvents ||| (EPOLLIN ||| EPOLLRDHUP ||| EPOLLPRI)
    else epollEvents
  if events &&& CROUTINE_IO_EVENT_WRITE ≠ 0 then epollEvents ||| EPOLLOUT else epollEvents

def fromEpollEvents (epollEvents : BitVec 32) : BitVec 32 :=
  let events := CROUTINE_IO_EVENT_NONE
  let events :=
    if epollEvents &&& (EPOLLIN ||| EPOLLPRI ||| EPOLLRDHUP) ≠ 0 then
      events ||| CROUTINE_IO_EVENT_READ
    else events
  let events :=
    if epollEvents &&& EPOLLOUT ≠ 0 then events ||| CROUTINE_IO_EVENT_WRITE else events
  if epollEvents &&& (EPOLLERR ||| EPOLLHUP) ≠ 0 then
    events ||| (CROUTINE_IO_EVENT_READ ||| CROUTINE_IO_EVENT_WRITE)
  else events

/-- `struct epoll_event`. -/
structure EpollEvent where
  events : BitVec 32
  data : BitVec 64
  deriving DecidableEq

/-- `struct CroutinePollEvent`. -/
structure PollEvent where
  fd : Int
  events : BitVec 32
  deriving DecidableEq

/-- The tables of `poller_epoll.c` and the interest list of its epoll instance. -/
structure Table where
  fdGenerations : List (BitVec 32) := []
  fdRegistered : List (BitVec 8) := []
  fdTableCapacity : Nat := 0
  interest : Int → Option EpollEvent := fun _ => none

/-- What the environment decides in one call: whether `epoll_ctl` is refused for a reason
other than the descriptor being registered or not, and the two allocations. -/
structure Answers where
  ctlOk : Bool
  generationsOk : Bool
  registeredOk : Bool

/-- `(size_t)fd`. -/
def sizeOfFd (fd : Int) : Nat := (fd % 2 ^ 64).toNat

/-- `calloc` of `n` words of `size` bytes. -/
def calloc {w : Nat} (allocOk : Bool) (n size : Nat) : Option (List (BitVec w)) :=
  if allocOk && n * size ≤ sizeMax then some (List.replicate n 0) else none

/-- `memcpy` of `n` words to the front of an array. -/
def memcpy {w : Nat} (dst src : List (BitVec w)) (n : Nat) : Except Fault (List (BitVec w)) := do
  Ring.storeRange dst 0 (← Ring.loadRange src 0 n)

/-- `a[fd]` for an `int`. -/
def loadAt {w : Nat} (a : List (BitVec w)) (fd : Int) : Except Fault (BitVec w) :=
  if fd < 0 then .error (.read 0) else Ring.load a fd.toNat

/-- `a[fd] = x` for an `int`. -/
def storeAt {w : Nat} (a : List (BitVec w)) (fd : Int) (x : BitVec w) :
    Except Fault (List (BitVec w)) :=
  if fd < 0 then .error (.write 0) else Ring.store a fd.toNat x

/-- The end of `ensure_fd_capacity`: the new arrays take the place of the old ones. -/
def moveTables (c : Table) (capacity : Nat) (generations : List (BitVec 32))
    (registered : List (BitVec 8)) : Except Fault Table :=
  if c.fdTableCapacity ≠ 0 then do
    let generations ← memcpy generations c.fdGenerations c.fdTableCapacity
    let registered ← memcpy registered c.fdRegistered c.fdTableCapacity
    return { c with
      fdGenerations := generations, fdRegistered := registered, fdTableCapacity := capacity }
  else
    .ok { c with
      fdGenerations := generations, fdRegistered := registered, fdTableCapacity := capacity }

def ensureFdCapacity (ans : Answers) (c : Table) (fd : Int) : Except Fault (Table × Bool) :=
  if fd < 0 then .ok (c, false)
  else
    let needed := sizeOfFd fd + 1
    if needed ≤ c.fdTableCapacity then .ok (c, true)
    else
      match fdCapacityFor needed 64 (if c.fdTableCapacity = 0 then 64 else c.fdTableCapacity) with
      | none => .ok (c, false)
      | some capacity =>
        match calloc ans.generationsOk capacity 4, calloc ans.registeredOk capacity 1 with
        | some generations, some registered => do
          return (← moveTables c capacity generations registered, true)
        | _, _ => .ok (c, false)

/-- `fd_generations[fd]++`. -/
def bumpGeneration (c : Table) (fd : Int) : Except Fault Table := do
  let generation ← loadAt c.fdGenerations fd
  let generations ← storeAt c.fdGenerations fd (generation + 1)
  return { c with fdGenerations := generations }

/-- `fd_registered[fd] = flag`. -/
def setRegistered (c : Table) (fd : Int) (flag : BitVec 8) : Except Fault Table := do
  let registered ← storeAt c.fdRegistered fd flag
  return { c with fdRegistered := registered }

def fdToken (c : Table) (fd : Int) : Except Fault (BitVec 64) := do
  let generation ← loadAt c.fdGenerations fd
  return (generation.setWidth 64 <<< 32) ||| (BitVec.ofInt 32 fd).setWidth 64

inductive CtlOp where
  | add
  | mod
  | del

inductive CtlError where
  | eexist
  | enoent
  | refused
  deriving DecidableEq

/-- `epoll_ctl`; `none` is its result 0. -/
def epollCtl (ans : Answers) (c : Table) (op : CtlOp) (fd : Int) (event : EpollEvent) :
    Table × Option CtlError :=
  let put (r : Option EpollEvent) : Table × Option CtlError :=
    if ans.ctlOk then ({ c with interest := Function.update c.interest fd r }, none)
    else (c, some .refused)
  match op, c.interest fd with
  | .add, some _ => (c, some .eexist)
  | .add, none => put (some event)
  | .mod, none => (c, some .enoent)
  | .mod, some _ => put (some event)
  | .del, none => (c, some (if ans.ctlOk then .enoent else .refused))
  | .del, some _ => put none

def pollerCtl (ans : Answers) (c : Table) (op : CtlOp) (fd : Int) (events : BitVec 32)
    (token : BitVec 64) : Table × Bool :=
  let (c, error) := epollCtl ans c op fd ⟨toEpollEvents events, token⟩
  (c, error.isNone)

def pollerSetLocked (ans : Answers) (c : Table) (fd : Int) (oldEvents newEvents : BitVec 32) :
    Except Fault (Table × Bool) :=
  if oldEvents = newEvents then .ok (c, true)
  else if newEvents = CROUTINE_IO_EVENT_NONE then
    match epollCtl ans c .del fd ⟨0, 0⟩ with
    | (c, none) | (c, some .enoent) =>
      if sizeOfFd fd < c.fdTableCapacity then do
        let c ← setRegistered c fd 0
        let c ← bumpGeneration c fd
        return (c, true)
      else .ok (c, true)
    | (c, some _) => .ok (c, false)
  else if oldEvents = CROUTINE_IO_EVENT_NONE then do
    let (c, ok) ← ensureFdCapacity ans c fd
    if !ok then return (c, false)
    else
      let c ← bumpGeneration c fd
      let token ← fdToken c fd
      match pollerCtl ans c .add fd newEvents token with
      | (c, false) => return (c, false)
      | (c, true) => return (← setRegistered c fd 1, true)
  else if sizeOfFd fd ≥ c.fdTableCapacity then .ok (c, false)
  else do
    let flag ← loadAt c.fdRegistered fd
    if flag = 0 then return (c, false)
    else
      let token ← fdToken c fd
      return pollerCtl ans c .mod fd newEvents token

/-- Whether the filter of `croutine_poller_wait` passes an event that is not the wake event. -/
def passes (c : Table) (fd : Int) (generation : BitVec 32) : Except Fault Bool :=
  if sizeOfFd fd ≥ c.fdTableCapacity then .ok false
  else do
    let flag ← loadAt c.fdRegistered fd
    if flag = 0 then return false
    else
      let current ← loadAt c.fdGenerations fd
      return current = generation

/-- One round of the filter loop of `croutine_poller_wait`: `events` is the array of the
caller, filled up to `count`. -/
def filterEvent (c : Table) (out : List PollEvent × Nat) (ready : EpollEvent) :
    Except Fault (List PollEvent × Nat) :=
  if ready.data = WAKE_TOKEN then .ok out
  else do
    let fd := (ready.data.setWidth 32).toInt
    let generation := (ready.data >>> 32).setWidth 32
    if !(← passes c fd generation) then return out
    else
      let translated := fromEpollEvents ready.events
      if translated = CROUTINE_IO_EVENT_NONE then return out
      else
        let events ← Ring.store out.1 out.2 ⟨fd, translated⟩
        return (events, out.2 + 1)

/-- `croutine_poller_wait` after `epoll_wait` has filled `ready_events`; the result is the part
of the caller's array that was filled. -/
def filterEvents (c : Table) (events : List PollEvent) (ready : List EpollEvent) :
    Except Fault (List PollEvent) := do
  let (events, count) ← ready.foldlM (filterEvent c) (events, 0)
  return events.take count

/-! ## Words and what they stand for -/

/-- The word of a set of events, as `io_wait_entry_events` makes it. -/
def wordOf (e : IoEvents) : BitVec 32 :=
  let events := CROUTINE_IO_EVENT_NONE
  let events := if e.read then events ||| CROUTINE_IO_EVENT_READ else events
  if e.write then events ||| CROUTINE_IO_EVENT_WRITE else events

/-- The words of two sets of events are equal only if the sets are. -/
theorem wordOf_inj {a b : IoEvents} : wordOf a = wordOf b ↔ a = b := by
  obtain ⟨r, w⟩ := a
  obtain ⟨r', w'⟩ := b
  cases r <;> cases w <;> cases r' <;> cases w' <;> decide

/-- The word that says no events is the one of the empty set. -/
theorem wordOf_eq_none {e : IoEvents} : wordOf e = CROUTINE_IO_EVENT_NONE ↔ e = .none :=
  wordOf_inj (b := .none)

/-- The bits of a word that the runtime requests or understands. -/
def maskOf (word : BitVec 32) : EpollMask :=
  ⟨word &&& EPOLLIN ≠ 0, word &&& EPOLLPRI ≠ 0, word &&& EPOLLRDHUP ≠ 0, word &&& EPOLLOUT ≠ 0,
    word &&& EPOLLERR ≠ 0, word &&& EPOLLHUP ≠ 0⟩

/-- The translation of a set to a mask, in words and in sets. -/
theorem maskOf_toEpollEvents (e : IoEvents) :
    maskOf (toEpollEvents (wordOf e)) = Croutine.toEpollEvents e := by
  obtain ⟨r, w⟩ := e
  cases r <;> cases w <;> decide

/-- Asking for two bits at once. -/
theorem and_or_eq_zero {word x y : BitVec 32} :
    word &&& (x ||| y) = 0 ↔ word &&& x = 0 ∧ word &&& y = 0 := by
  rw [BitVec.and_or_distrib_left]
  exact BitVec.or_eq_zero_iff

/-- The translation of a mask to a set, in words and in sets. -/
theorem fromEpollEvents_eq (word : BitVec 32) :
    fromEpollEvents word = wordOf (Croutine.fromEpollEvents (maskOf word)) := by
  unfold fromEpollEvents Croutine.fromEpollEvents maskOf
  simp only [ne_eq, and_or_eq_zero]
  by_cases h1 : word &&& EPOLLIN = 0 <;> by_cases h2 : word &&& EPOLLPRI = 0 <;>
    by_cases h3 : word &&& EPOLLRDHUP = 0 <;> by_cases h4 : word &&& EPOLLOUT = 0 <;>
      by_cases h5 : word &&& EPOLLERR = 0 <;> by_cases h6 : word &&& EPOLLHUP = 0 <;>
        simp only [h1, h2, h3, h4, h5, h6] <;> decide

/-- Shifting and or-ing the two halves of a token is the token of the model. -/
theorem toNat_token (generation : BitVec 32) {fd : Int} (hpos : 0 ≤ fd) :
    ((generation.setWidth 64 <<< 32) ||| (BitVec.ofInt 32 fd).setWidth 64).toNat =
      Croutine.fdToken generation.toNat fd := by
  have hgen : generation.toNat % 2 ^ 64 = generation.toNat :=
    Nat.mod_eq_of_lt (Nat.lt_of_lt_of_le generation.isLt (by decide))
  have hfd : (BitVec.ofInt 32 fd).toNat = fd.toNat % 2 ^ 32 := by
    rw [BitVec.toNat_ofInt]
    omega
  have hlow : fd.toNat % 2 ^ 32 < 2 ^ 32 := Nat.mod_lt _ (by decide)
  have hhigh : generation.toNat <<< 32 % 2 ^ 64 = generation.toNat <<< 32 := by
    have hlt := generation.isLt
    rw [Nat.shiftLeft_eq]
    omega
  unfold Croutine.fdToken
  rw [BitVec.toNat_or, BitVec.toNat_shiftLeft, BitVec.toNat_setWidth, BitVec.toNat_setWidth, hgen,
    hhigh, hfd, Nat.mod_eq_of_lt (Nat.lt_trans hlow (by decide)),
    ← Nat.shiftLeft_add_eq_or_of_lt hlow, Nat.shiftLeft_eq]

/-- The token of the wake descriptor is all ones. -/
theorem toNat_wakeToken : WAKE_TOKEN.toNat = wakeToken := BitVec.toNat_allOnes

/-- The low half of a token, read as an `int`. -/
theorem tokenFd_toNat (data : BitVec 64) : (data.setWidth 32).toInt = tokenFd data.toNat := by
  rw [BitVec.toInt_eq_toNat_bmod, BitVec.toNat_setWidth]
  rfl

/-- The high half of a token, read unsigned. -/
theorem toNat_generation (data : BitVec 64) :
    ((data >>> 32).setWidth 32).toNat = data.toNat / 2 ^ 32 % 2 ^ 32 := by
  rw [BitVec.toNat_setWidth, BitVec.toNat_ushiftRight, Nat.shiftRight_eq_div_pow]

/-- The low half of a token is an `int`. -/
theorem tokenFd_int (token : Nat) : isInt (tokenFd token) = true := by
  simp only [isInt, Bool.and_eq_true, decide_eq_true_eq]
  unfold tokenFd
  rw [Int.bmod_def]
  omega

/-! ## The tables -/

/-- The capacities the table goes through. -/
def TableCapacity (n : Nat) : Prop := n = 0 ∨ ∃ k, 6 ≤ k ∧ k ≤ 31 ∧ n = 2 ^ k

/-- A capacity that the table takes is at most `2 ^ 31`. -/
theorem TableCapacity.le {n : Nat} (h : TableCapacity n) : n ≤ 2 ^ 31 := by
  rcases h with rfl | ⟨k, _, hk, rfl⟩
  · exact Nat.zero_le _
  · exact Nat.pow_le_pow_right (by decide) hk

/-- The doubling loop ends at a power of two, for every descriptor. -/
theorem fdCapacityFor_pow {needed : Nat} (hneeded : needed ≤ 2 ^ 31) :
    ∀ (rounds k : Nat), k ≤ 31 → 31 < rounds + k →
      ∃ j, k ≤ j ∧ j ≤ 31 ∧ fdCapacityFor needed rounds (2 ^ k) = some (2 ^ j) := by
  intro rounds
  induction rounds with
  | zero =>
      intro k hk hlt
      omega
  | succ n ih =>
      intro k hk hlt
      unfold fdCapacityFor
      by_cases hless : 2 ^ k < needed
      · have hk31 : k < 31 := by
          by_contra hge
          have hpow : 2 ^ 31 ≤ 2 ^ k := Nat.pow_le_pow_right (by decide) (by omega)
          omega
        have hsmall : ¬2 ^ k > sizeMax / 2 := by
          have hpow : 2 ^ k ≤ 2 ^ 31 := Nat.pow_le_pow_right (by decide) hk
          unfold sizeMax
          omega
        obtain ⟨j, hkj, hj, heq⟩ := ih (k + 1) (by omega) (by omega)
        rw [if_pos hless, if_neg hsmall, ← Nat.pow_succ]
        exact ⟨j, by omega, hj, heq⟩
      · rw [if_neg hless]
        exact ⟨k, Nat.le_refl k, hk, rfl⟩

/-- The poller of the runtime's model that the tables stand for. -/
structure Represents (c : Table) (p : Poller) : Prop where
  backend : p.backend = .epoll
  capacity : c.fdTableCapacity = p.fdTableCapacity
  size : TableCapacity p.fdTableCapacity
  generation : Cells c.fdGenerations p.fdTableCapacity BitVec.toNat p.fdGenerations
  flag : Cells c.fdRegistered p.fdTableCapacity (fun r => decide (r ≠ 0)) p.fdRegistered
  interest : ∀ fd, (c.interest fd).map (fun e => (maskOf e.events, e.data.toNat)) =
    (p.interest fd).map fun r => (r.mask, r.token)

/-- The choices of the runtime's model that the answers amount to. -/
def Answers.oracle (ans : Answers) : PollerOracle :=
  ⟨fun _ _ _ => ans.ctlOk, fun _ _ _ => true, ans.generationsOk && ans.registeredOk⟩

/-- The conversion of a descriptor to `size_t`. -/
theorem sizeOfFd_eq {fd : Int} (hint : isInt fd = true) (hpos : 0 ≤ fd) :
    sizeOfFd fd = fd.toNat := by
  simp only [isInt, Bool.and_eq_true, decide_eq_true_eq] at hint
  unfold sizeOfFd
  omega

/-- Reading the array at a descriptor. -/
theorem loadAt_eq {w : Nat} (a : List (BitVec w)) {fd : Int} (hpos : 0 ≤ fd) :
    loadAt a fd = Ring.load a fd.toNat :=
  if_neg (by omega)

/-- Writing the array at a descriptor. -/
theorem storeAt_eq {w : Nat} (a : List (BitVec w)) {fd : Int} (hpos : 0 ≤ fd) (x : BitVec w) :
    storeAt a fd x = Ring.store a fd.toNat x :=
  if_neg (by omega)

/-- `calloc` of an array that fits in memory. -/
theorem calloc_eq {w n size : Nat} (ok : Bool) (h : n * size ≤ sizeMax) :
    calloc (w := w) ok n size = if ok then some (List.replicate n 0) else none := by
  unfold calloc
  rw [decide_eq_true h, Bool.and_true]

namespace Represents

variable {c : Table} {p : Poller} {fd : Int} {ans : Answers}

/-- Empty tables stand for the first poller. -/
theorem initial (wakeFd : Int) : Represents {} (Croutine.initial .epoll wakeFd 1 1 1).poller :=
  ⟨rfl, rfl, .inl rfl, .nil _ _, .nil _ _, fun _ => rfl⟩

/-- A negative descriptor is a large `size_t`. -/
theorem sizeOfFd_lt (h : Represents c p) (hint : isInt fd = true) :
    sizeOfFd fd < c.fdTableCapacity ↔ p.inTable fd = true := by
  have hle := h.size.le
  rw [h.capacity, Poller.inTable_iff]
  by_cases hpos : 0 ≤ fd
  · rw [sizeOfFd_eq hint hpos]
    exact ⟨fun hlt => ⟨hpos, hlt⟩, And.right⟩
  · simp only [isInt, Bool.and_eq_true, decide_eq_true_eq] at hint
    unfold sizeOfFd
    omega

/-- Counting a generation up, in words and in numbers. -/
theorem bump (h : Represents c p) (hin : p.inTable fd = true) :
    ∃ c', bumpGeneration c fd = .ok c' ∧ Represents c' (p.bump fd) := by
  obtain ⟨hpos, hlt⟩ := Poller.inTable_iff.mp hin
  obtain ⟨x, hload, hx⟩ := h.generation.load hlt
  obtain ⟨hstore, hcells⟩ := h.generation.store hlt (x + 1)
  refine ⟨{ c with fdGenerations := c.fdGenerations.set fd.toNat (x + 1) }, ?_, ?_⟩
  · unfold bumpGeneration
    rw [loadAt_eq _ hpos, hload]
    show (do
      let generations ← storeAt c.fdGenerations fd (x + 1)
      return { c with fdGenerations := generations } : Except Fault Table) = _
    rw [storeAt_eq _ hpos, hstore]
    rfl
  · rw [BitVec.toNat_add, hx] at hcells
    exact ⟨h.backend, h.capacity, h.size, hcells, h.flag, h.interest⟩

/-- Setting the flag of a descriptor. -/
theorem setRegistered (h : Represents c p) (hin : p.inTable fd = true) (flag : BitVec 8) :
    ∃ c', Word.setRegistered c fd flag = .ok c' ∧
      Represents c' (p.setRegistered fd (decide (flag ≠ 0))) := by
  obtain ⟨hpos, hlt⟩ := Poller.inTable_iff.mp hin
  obtain ⟨hstore, hcells⟩ := h.flag.store hlt flag
  refine ⟨{ c with fdRegistered := c.fdRegistered.set fd.toNat flag }, ?_, ?_⟩
  · unfold Word.setRegistered
    rw [storeAt_eq _ hpos, hstore]
    rfl
  · exact ⟨h.backend, h.capacity, h.size, h.generation, hcells, h.interest⟩

/-- The token of a descriptor, in words and in numbers. -/
theorem token (h : Represents c p) (hin : p.inTable fd = true) :
    ∃ t, fdToken c fd = .ok t ∧ t.toNat = Croutine.fdToken (p.fdGenerations fd.toNat) fd := by
  obtain ⟨hpos, hlt⟩ := Poller.inTable_iff.mp hin
  obtain ⟨x, hload, hx⟩ := h.generation.load hlt
  refine ⟨(x.setWidth 64 <<< 32) ||| (BitVec.ofInt 32 fd).setWidth 64, ?_, ?_⟩
  · unfold fdToken
    rw [loadAt_eq _ hpos, hload]
    rfl
  · rw [toNat_token x hpos, hx]

/-- Reading the flag of a descriptor. -/
theorem loadFlag (h : Represents c p) (hin : p.inTable fd = true) :
    ∃ flag, loadAt c.fdRegistered fd = .ok flag ∧
      decide (flag ≠ 0) = p.fdRegistered fd.toNat := by
  obtain ⟨hpos, hlt⟩ := Poller.inTable_iff.mp hin
  obtain ⟨x, hload, hx⟩ := h.flag.load hlt
  exact ⟨x, by rw [loadAt_eq _ hpos, hload], hx⟩

/-- The kernel's list changes alike on both sides. -/
theorem setInterest (h : Represents c p) {e : Option EpollEvent} {r : Option Registration}
    (heq : e.map (fun e => (maskOf e.events, e.data.toNat)) = r.map fun r => (r.mask, r.token)) :
    Represents { c with interest := Function.update c.interest fd e } (p.setInterest fd r) := by
  refine ⟨h.backend, h.capacity, h.size, h.generation, h.flag, fun g => ?_⟩
  by_cases hg : g = fd
  · subst hg
    simpa [Poller.setInterest] using heq
  · simpa [Poller.setInterest, hg] using h.interest g

/-- A new registration; the words do not number the periods. -/
theorem register (h : Represents c p) {e : EpollEvent} {mask : EpollMask}
    (hmask : maskOf e.events = mask) :
    Represents { c with interest := Function.update c.interest fd (some e) }
      (p.register fd mask e.data.toNat) := by
  have hset : Represents { c with interest := Function.update c.interest fd (some e) }
      (p.setInterest fd (some ⟨mask, e.data.toNat, p.periods + 1⟩)) :=
    h.setInterest (by rw [Option.map_some, Option.map_some, hmask])
  exact ⟨hset.backend, hset.capacity, hset.size, hset.generation, hset.flag, hset.interest⟩

/-- The kernel has a registration in both or in neither. -/
theorem interest_none (h : Represents c p) : c.interest fd = none ↔ p.interest fd = none := by
  have heq := h.interest fd
  rw [← Option.map_eq_none_iff, heq, Option.map_eq_none_iff]

/-- Copying the two arrays to the front of larger ones of zeroes. -/
theorem moved (h : Represents c p) {capacity : Nat} (hle : p.fdTableCapacity ≤ capacity)
    (hsize : TableCapacity capacity) :
    ∃ c', moveTables c capacity (List.replicate capacity 0) (List.replicate capacity 0) = .ok c' ∧
      Represents c' { p with
        fdGenerations := fun i => if i < p.fdTableCapacity then p.fdGenerations i else 0
        fdRegistered := fun i => i < p.fdTableCapacity && p.fdRegistered i
        fdTableCapacity := capacity } := by
  obtain ⟨hload, hstore, hcells⟩ := h.generation.copy hle 0
  obtain ⟨hload', hstore', hcells'⟩ := h.flag.copy hle 0
  have hflags : (fun i => if i < p.fdTableCapacity then p.fdRegistered i
      else decide ((0 : BitVec 8) ≠ 0)) =
        fun i => decide (i < p.fdTableCapacity) && p.fdRegistered i := by
    funext i
    by_cases hi : i < p.fdTableCapacity
    · rw [if_pos hi, decide_eq_true hi, Bool.true_and]
    · rw [if_neg hi, decide_eq_false hi, Bool.false_and]
      rfl
  rw [hflags] at hcells'
  refine ⟨{ c with
    fdGenerations := c.fdGenerations ++ List.replicate (capacity - p.fdTableCapacity) 0
    fdRegistered := c.fdRegistered ++ List.replicate (capacity - p.fdTableCapacity) 0
    fdTableCapacity := capacity }, ?_, h.backend, rfl, hsize, hcells, hcells', h.interest⟩
  unfold moveTables
  rw [h.capacity]
  by_cases hzero : p.fdTableCapacity = 0
  · have hnil := List.eq_nil_of_length_eq_zero (h.generation.length_eq.trans hzero)
    have hnil' := List.eq_nil_of_length_eq_zero (h.flag.length_eq.trans hzero)
    rw [if_neg (fun hne => hne hzero), hnil, hnil', hzero]
    rfl
  · rw [if_pos hzero]
    unfold memcpy
    rw [hload, hload']
    show (do
      let generations ← Ring.storeRange (List.replicate capacity 0) 0 c.fdGenerations
      let registered ← Ring.storeRange (List.replicate capacity 0) 0 c.fdRegistered
      return { c with
        fdGenerations := generations, fdRegistered := registered
        fdTableCapacity := capacity } : Except Fault Table) = _
    rw [hstore, hstore']
    rfl

/-- **Growing the tables**, which fails only for want of memory. -/
theorem ensure (h : Represents c p) (ans : Answers) (hint : isInt fd = true) :
    (∃ c' q, ensureFdCapacity ans c fd = .ok (c', true) ∧
      Croutine.ensureFdCapacity ans.oracle p fd = some q ∧ Represents c' q) ∨
    ensureFdCapacity ans c fd = .ok (c, false) ∧
      Croutine.ensureFdCapacity ans.oracle p fd = none := by
  unfold ensureFdCapacity Croutine.ensureFdCapacity
  by_cases hneg : fd < 0
  · rw [if_pos hneg, if_pos hneg]
    exact .inr ⟨rfl, rfl⟩
  · have hpos : 0 ≤ fd := by omega
    rw [if_neg hneg, if_neg hneg, sizeOfFd_eq hint hpos, h.capacity]
    dsimp only
    by_cases hroom : fd.toNat + 1 ≤ p.fdTableCapacity
    · rw [if_pos hroom, if_pos hroom]
      exact .inl ⟨c, p, rfl, rfl, h⟩
    · rw [if_neg hroom, if_neg hroom]
      have hneeded : fd.toNat + 1 ≤ 2 ^ 31 := by
        simp only [isInt, Bool.and_eq_true, decide_eq_true_eq] at hint
        omega
      obtain ⟨k, hk6, hk, hstart⟩ : ∃ k, 6 ≤ k ∧ k ≤ 31 ∧
          (if p.fdTableCapacity = 0 then 64 else p.fdTableCapacity) = 2 ^ k := by
        rcases h.size with hzero | ⟨k, hk6, hk, hpow⟩
        · exact ⟨6, Nat.le_refl 6, by decide, if_pos hzero⟩
        · refine ⟨k, hk6, hk, ?_⟩
          rw [if_neg (by rw [hpow]; exact Nat.two_pow_pos k |>.ne'), hpow]
      obtain ⟨j, hkj, hj, hcap⟩ := fdCapacityFor_pow hneeded 64 k hk (by omega)
      obtain ⟨hfits, hlarger⟩ := fdCapacityFor_some _ _ _ hcap
      have hsize : 2 ^ j ≤ 2 ^ 31 := Nat.pow_le_pow_right (by decide) hj
      have hle : p.fdTableCapacity ≤ 2 ^ j := by omega
      rw [hstart, hcap]
      dsimp only
      rw [calloc_eq _ (by unfold sizeMax; omega), calloc_eq _ (by unfold sizeMax; omega)]
      obtain ⟨ctlOk, generationsOk, registeredOk⟩ := ans
      cases generationsOk with
      | false => exact .inr ⟨rfl, rfl⟩
      | true =>
          cases registeredOk with
          | false => exact .inr ⟨rfl, rfl⟩
          | true =>
              obtain ⟨c', hmove, hrep⟩ := h.moved hle (.inr ⟨j, by omega, hj, rfl⟩)
              refine .inl ⟨c', _, ?_, rfl, hrep⟩
              simp only [if_true]
              rw [hmove]
              rfl

/-- `EPOLL_CTL_DEL`. -/
theorem ctlDel (h : Represents c p) (ans : Answers) (fd : Int) :
    (∃ c' error q, epollCtl ans c .del fd ⟨0, 0⟩ = (c', error) ∧
      (error = none ∨ error = some .enoent) ∧
      p.ctlDel ans.ctlOk fd = some q ∧ Represents c' q) ∨
    epollCtl ans c .del fd ⟨0, 0⟩ = (c, some .refused) ∧ p.ctlDel ans.ctlOk fd = none := by
  unfold epollCtl Poller.ctlDel
  cases hok : ans.ctlOk with
  | false => cases hc : c.interest fd <;> exact .inr ⟨rfl, rfl⟩
  | true =>
      cases hc : c.interest fd with
      | none =>
          have hsame : p.setInterest fd none = p := by
            unfold Poller.setInterest
            rw [← h.interest_none.mp hc, Function.update_eq_self]
          exact .inl ⟨c, _, p, rfl, .inr rfl, congrArg some hsame, h⟩
      | some e => exact .inl ⟨_, none, _, rfl, .inl rfl, rfl, h.setInterest rfl⟩

/-- `EPOLL_CTL_ADD`. -/
theorem ctlAdd (h : Represents c p) (ans : Answers) (fd : Int) (events : IoEvents)
    (token : BitVec 64) :
    (∃ c' q, pollerCtl ans c .add fd (wordOf events) token = (c', true) ∧
      p.ctlAdd ans.ctlOk fd (Croutine.toEpollEvents events) token.toNat = some q ∧
      Represents c' q ∧ q.inTable fd = p.inTable fd) ∨
    pollerCtl ans c .add fd (wordOf events) token = (c, false) ∧
      p.ctlAdd ans.ctlOk fd (Croutine.toEpollEvents events) token.toNat = none := by
  unfold pollerCtl epollCtl Poller.ctlAdd
  cases hc : c.interest fd with
  | some e =>
      obtain ⟨r, hr⟩ := Option.ne_none_iff_exists'.mp
        (mt h.interest_none.mpr (by rw [hc]; simp))
      rw [hr]
      exact .inr ⟨rfl, rfl⟩
  | none =>
      rw [h.interest_none.mp hc]
      cases hok : ans.ctlOk with
      | true =>
          exact .inl ⟨_, _, rfl, rfl, h.register (maskOf_toEpollEvents _), rfl⟩
      | false => exact .inr ⟨rfl, rfl⟩

/-- `EPOLL_CTL_MOD`. -/
theorem ctlMod (h : Represents c p) (ans : Answers) (fd : Int) (events : IoEvents)
    (token : BitVec 64) :
    (∃ c' q, pollerCtl ans c .mod fd (wordOf events) token = (c', true) ∧
      p.ctlMod ans.ctlOk fd (Croutine.toEpollEvents events) token.toNat = some q ∧
      Represents c' q) ∨
    pollerCtl ans c .mod fd (wordOf events) token = (c, false) ∧
      p.ctlMod ans.ctlOk fd (Croutine.toEpollEvents events) token.toNat = none := by
  unfold pollerCtl epollCtl Poller.ctlMod
  cases hc : c.interest fd with
  | none =>
      rw [h.interest_none.mp hc]
      exact .inr ⟨rfl, rfl⟩
  | some e =>
      obtain ⟨r, hr⟩ := Option.ne_none_iff_exists'.mp
        (mt h.interest_none.mpr (by rw [hc]; simp))
      rw [hr]
      cases hok : ans.ctlOk with
      | true =>
          refine .inl ⟨_, _, rfl, rfl, h.setInterest ?_⟩
          rw [Option.map_some, Option.map_some, maskOf_toEpollEvents]
      | false => exact .inr ⟨rfl, rfl⟩

end Represents

/-! ## Calls -/

/-- The flag and the generation of a descriptor let an event pass. -/
def admits (p : Poller) (fd : Int) (generation : Nat) : Bool :=
  p.inTable fd && p.fdRegistered fd.toNat && decide (p.fdGenerations fd.toNat = generation)

namespace Represents

variable {c : Table} {p : Poller} {fd : Int} {ans : Answers}

/-- Deleting a descriptor changes its generation when it has one. -/
theorem deleted (h : Represents c p) (hint : isInt fd = true) :
    ∃ c', (if sizeOfFd fd < c.fdTableCapacity then do
        let c ← Word.setRegistered c fd 0
        let c ← bumpGeneration c fd
        return (c, true)
      else .ok (c, true) : Except Fault (Table × Bool)) = .ok (c', true) ∧
      Represents c' (if p.inTable fd then (p.setRegistered fd false).bump fd else p) := by
  by_cases hin : p.inTable fd = true
  · obtain ⟨c1, hflag, h1⟩ := h.setRegistered hin 0
    obtain ⟨c2, hbump, h2⟩ := h1.bump hin
    rw [if_pos ((h.sizeOfFd_lt hint).mpr hin), if_pos hin, hflag]
    refine ⟨c2, ?_, h2⟩
    show (do
      let c ← bumpGeneration c1 fd
      return (c, true) : Except Fault (Table × Bool)) = _
    rw [hbump]
    rfl
  · rw [if_neg (mt (h.sizeOfFd_lt hint).mp hin), if_neg hin]
    exact ⟨c, rfl, h⟩

/-- **`croutine_poller_set`** stays within its arrays and does what the model's poller does. -/
theorem set (h : Represents c p) (ans : Answers) (hint : isInt fd = true)
    (old new : IoEvents) :
    ∃ c', pollerSetLocked ans c fd (wordOf old) (wordOf new) =
        .ok (c', (croutinePollerSet ans.oracle p fd old new).2) ∧
      Represents c' (croutinePollerSet ans.oracle p fd old new).1 := by
  unfold croutinePollerSet
  rw [h.backend]
  dsimp only
  unfold pollerSetLocked Croutine.pollerSetLocked
  simp only [wordOf_inj, wordOf_eq_none]
  by_cases hsame : old = new
  · rw [if_pos hsame, if_pos hsame]
    exact ⟨c, rfl, h⟩
  rw [if_neg hsame, if_neg hsame]
  by_cases hnone : new = .none
  · rw [if_pos hnone, if_pos hnone]
    rcases h.ctlDel ans fd with
      ⟨c1, error, q, hctl, herror, hmodel, h1⟩ | ⟨hctl, hmodel⟩
    · rw [hctl, show ans.oracle.ctlOk fd old new = ans.ctlOk from rfl, hmodel]
      rcases herror with rfl | rfl
      · exact h1.deleted hint
      · exact h1.deleted hint
    · rw [hctl, show ans.oracle.ctlOk fd old new = ans.ctlOk from rfl, hmodel]
      exact ⟨c, rfl, h⟩
  rw [if_neg hnone, if_neg hnone]
  by_cases hold : old = .none
  · rw [if_pos hold, if_pos hold]
    rcases h.ensure ans hint with ⟨c1, q, henough, hmodel, h1⟩ | ⟨hfail, hmodel⟩
    · have hin := (ensureFdCapacity_some hmodel).room
      obtain ⟨c2, hbump, h2⟩ := h1.bump hin
      obtain ⟨token, htoken, hval⟩ := h2.token hin
      rw [henough, hmodel]
      simp only [bind, Except.bind, Bool.not_true, Bool.false_eq_true, if_false, hbump, htoken]
      rw [← hval, show ans.oracle.ctlOk fd old new = ans.ctlOk from rfl]
      rcases h2.ctlAdd ans fd new token with ⟨c3, q3, hctl, hadd, h3, hin3⟩ | ⟨hctl, hadd⟩
      · obtain ⟨c4, hflag, h4⟩ := h3.setRegistered (hin3.trans hin) 1
        rw [hctl, hadd]
        simp only [hflag]
        exact ⟨c4, rfl, h4⟩
      · rw [hctl, hadd]
        exact ⟨c2, rfl, h2⟩
    · rw [hfail, hmodel]
      exact ⟨c, rfl, h⟩
  rw [if_neg hold, if_neg hold]
  by_cases hin : p.inTable fd = true
  · rw [if_neg (Nat.not_le.mpr ((h.sizeOfFd_lt hint).mpr hin)), hin]
    obtain ⟨flag, hload, hflag⟩ := h.loadFlag hin
    obtain ⟨token, htoken, hval⟩ := h.token hin
    rw [hload, ← hflag]
    simp only [bind, Except.bind]
    by_cases hzero : flag = 0
    · rw [if_pos hzero, hzero]
      exact ⟨c, rfl, h⟩
    · rw [if_neg hzero, decide_eq_true hzero, htoken, ← hval]
      dsimp only
      rcases h.ctlMod ans fd new token with ⟨c1, q, hctl, hmod, h1⟩ | ⟨hctl, hmod⟩
      · rw [hctl, show ans.oracle.ctlOk fd old new = ans.ctlOk from rfl, hmod]
        exact ⟨c1, rfl, h1⟩
      · rw [hctl, show ans.oracle.ctlOk fd old new = ans.ctlOk from rfl, hmod]
        exact ⟨c, rfl, h⟩
  · rw [if_pos (Nat.not_lt.mp (mt (h.sizeOfFd_lt hint).mp hin)), Bool.not_eq_true _ |>.mp hin]
    exact ⟨c, rfl, h⟩

/-- The test of the filter. -/
theorem passes (h : Represents c p) (hint : isInt fd = true) (generation : BitVec 32) :
    Word.passes c fd generation = .ok (admits p fd generation.toNat) := by
  unfold Word.passes admits
  by_cases hin : p.inTable fd = true
  · rw [if_neg (Nat.not_le.mpr ((h.sizeOfFd_lt hint).mpr hin)), hin, Bool.true_and]
    obtain ⟨hpos, hlt⟩ := Poller.inTable_iff.mp hin
    obtain ⟨flag, hload, hflag⟩ := h.loadFlag hin
    obtain ⟨current, hcurrent, hval⟩ := h.generation.load hlt
    rw [hload, ← hflag, loadAt_eq _ hpos, hcurrent, ← hval]
    simp only [bind, Except.bind, BitVec.toNat_inj]
    by_cases hzero : flag = 0
    · rw [if_pos hzero, hzero]
      rfl
    · rw [if_neg hzero, decide_eq_true hzero]
      rfl
  · rw [if_pos (Nat.not_lt.mp (mt (h.sizeOfFd_lt hint).mp hin)), Bool.not_eq_true _ |>.mp hin]
    rfl

end Represents

/-- An event of the kernel as the runtime's model has it. -/
def rawOf (ready : EpollEvent) : RawEvent := .epoll ready.data.toNat (maskOf ready.events) 0

/-- An event of the runtime's model as `struct CroutinePollEvent`. -/
def eventOf (e : Croutine.PollEvent) : PollEvent := ⟨e.fd, wordOf e.events⟩

/-- The caller's array is filled with the events of `out`. -/
def Filled (events : List PollEvent) (out : List Croutine.PollEvent) : Prop :=
  events.take out.length = out.map eventOf

/-- Storing the next event fills the array further. -/
theorem Filled.store {events : List PollEvent} {out : List Croutine.PollEvent}
    (h : Filled events out) (hroom : out.length < events.length) (e : Croutine.PollEvent) :
    Ring.store events out.length (eventOf e) = .ok (events.set out.length (eventOf e)) ∧
      Filled (events.set out.length (eventOf e)) (out ++ [e]) := by
  refine ⟨Ring.store_ok hroom _, ?_⟩
  unfold Filled at h ⊢
  rw [List.length_append, List.length_singleton, List.map_append, ← h, List.map_singleton,
    List.take_add_one, List.getElem?_set_self hroom, List.take_set_of_le (Nat.le_refl _)]
  rfl

/-- One event of the model's filter. -/
theorem pollerTranslate_rawOf (p : Poller) (out : List Croutine.PollEvent) (ready : EpollEvent)
    (rest : List RawEvent) :
    pollerTranslate p out (rawOf ready :: rest) =
      if ready.data = WAKE_TOKEN then pollerTranslate p out rest
      else pollerTranslate p (out ++ (epollTranslate p ready.data.toNat
        (maskOf ready.events) 0).toList) rest := by
  have hwake : p.isWake (rawOf ready) = true ↔ ready.data = WAKE_TOKEN := by
    rw [← BitVec.toNat_inj, toNat_wakeToken]
    exact decide_eq_true_iff
  unfold rawOf at hwake ⊢
  rw [pollerTranslate]
  by_cases htoken : ready.data = WAKE_TOKEN
  · rw [if_pos htoken, if_pos (hwake.mpr htoken)]
  · rw [if_neg htoken, if_neg (mt hwake.mp htoken)]

/-- The translation of an event that is not the wake event, in one branch. -/
theorem epollTranslate_eq (p : Poller) (token : Nat) (mask : EpollMask) :
    epollTranslate p token mask 0 =
      if admits p (tokenFd token) (token / 2 ^ 32 % 2 ^ 32) = false then none
      else if Croutine.fromEpollEvents mask = .none then none
      else some ⟨tokenFd token, Croutine.fromEpollEvents mask, 0⟩ := by
  have hadmits : (!p.inTable (tokenFd token) || !p.fdRegistered (tokenFd token).toNat ||
      decide (p.fdGenerations (tokenFd token).toNat ≠ token / 2 ^ 32 % 2 ^ 32)) = true ↔
        admits p (tokenFd token) (token / 2 ^ 32 % 2 ^ 32) = false := by
    unfold admits
    rw [← Bool.not_eq_true', Bool.not_and, Bool.not_and, ← decide_not]
  unfold epollTranslate
  dsimp only
  rw [if_congr hadmits rfl rfl]

namespace Represents

variable {c : Table} {p : Poller}

/-- **One round of the filter loop.** -/
theorem filterEvent (h : Represents c p) {events : List PollEvent} {out : List Croutine.PollEvent}
    (hfilled : Filled events out) (hroom : out.length < events.length) (ready : EpollEvent)
    (rest : List RawEvent) :
    ∃ events' out', Word.filterEvent c (events, out.length) ready = .ok (events', out'.length) ∧
      Filled events' out' ∧ events'.length = events.length ∧ out'.length ≤ out.length + 1 ∧
      pollerTranslate p out (rawOf ready :: rest) = pollerTranslate p out' rest := by
  rw [pollerTranslate_rawOf]
  unfold Word.filterEvent
  by_cases htoken : ready.data = WAKE_TOKEN
  · rw [if_pos htoken, if_pos htoken]
    exact ⟨events, out, rfl, hfilled, rfl, Nat.le_succ _, rfl⟩
  · have hpass := h.passes (tokenFd_int ready.data.toNat) ((ready.data >>> 32).setWidth 32)
    rw [toNat_generation] at hpass
    rw [if_neg htoken, if_neg htoken, epollTranslate_eq]
    simp only [tokenFd_toNat, hpass, bind, Except.bind, fromEpollEvents_eq, wordOf_eq_none]
    cases admits p (tokenFd ready.data.toNat) (ready.data.toNat / 2 ^ 32 % 2 ^ 32) with
    | false => exact ⟨events, out, rfl, hfilled, rfl, Nat.le_succ _, by simp⟩
    | true =>
        by_cases hnone : Croutine.fromEpollEvents (maskOf ready.events) = .none
        · rw [if_neg (by simp), if_pos hnone, if_neg (by simp), if_pos hnone]
          exact ⟨events, out, rfl, hfilled, rfl, Nat.le_succ _, by simp⟩
        · obtain ⟨hstore, hfilled'⟩ := hfilled.store hroom
            ⟨tokenFd ready.data.toNat, Croutine.fromEpollEvents (maskOf ready.events), 0⟩
          rw [if_neg (by simp), if_neg hnone, if_neg (by simp), if_neg hnone]
          refine ⟨_, _, ?_, hfilled', by simp, by simp, rfl⟩
          simp only [eventOf] at hstore ⊢
          rw [hstore, List.length_append]
          rfl

/-- **The filter loop** stays within the caller's array and reports what the model reports. -/
theorem filterLoop (h : Represents c p) :
    ∀ (ready : List EpollEvent) {events : List PollEvent} {out : List Croutine.PollEvent},
      Filled events out → out.length + ready.length ≤ events.length →
      ∃ events', ready.foldlM (Word.filterEvent c) (events, out.length) =
          .ok (events', (pollerTranslate p out (ready.map rawOf)).length) ∧
        Filled events' (pollerTranslate p out (ready.map rawOf)) := by
  intro ready
  induction ready with
  | nil =>
      intro events out hfilled _
      rw [List.map_nil, pollerTranslate]
      exact ⟨events, rfl, hfilled⟩
  | cons e rest ih =>
      intro events out hfilled hroom
      rw [List.length_cons] at hroom
      obtain ⟨events1, out1, hround, hfilled1, hlength, hcount, htranslate⟩ :=
        h.filterEvent hfilled (by omega) e (rest.map rawOf)
      obtain ⟨events', hloop, hfilled'⟩ := ih hfilled1 (by omega)
      rw [List.map_cons, htranslate, List.foldlM_cons, hround]
      exact ⟨events', hloop, hfilled'⟩

/-- **The filter, in words.** The loop over a batch fills the caller's array with the events of
the model. -/
theorem filterEvents (h : Represents c p) {events : List PollEvent} {ready : List EpollEvent}
    (hroom : ready.length ≤ events.length) :
    Word.filterEvents c events ready =
      .ok ((pollerTranslate p [] (ready.map rawOf)).map eventOf) := by
  have hempty : Filled events [] := rfl
  obtain ⟨events', hloop, hfilled⟩ := h.filterLoop ready hempty
    (by rw [List.length_nil, Nat.zero_add]; exact hroom)
  unfold Word.filterEvents
  rw [← hfilled]
  rw [List.length_nil] at hloop
  rw [hloop]
  rfl

end Represents

/-- A call of the poller: `croutine_poller_set`, or `croutine_poller_wait` with the array of its
caller and what `epoll_wait` has reported. -/
inductive Call where
  | set (ans : Answers) (fd : Int) (oldEvents newEvents : IoEvents)
  | wait (events : List PollEvent) (ready : List EpollEvent)

/-- The descriptor is an `int`, and `epoll_wait` reports at most `max_events` events. -/
def Call.WellTyped : Call → Prop
  | .set _ fd _ _ => isInt fd = true
  | .wait events ready => ready.length ≤ events.length

inductive Result where
  | set (ok : Bool)
  | wait (events : List PollEvent)
  deriving DecidableEq

def Table.call (c : Table) : Call → Except Fault (Result × Table)
  | .set ans fd oldEvents newEvents => do
    let (c, ok) ← pollerSetLocked ans c fd (wordOf oldEvents) (wordOf newEvents)
    return (.set ok, c)
  | .wait events ready => do
    return (.wait (← filterEvents c events ready), c)

def Table.calls : Table → List Call → Except Fault (List Result × Table)
  | c, [] => .ok ([], c)
  | c, x :: rest => do
    let (result, c) ← c.call x
    let (results, c) ← Table.calls c rest
    return (result :: results, c)

/-- The same call of the runtime's model. -/
def modelCall (p : Poller) : Call → Result × Poller
  | .set ans fd oldEvents newEvents =>
    let (p, ok) := croutinePollerSet ans.oracle p fd oldEvents newEvents
    (.set ok, p)
  | .wait _ ready => (.wait ((pollerTranslate p [] (ready.map rawOf)).map eventOf), p)

def modelCalls : Poller → List Call → List Result × Poller
  | p, [] => ([], p)
  | p, x :: rest =>
    let (result, p) := modelCall p x
    let (results, p) := modelCalls p rest
    (result :: results, p)

namespace Represents

variable {c : Table} {p : Poller}

/-- **One call, in words.** A well-typed call of the tables answers as the model and leaves
tables that stand for its poller. -/
theorem call (h : Represents c p) {x : Call} (hx : x.WellTyped) :
    ∃ c', c.call x = .ok ((modelCall p x).1, c') ∧ Represents c' (modelCall p x).2 := by
  cases x with
  | set ans fd old new =>
      obtain ⟨c', hset, h'⟩ := h.set ans hx old new
      refine ⟨c', ?_, h'⟩
      unfold Table.call
      dsimp only
      rw [hset]
      rfl
  | wait events ready =>
      refine ⟨c, ?_, h⟩
      unfold Table.call
      dsimp only
      rw [h.filterEvents hx]
      rfl

/-- **Any calls** in any order. -/
theorem calls : ∀ (l : List Call) {c : Table} {p : Poller}, Represents c p →
    (∀ x ∈ l, x.WellTyped) →
      ∃ c', c.calls l = .ok ((modelCalls p l).1, c') ∧ Represents c' (modelCalls p l).2 := by
  intro l
  induction l with
  | nil =>
      intro c p h _
      exact ⟨c, rfl, h⟩
  | cons x rest ih =>
      intro c p h hall
      obtain ⟨c1, hcall, h1⟩ := h.call (hall x List.mem_cons_self)
      obtain ⟨c', hrest, h'⟩ := ih h1 fun y hy => hall y (List.mem_cons_of_mem _ hy)
      refine ⟨c', ?_, h'⟩
      rw [Table.calls, hcall]
      show (do
        let (results, c) ← Table.calls c1 rest
        return ((modelCall p x).1 :: results, c) : Except Fault (List Result × Table)) = _
      rw [hrest]
      rfl

end Represents

/-! ## The poller of the runtime -/

/-- The tables after some calls, none of which left an array. -/
inductive Table.Reached : Table → Prop
  | init : Table.Reached {}
  | call {c c' : Table} {x : Call} {result : Result} (h : Table.Reached c) (hx : x.WellTyped)
      (hcall : c.call x = .ok (result, c')) : Table.Reached c'

/-- Answers that amount to what the model's environment has chosen for a call. -/
theorem croutinePollerSet_answers {p : Poller} (hb : p.backend = .epoll) (o : PollerOracle)
    (fd : Int) (old new : IoEvents) :
    croutinePollerSet (Answers.oracle ⟨o.ctlOk fd old new, o.tableOk, o.tableOk⟩) p fd old new =
      croutinePollerSet o p fd old new := by
  have hensure : Croutine.ensureFdCapacity
      (Answers.oracle ⟨o.ctlOk fd old new, o.tableOk, o.tableOk⟩) p fd =
        Croutine.ensureFdCapacity o p fd := by
    unfold Croutine.ensureFdCapacity Answers.oracle
    rw [Bool.and_self]
  unfold croutinePollerSet
  rw [hb]
  dsimp only
  unfold Croutine.pollerSetLocked
  rw [hensure]
  rfl

/-- A change of the runtime's poller is a call of the word-level one. -/
theorem Represents.change {c : Table} {p q : Poller} (h : Represents c p) (hfiled : Filed p)
    (hc : c.Reached) (hchange : PollerChange p q) : ∃ c', c'.Reached ∧ Represents c' q := by
  cases hchange with
  | @set o fd old new hfd hold =>
      have hx : (Call.set ⟨o.ctlOk fd old new, o.tableOk, o.tableOk⟩ fd old new).WellTyped :=
        hfiled.isInt_of_watched hfd hold
      obtain ⟨c', hcall, h'⟩ := h.call hx
      refine ⟨c', hc.call hx hcall, ?_⟩
      rw [← croutinePollerSet_answers h.backend]
      exact h'
  | ready mask =>
      exact ⟨c, hc, h.backend, h.capacity, h.size, h.generation, h.flag, h.interest⟩

/-- **The words and arrays of the epoll poller refine its model.**  In every run of the runtime
there are tables, reached by calls none of which left an array, that represent its poller; and
from there any calls, with any answers and any reports of the kernel, stay within the arrays and
return what the model's poller returns. -/
theorem epoll_words_refine {s : Sys} (h : (runtime .epoll).Reach s) (hlife : s.life ≠ .down) :
    ∃ c : Table, c.Reached ∧ Represents c s.poller ∧
      ∀ l : List Call, (∀ x ∈ l, x.WellTyped) →
        ∃ c', c.calls l = .ok ((modelCalls s.poller l).1, c') ∧
          Represents c' (modelCalls s.poller l).2 := by
  obtain ⟨_, c, hc, hrep⟩ := poller_reach
    (I := fun p => pollerCalls.Reach p ∧ ∃ c : Table, c.Reached ∧ Represents c p)
    (fun wakeFd => ⟨.init ⟨wakeFd, rfl⟩, {}, .init, .initial wakeFd⟩)
    (fun _ _ hchange ⟨hreach, _, hc, hrep⟩ =>
      ⟨hchange.calls hreach, hrep.change (.reach hreach) hc hchange⟩) h hlife
  exact ⟨c, hc, hrep, fun l hl => hrep.calls l hl⟩

/-- The main task waits until it can read descriptor 5. -/
def waitsToRead : List Action := startUp 1 ++ dispatchOn 0 ++ [.waitIo 0 5 .read .calm]

/-- An event of descriptor 5, one with the token of an earlier generation of it, one with a
negative descriptor, and the wake event; then descriptor 5 is deleted. -/
def strayEvents : List Call :=
  [.wait (List.replicate MAX_POLLER_EVENTS ⟨0, 0⟩) [⟨EPOLLIN, 0x100000005⟩, ⟨EPOLLIN, 5⟩,
    ⟨EPOLLIN, 0x1ffffffff⟩, ⟨EPOLLIN, WAKE_TOKEN⟩],
  .set ⟨true, true, true⟩ 5 ⟨true, false⟩ .none]

theorem epoll_words_refine_stray :
    ∃ s, (runtime .epoll).Reach s ∧ s.life ≠ .down ∧ (∀ x ∈ strayEvents, x.WellTyped) ∧
      ∃ c c' : Table, c.Reached ∧ Represents c s.poller ∧
        c.calls strayEvents = .ok ([.wait [⟨5, CROUTINE_IO_EVENT_READ⟩], .set true], c') := by
  have hreach : (runtime .epoll).Reach ((runtime .epoll).after (small 1) waitsToRead) :=
    Machine.reach_after (small_init 1 (by decide)) (by decide +kernel)
  have hlife : ((runtime .epoll).after (small 1) waitsToRead).life ≠ .down := by decide +kernel
  have htyped : ∀ x ∈ strayEvents, x.WellTyped := by
    simp [strayEvents, Call.WellTyped, MAX_POLLER_EVENTS, isInt]
  have hresults : (modelCalls ((runtime .epoll).after (small 1) waitsToRead).poller
      strayEvents).1 = [.wait [⟨5, CROUTINE_IO_EVENT_READ⟩], .set true] := by decide +kernel
  obtain ⟨c, hc, hrep, hcalls⟩ := epoll_words_refine hreach hlife
  obtain ⟨c', hrun, _⟩ := hcalls strayEvents htyped
  rw [hresults] at hrun
  exact ⟨_, hreach, hlife, htyped, c, c', hc, hrep, hrun⟩

end Word

end Croutine
