import Croutine.Channel

/-!
# Select

`croutine_select`: the shuffled try order, the try phase, the registration of one
waiter per case, and the scrub after the task was resumed.  Indices are stored in
`uint32_t`, so the try order and the `case_index` of a waiter are reduced modulo
`2 ^ 32`, and the chosen index is an `int32_t`.
-/

namespace Croutine

/-- `select_rng_next`.  `seed` is the value a thread's generator starts from when
its state is zero. -/
def selectRngNext (seed st : UInt64) : UInt64 :=
  let st := if st = 0 then (if seed = 0 then 0x9E3779B97F4A7C15 else seed) else st
  let x := st ^^^ (st <<< 13)
  let x := x ^^^ (x >>> 7)
  x ^^^ (x <<< 17)

/-- `shuffle_indices`: the loop counts the positions still to be filled. -/
def shuffleIndices (seed : UInt64) : Nat → UInt64 → Array Nat → Array Nat
  | 0, _, idx => idx
  | i + 1, st, idx =>
    if i = 0 then idx
    else
      let x := selectRngNext seed st
      shuffleIndices seed i x (idx.swapIfInBounds i (x.toNat % (i + 1)))

/-- Choices of the environment in one evaluation: the thread's generator, and the
allocations of the try order and of the waiters beyond 32 cases. -/
structure SelectChoice where
  seed : UInt64
  rng : UInt64
  orderOk : Bool
  waitersOk : Bool

/-- The order in which the cases are tried. -/
def selectOrder (choice : SelectChoice) (n : Nat) : List Nat :=
  let source := (List.range n).map (· % 2 ^ 32)
  if n ≤ 32 || choice.orderOk then
    (shuffleIndices choice.seed n choice.rng source.toArray).toList
  else source

/-- `CROUTINE_SELECT_DEFAULT_INDEX`. -/
def selectDefaultIndex : Int := -1

/-- `try_select_case_locked`; the status of a case that fired. -/
def trySelectCaseLocked (o : Oracle) (s : Sys) (offer : WaiterId) (cs : SelectCase) :
    Res (Sys × Option SelectStatus) :=
  match cs.channel with
  | none => .ok (s, none)
  | some c =>
    match cs.op with
    | .send => do
      let (s, r) ← trySendLocked o s c offer cs.value
      match r with
      | .ok => return (s, some .sent)
      | .closed => return (s, some .closed)
      | .wouldBlock => return (s, none)
    | .recv => do
      let (s, r) ← tryRecvLocked o s c offer cs.value
      match r with
      | .value => return (s, some .value)
      | .closed => return (s, some .closed)
      | .empty => return (s, none)
    | .other => .ok (s, none)

/-- Phase A: try the cases in order until one fires. -/
def selectTryCases (o : Oracle) (call : CallId) (cases : List SelectCase) :
    List Nat → Sys → Res (Sys × Option (Nat × SelectStatus))
  | [], s => .ok (s, none)
  | index :: rest, s =>
    match cases[index]? with
    | none => selectTryCases o call cases rest s
    | some cs => do
      let (s, fired) ← trySelectCaseLocked o s ⟨call, index⟩ cs
      match fired with
      | some status => return (s, some (index, status))
      | none => selectTryCases o call cases rest s

/-- The waiter laid out for case `i`. -/
def selectWaiter (task : TaskId) (call : CallId) (i : Nat) (cs : SelectCase) : Waiter :=
  { kind := .select, op := cs.op, task := task, valueSlot := cs.value,
    state := some call, caseIndex := i % 2 ^ 32 }

/-- Phase B: lay out one waiter per case from index `i` on and link those that
have a channel. -/
def selectRegister (task : TaskId) (call : CallId) : Nat → List SelectCase → Chans → Chans
  | _, [], κ => κ
  | i, cs :: rest, κ =>
    let waiter := selectWaiter task call i cs
    let κ := match cs.channel with
      | none => { κ with waiter := Function.update κ.waiter ⟨call, i⟩ waiter }
      | some c => κ.park c ⟨call, i⟩ waiter
    selectRegister task call (i + 1) rest κ

/-- One round of the loop of `scrub_select_waiters`. -/
def scrubWaiter (call : CallId) (κ : Chans) (i : Nat) : Chans :=
  match (κ.waiter ⟨call, i⟩).channel with
  | none => κ
  | some c => κ.waitQueueUnlink c (κ.waiter ⟨call, i⟩).op.direction ⟨call, i⟩

def scrubSelectWaiters (call : CallId) (n : Nat) (κ : Chans) : Chans :=
  (List.range n).foldl (scrubWaiter call) κ

def croutineSelect (o : Oracle) (choice : SelectChoice) (s : Sys) (θ : Thread)
    (cases : List SelectCase) (hasDefault : Bool) : Res Sys := do
  let call := s.ch.clock
  let defaulted (s : Sys) : Sys :=
    s.mapCh (·.record (.selectReturned call cases selectDefaultIndex none))
  if cases.isEmpty then
    if hasDefault then return defaulted (s.mapCh Chans.tick)
    else .error (.abort "croutine_select: no cases and no default arm")
  else
    let (s, fired) ← selectTryCases o call cases (selectOrder choice cases.length)
      (s.mapCh Chans.tick)
    match fired, θ, s.currentTask θ with
    | some (index, status), _, _ =>
      return s.mapCh (·.record (.selectReturned call cases (toInt32 index) (some status)))
    | none, .worker w, some t =>
      if hasDefault || (cases.length > 32 && !choice.waitersOk) ||
          cases.all (fun cs => cs.channel.isNone) then
        return defaulted s
      else
        let s := s.mapCh fun κ => selectRegister t call 0 cases (κ.setSelect call {})
        return workerParkCurrentOnChannelLocked s w t (.select call cases)
    | none, _, _ => return defaulted s

/-- What `croutine_select` does after the park returned `success`. -/
def returnFromSelect (κ : Chans) (call : CallId) (cases : List SelectCase)
    (success : Bool) : Chans :=
  let κ := scrubSelectWaiters call cases.length κ
  let chosen := (κ.select call).chosenIndex
  if !success then
    κ.record (.selectReturned call cases selectDefaultIndex none)
  else if 0 ≤ chosen ∧ chosen < cases.length then
    κ.record (.selectReturned call cases chosen (some (κ.select call).chosenStatus))
  else κ.record (.selectReturned call cases chosen none)

end Croutine
