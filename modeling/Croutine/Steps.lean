import Croutine.ChannelSpec
import Croutine.Runtime

/-!
# What a step can do

`step_cases` inverts the step function once.  A step is a `ChanStep`, which works
on the channels and otherwise only wakes tasks or parks the calling one, or a
`SchedStep`, which leaves the channels alone and is labelled by its action.  Every
invariant below is proved by cases on these two relations.
-/

namespace Croutine

/-! ## Select -/

/-- The status a case reports for a send attempt, if it fired. -/
def sendStatus : SendResult → Option SelectStatus
  | .ok => some .sent
  | .closed => some .closed
  | .wouldBlock => none

/-- The status a case reports for a receive attempt, if it fired. -/
def recvStatus : RecvResult → Option SelectStatus
  | .value => some .value
  | .closed => some .closed
  | .empty => none

/-- A case without a channel or with no operation to try. -/
def SelectCase.Untried (cs : SelectCase) : Prop := cs.channel = none ∨ cs.op = .other

/-- The outcomes of `try_select_case_locked`. -/
inductive TryCase (o : Oracle) (s : Sys) (offer : WaiterId) (cs : SelectCase) :
    Sys → Option SelectStatus → Prop
  | untried (huntried : cs.Untried) : TryCase o s offer cs s none
  | send {c : ChanId} (hchan : cs.channel = some c) (hop : cs.op = .send) {s' : Sys}
      {r : SendResult} (h : TrySend o s c offer cs.value s' r) :
      TryCase o s offer cs s' (sendStatus r)
  | recv {c : ChanId} (hchan : cs.channel = some c) (hop : cs.op = .recv) {s' : Sys}
      {r : RecvResult} (h : TryRecv o s c offer cs.value s' r) :
      TryCase o s offer cs s' (recvStatus r)

theorem trySelectCaseLocked_ok {o : Oracle} {s s' : Sys} {offer : WaiterId}
    {cs : SelectCase} {fired : Option SelectStatus}
    (h : trySelectCaseLocked o s offer cs = .ok (s', fired)) :
    TryCase o s offer cs s' fired := by
  unfold trySelectCaseLocked at h
  split at h
  · next hchan =>
    obtain ⟨rfl, rfl⟩ := Prod.mk.inj (Except.ok.inj h)
    exact .untried (.inl hchan)
  · next c hchan =>
    split at h
    · next hop =>
      obtain ⟨⟨s1, r⟩, hs1, hret⟩ := Res.bind_ok.mp h
      have htry := trySendLocked_ok hs1
      cases r <;> obtain ⟨rfl, rfl⟩ := Prod.mk.inj (Res.pure_ok.mp hret)
      all_goals exact .send hchan hop htry
    · next hop =>
      obtain ⟨⟨s1, r⟩, hs1, hret⟩ := Res.bind_ok.mp h
      have htry := tryRecvLocked_ok hs1
      cases r <;> obtain ⟨rfl, rfl⟩ := Prod.mk.inj (Res.pure_ok.mp hret)
      all_goals exact .recv hchan hop htry
    · next hop =>
      obtain ⟨rfl, rfl⟩ := Prod.mk.inj (Except.ok.inj h)
      exact .untried (.inr hop)

/-- **Try rule.**  What every case that does not fire keeps, with the indices
still to be tried, holds when the phase ends without a firing; otherwise it held
before the case that fired. -/
theorem selectTryCases_induct {o : Oracle} {call : CallId} {cases : List SelectCase}
    {I : List Nat → Sys → Prop}
    (hskip : ∀ i rest s, I (i :: rest) s → cases[i]? = none → I rest s)
    (hblocked : ∀ i rest s s' cs, I (i :: rest) s → cases[i]? = some cs →
      TryCase o s ⟨call, i⟩ cs s' none → I rest s') :
    ∀ (order : List Nat) {s s' : Sys} {fired : Option (Nat × SelectStatus)}, I order s →
      selectTryCases o call cases order s = .ok (s', fired) →
      (fired = none ∧ I [] s') ∨
      ∃ i rest s0 cs status, fired = some (i, status) ∧ i ∈ order ∧ I (i :: rest) s0 ∧
        cases[i]? = some cs ∧ TryCase o s0 ⟨call, i⟩ cs s' (some status) := by
  intro order
  induction order with
  | nil =>
      intro s s' fired hI h
      obtain ⟨rfl, rfl⟩ := Prod.mk.inj (Except.ok.inj h)
      exact .inl ⟨rfl, hI⟩
  | cons i rest ih =>
      intro s s' fired hI h
      -- a later firing is at an index of the whole order too
      have lift : ∀ {s1 : Sys}, I rest s1 →
          selectTryCases o call cases rest s1 = .ok (s', fired) →
          (fired = none ∧ I [] s') ∨
          ∃ j rest' s0 cs status, fired = some (j, status) ∧ j ∈ i :: rest ∧
            I (j :: rest') s0 ∧ cases[j]? = some cs ∧
            TryCase o s0 ⟨call, j⟩ cs s' (some status) := by
        intro s1 hI1 h1
        rcases ih hI1 h1 with hnone | ⟨j, rest', s0, cs, status, hf, hj, hrest⟩
        · exact .inl hnone
        · exact .inr ⟨j, rest', s0, cs, status, hf, List.mem_cons_of_mem _ hj, hrest⟩
      rw [selectTryCases] at h
      split at h
      · next hcase => exact lift (hskip i rest s hI hcase) h
      · next cs hcase =>
        obtain ⟨⟨s1, fired1⟩, hs1, hrest⟩ := Res.bind_ok.mp h
        have htry := trySelectCaseLocked_ok hs1
        cases fired1 with
        | none => exact lift (hblocked i rest s s1 cs hI hcase htry) hrest
        | some status =>
            obtain ⟨rfl, rfl⟩ := Prod.mk.inj (Res.pure_ok.mp hrest)
            exact .inr ⟨i, rest, s, cs, status, rfl, List.mem_cons_self, hI, hcase, htry⟩

theorem TryCase.wakes {o : Oracle} {s s' : Sys} {offer : WaiterId} {cs : SelectCase}
    {fired : Option SelectStatus} (h : TryCase o s offer cs s' fired) : Wakes s s' := by
  cases h with
  | untried huntried => exact .refl
  | send hchan hop h => exact h.wakes
  | recv hchan hop h => exact h.wakes

/-- Seen from the scheduler the try phase of a select is a sequence of wakes. -/
theorem selectTryCases_wakes {o : Oracle} {call : CallId} {cases : List SelectCase}
    {order : List Nat} {s s' : Sys} {fired : Option (Nat × SelectStatus)}
    (h : selectTryCases o call cases order s = .ok (s', fired)) : Wakes s s' := by
  rcases selectTryCases_induct (I := fun _ x => Wakes s x) (fun _ _ _ hI _ => hI)
      (fun _ _ _ _ _ hI _ htry => hI.trans htry.wakes) order .refl h with
    ⟨_, hI⟩ | ⟨_, _, _, _, _, _, _, hI, _, htry⟩
  · exact hI
  · exact hI.trans htry.wakes

/-- The try phase leaves every channel alone that no case names. -/
theorem selectTryCases_chan {o : Oracle} {call : CallId} {cases : List SelectCase}
    {order : List Nat} {s s' : Sys} {fired : Option (Nat × SelectStatus)} {c : ChanId}
    (hc : ∀ cs ∈ cases, cs.channel ≠ some c)
    (h : selectTryCases o call cases order s = .ok (s', fired)) : s'.ch.chan c = s.ch.chan c := by
  have hcase : ∀ {i : Nat} {cs : SelectCase} {x x' : Sys} {r : Option SelectStatus},
      cases[i]? = some cs → TryCase o x ⟨call, i⟩ cs x' r → x'.ch.chan c = x.ch.chan c := by
    intro i cs x x' r hget htry
    have hne := hc cs (List.mem_of_getElem? hget)
    cases htry with
    | untried huntried => rfl
    | send hchan hop h => exact h.onlyAt c fun heq => hne (heq ▸ hchan)
    | recv hchan hop h => exact h.onlyAt c fun heq => hne (heq ▸ hchan)
  rcases selectTryCases_induct (I := fun _ x => x.ch.chan c = s.ch.chan c) (fun _ _ _ hI _ => hI)
      (fun _ _ _ _ _ hI hget htry => (hcase hget htry).trans hI) order rfl h with
    ⟨_, hI⟩ | ⟨_, _, _, _, _, _, _, hI, hget, htry⟩
  · exact hI
  · exact (hcase hget htry).trans hI

/-! ## Threads -/

/-- A worker that may call the API runs a task outside any blocking call. -/
theorem Sys.canAct_worker {s : Sys} {w : WorkerId} (h : s.canAct (.worker w) = true) :
    ∃ t, s.wk.pc w = .running t ∧ (s.tasks t).frame = .user := by
  simp only [Sys.canAct, Bool.and_eq_true] at h
  have hpc := h.2
  split at hpc
  · next t heq => exact ⟨t, heq, by simpa using hpc⟩
  · exact absurd hpc (by simp)

theorem Sys.canAct_spawns {s : Sys} {θ : Thread} (h : s.canAct θ = true) (t : TaskId) :
    (θ, t) ∉ s.spawns := by
  simp only [Sys.canAct, Bool.and_eq_true, Bool.not_eq_true', List.any_eq_false] at h
  intro hmem
  exact h.1.2 _ hmem (by simp)

theorem Sys.currentTask_some {s : Sys} {w : WorkerId} {t : TaskId}
    (h : s.currentTask (.worker w) = some t) : s.wk.pc w = .running t := by
  unfold Sys.currentTask at h
  simp only at h
  split at h
  · next heq => cases h; exact heq
  · exact absurd h (by simp)

/-! ## Steps on the channels -/

/-- How the thread that requests shutdown moves the lifecycle: not at all, as the
failure path of `croutine_runtime_run`, or as `croutine_runtime_shutdown`. -/
inductive ShutdownMove (s : Sys) : Lifecycle → Prop
  | request (h : s.initialized = true) : ShutdownMove s s.life
  | allocFailed (h : s.life = .creating 0) : ShutdownMove s .ranOut
  | createFailed {k : Nat} (h : s.life = .creating k) : ShutdownMove s .joining
  | shutdownCall (h : s.life = .inited ∨ s.life = .ranOut) : ShutdownMove s .shutJoin

/-- The state in which a channel call makes its attempt. -/
def Sys.ticked (s : Sys) : Sys := { s with ch := s.ch.tick }

/-- The steps that contain a call of `worker_request_shutdown`. -/
def Action.requestsShutdown : Action → Bool
  | .requestShutdown _ _ | .workersAllocFail _ | .createWorkerFail _ | .shutdownCall _ => true
  | _ => false

/-- Steps that work on the channels; `P` restricts the case lists of selects. -/
inductive ChanStep (P : List SelectCase → Prop) (s : Sys) : Action → Sys → Prop
  | userWrite {θ : Thread} (a : Addr) (bs : Bytes) :
      ChanStep P s (.userWrite θ a bs) { s with ch := s.ch.copyValue a bs }
  | create (hlock : s.wk.lock = none) {θ : Thread} (elemSize capacity : Nat) (allocOk : Bool) :
      ChanStep P s (.channelCreate θ elemSize capacity allocOk)
        { s with ch := croutineChannelCreate s.ch elemSize capacity allocOk }
  | destroy (hlock : s.wk.lock = none) {θ : Thread} {c : ChanId} (hc : c ∈ s.ch.registry) :
      ChanStep P s (.channelDestroy θ c) { s with ch := croutineChannelDestroy s.ch c }
  | trySend (hlock : s.wk.lock = none) {θ : Thread} {o : Oracle} {c : ChanId} {value : Addr}
      {s1 : Sys} {r : SendResult} (hc : c ∈ s.ch.registry)
      (h : TrySend o s.ticked c ⟨s.ch.clock, 0⟩ value s1 r) :
      ChanStep P s (.channelTrySend θ c value o) s1
  /-- A call from outside a task reports a full channel as closed. -/
  | sendReturn (hlock : s.wk.lock = none) {θ : Thread} {o : Oracle} {c : ChanId} {value : Addr}
      {s1 : Sys} {r : SendResult} (hc : c ∈ s.ch.registry)
      (h : TrySend o s.ticked c ⟨s.ch.clock, 0⟩ value s1 r)
      (htask : ∀ w, θ = .worker w → r ≠ .wouldBlock) :
      ChanStep P s (.channelSend θ c value o) { s1 with
        ch := s1.ch.record (.sendReturned s.ch.clock c (if r = .ok then .ok else .closed)) }
  | sendPark (hlock : s.wk.lock = none) {o : Oracle} {c : ChanId} {value : Addr} {s1 : Sys}
      {w : WorkerId} {t : TaskId} (hc : c ∈ s.ch.registry)
      (h : TrySend o s.ticked c ⟨s.ch.clock, 0⟩ value s1 .wouldBlock)
      (hpc : s.wk.pc w = .running t) (hframe : (s.tasks t).frame = .user) :
      ChanStep P s (.channelSend (.worker w) c value o)
        (parkOnChannel s1 w t .send s.ch.clock c value)
  | tryRecv (hlock : s.wk.lock = none) {θ : Thread} {o : Oracle} {c : ChanId} {out : Addr}
      {s1 : Sys} {r : RecvResult} (hc : c ∈ s.ch.registry)
      (h : TryRecv o s.ticked c ⟨s.ch.clock, 0⟩ out s1 r) :
      ChanStep P s (.channelTryRecv θ c out o) s1
  | recvReturn (hlock : s.wk.lock = none) {θ : Thread} {o : Oracle} {c : ChanId} {out : Addr}
      {s1 : Sys} {r : RecvResult} (hc : c ∈ s.ch.registry)
      (h : TryRecv o s.ticked c ⟨s.ch.clock, 0⟩ out s1 r)
      (htask : ∀ w, θ = .worker w → r ≠ .empty) :
      ChanStep P s (.channelRecv θ c out o)
        { s1 with ch := s1.ch.record (.recvReturned s.ch.clock c r) }
  | recvPark (hlock : s.wk.lock = none) {o : Oracle} {c : ChanId} {out : Addr} {s1 : Sys}
      {w : WorkerId} {t : TaskId} (hc : c ∈ s.ch.registry)
      (h : TryRecv o s.ticked c ⟨s.ch.clock, 0⟩ out s1 .empty)
      (hpc : s.wk.pc w = .running t) (hframe : (s.tasks t).frame = .user) :
      ChanStep P s (.channelRecv (.worker w) c out o)
        (parkOnChannel s1 w t .recv s.ch.clock c out)
  | close (hlock : s.wk.lock = none) {θ : Thread} {o : Oracle} {c : ChanId} {s1 : Sys}
      (hc : c ∈ s.ch.registry) (h : channelCloseLocked o s c = .ok s1) :
      ChanStep P s (.channelClose θ c o) s1
  | shutdown (hlock : s.wk.lock = none) {a : Action} (ha : a.requestsShutdown = true)
      {o : Oracle} {θ : Thread} {s1 : Sys} {life : Lifecycle} (hlife : ShutdownMove s life)
      (h : croutineChannelShutdownAllLocked o { s with shutdownRequested := true } = .ok s1) :
      ChanStep P s a { s1 with
        wk := s1.wk.condBroadcast.owe θ, mainFinished := true, life := life }
  | selectEmpty (hlock : s.wk.lock = none) {θ : Thread} {hasDefault : Bool}
      {choice : SelectChoice} {o : Oracle} :
      ChanStep P s (.select θ [] hasDefault choice o) { s with
        ch := s.ch.tick.record (.selectReturned s.ch.clock [] selectDefaultIndex none) }
  | selectFired (hlock : s.wk.lock = none) {θ : Thread} {hasDefault : Bool} {o : Oracle}
      {choice : SelectChoice} {cases : List SelectCase} {s1 : Sys} {i : Nat}
      {status : SelectStatus} (hP : P cases)
      (hreg : ∀ cs ∈ cases, ∀ c, cs.channel = some c → c ∈ s.ch.registry)
      (h : selectTryCases o s.ch.clock cases (selectOrder choice cases.length) s.ticked =
        .ok (s1, some (i, status))) :
      ChanStep P s (.select θ cases hasDefault choice o) { s1 with
        ch := s1.ch.record (.selectReturned s.ch.clock cases (toInt32 i) (some status)) }
  /-- The default arm, a call from outside a task, a failed allocation, or no channel. -/
  | selectDefault (hlock : s.wk.lock = none) {θ : Thread} {hasDefault : Bool} {o : Oracle}
      {choice : SelectChoice} {cases : List SelectCase} {s1 : Sys} (hP : P cases)
      (hreg : ∀ cs ∈ cases, ∀ c, cs.channel = some c → c ∈ s.ch.registry)
      (h : selectTryCases o s.ch.clock cases (selectOrder choice cases.length) s.ticked =
        .ok (s1, none))
      (hwhy : ∀ w, θ = .worker w → hasDefault = true ∨
        (32 < cases.length ∧ choice.waitersOk = false) ∨ ∀ cs ∈ cases, cs.channel = none) :
      ChanStep P s (.select θ cases hasDefault choice o) { s1 with
        ch := s1.ch.record (.selectReturned s.ch.clock cases selectDefaultIndex none) }
  | selectPark (hlock : s.wk.lock = none) {hasDefault : Bool} {o : Oracle}
      {choice : SelectChoice} {cases : List SelectCase} {s1 : Sys} {w : WorkerId} {t : TaskId}
      (hP : P cases)
      (hreg : ∀ cs ∈ cases, ∀ c, cs.channel = some c → c ∈ s.ch.registry)
      (h : selectTryCases o s.ch.clock cases (selectOrder choice cases.length) s.ticked =
        .ok (s1, none))
      (hsome : ∃ cs ∈ cases, cs.channel.isSome)
      (hpc : s1.wk.pc w = .running t) (hact : s.canAct (.worker w) = true) :
      ChanStep P s (.select (.worker w) cases hasDefault choice o)
        (workerParkCurrentOnChannelLocked
          { s1 with
            ch := selectRegister t s.ch.clock 0 cases (s1.ch.setSelect s.ch.clock {}) }
          w t (.select s.ch.clock cases))
  | returnSingle {w : WorkerId} {t : TaskId} {op : Direction} {call : CallId} {c : ChanId}
      {parked : Bool} (hpc : s.wk.pc w = .running t)
      (hframe : (s.tasks t).frame = .single op call c parked)
      (hlock : (parked && (s.tasks t).channelWakeSuccess) = true ∨ s.wk.lock = none) :
      ChanStep P s (.callReturn w) { s.setTask t { s.tasks t with frame := .user } with
        ch := returnFromSingle s.ch op call c (parked && (s.tasks t).channelWakeSuccess) }
  | returnSelect {w : WorkerId} {t : TaskId} {call : CallId} {cases : List SelectCase}
      {parked : Bool} (hpc : s.wk.pc w = .running t)
      (hframe : (s.tasks t).frame = .select call cases parked)
      (hlock : s.wk.lock = none) :
      ChanStep P s (.callReturn w) { s.setTask t { s.tasks t with frame := .user } with
        ch := returnFromSelect s.ch call cases (parked && (s.tasks t).channelWakeSuccess) }

/-- A channel step as the scheduler sees it. -/
inductive ChanView (s : Sys) : Sys → Prop
  | memory (κ : Chans) : ChanView s { s with ch := κ }
  | wakes (hlock : s.wk.lock = none) {s' : Sys} (h : Wakes s s') : ChanView s s'
  | park (hlock : s.wk.lock = none) {s1 : Sys} (h : Wakes s s1) {w : WorkerId} {t : TaskId}
      (hpc : s.wk.pc w = .running t) (hframe : (s.tasks t).frame = .user)
      (frame : Bool → Frame) : ChanView s (workerParkCurrentOnChannelLocked s1 w t frame)
  | shutdown (hlock : s.wk.lock = none) {o : Oracle} {θ : Thread} {s1 : Sys}
      {life : Lifecycle} (hlife : ShutdownMove s life)
      (h : croutineChannelShutdownAllLocked o { s with shutdownRequested := true } = .ok s1) :
      ChanView s { s1 with
        wk := s1.wk.condBroadcast.owe θ, mainFinished := true, life := life }
  | returned {w : WorkerId} {t : TaskId} (hpc : s.wk.pc w = .running t) (κ : Chans) :
      ChanView s { s.setTask t { s.tasks t with frame := .user } with ch := κ }

theorem Sys.wakes_ticked (s : Sys) : Wakes s s.ticked := .chans s _

/-- The task on whose worker the wakes of a select's try phase happened. -/
theorem Sys.canAct_running {s s1 : Sys} {w : WorkerId} {t : TaskId}
    (hact : s.canAct (.worker w) = true) (hwakes : Wakes s s1) (hpc : s1.wk.pc w = .running t) :
    s.wk.pc w = .running t ∧ (s.tasks t).frame = .user := by
  obtain ⟨t', hpc', hframe⟩ := Sys.canAct_worker hact
  have ht : t = t' := by
    have heq := hwakes.signals.fixed (w := w) (by rw [hpc']; rfl)
    rw [hpc, hpc'] at heq
    exact Pc.running.inj heq
  subst ht
  exact ⟨hpc', hframe⟩

theorem ChanStep.view {P : List SelectCase → Prop} {s s' : Sys} {a : Action}
    (h : ChanStep P s a s') : ChanView s s' := by
  cases h with
  | userWrite a bs => exact .memory _
  | create hlock => exact .memory _
  | destroy hlock hc => exact .memory _
  | trySend hlock hc h => exact .wakes hlock (s.wakes_ticked.trans h.wakes)
  | sendReturn hlock hc h htask =>
      exact .wakes hlock (Wakes.thenChans (s.wakes_ticked.trans h.wakes) _)
  | sendPark hlock hc h hpc hframe =>
      exact .park hlock (Wakes.thenChans (s.wakes_ticked.trans h.wakes) _) hpc hframe _
  | tryRecv hlock hc h => exact .wakes hlock (s.wakes_ticked.trans h.wakes)
  | recvReturn hlock hc h htask =>
      exact .wakes hlock (Wakes.thenChans (s.wakes_ticked.trans h.wakes) _)
  | recvPark hlock hc h hpc hframe =>
      exact .park hlock (Wakes.thenChans (s.wakes_ticked.trans h.wakes) _) hpc hframe _
  | close hlock hc h => exact .wakes hlock (channelCloseLocked_wakes h)
  | shutdown hlock ha hlife h => exact .shutdown hlock hlife h
  | selectEmpty hlock => exact .memory _
  | selectFired hlock hP hreg h | selectDefault hlock hP hreg h hwhy =>
      exact .wakes hlock (Wakes.thenChans (s.wakes_ticked.trans (selectTryCases_wakes h)) _)
  | @selectPark hlock hasDefault o choice cases s1 w t hP hreg h hsome hpc hact =>
      have hwakes : Wakes s s1 := s.wakes_ticked.trans (selectTryCases_wakes h)
      obtain ⟨hpc', hframe⟩ := Sys.canAct_running hact hwakes hpc
      exact .park hlock (hwakes.thenChans _) hpc' hframe _
  | returnSingle hpc hframe hlock => exact .returned hpc _
  | returnSelect hpc hframe hlock => exact .returned hpc _

/-! ## Steps that leave the channels alone -/

inductive SchedStep (s : Sys) : Action → Sys → Prop
  | spawnAlloc {θ : Thread} {r : SpawnRequest} (hspawn : canSpawn s θ r.isMain = true)
      (hlife : s.life ≠ .down) : SchedStep s (.spawnAlloc θ r) (workerSpawnAlloc s θ r)
  | spawnPublish (hlock : s.wk.lock = none) {o : Oracle} {θ : Thread} {t : TaskId}
      (hmem : (θ, t) ∈ s.spawns) : SchedStep s (.spawnPublish θ t o) (workerSpawnPublish o s θ t)
  | forgetFd (hlock : s.wk.lock = none) {o : Oracle} {θ : Thread} {fd : Int} {s1 : Sys}
      (hint : isInt fd = true) (h : workerForgetFd o s θ fd = .ok s1) :
      SchedStep s (.forgetFd θ fd o) s1
  | pollerWake {θ : Thread} (hmem : θ ∈ s.wk.owes) :
      SchedStep s (.pollerWake θ) (s.mapWk fun wk => { wk.pollerWake with owes := wk.owes.erase θ })
  | waitIo (hlock : s.wk.lock = none) {o : Oracle} {w : WorkerId} {t : TaskId} {fd : Int}
      {direction : Filter} (hint : isInt fd = true) (hpc : s.wk.pc w = .running t)
      (hframe : (s.tasks t).frame = .user) :
      SchedStep s (.waitIo w fd direction o)
        (workerParkCurrentOnIo o s w t fd (IoEvents.none.put direction true))
  | yield {w : WorkerId} {t : TaskId} (hpc : s.wk.pc w = .running t)
      (hframe : (s.tasks t).frame = .user) :
      SchedStep s (.yield w) (s.setPc w (.switching t .runnable))
  | returnIo {w : WorkerId} {t : TaskId} (hpc : s.wk.pc w = .running t)
      (hframe : (s.tasks t).frame = .ioWait) :
      SchedStep s (.callReturn w) (s.setTask t { s.tasks t with frame := .user })
  | taskReturn {w : WorkerId} {t : TaskId} (hpc : s.wk.pc w = .running t)
      (hframe : (s.tasks t).frame = .user) : SchedStep s (.taskReturn w) (taskReturn s w t)
  | finishMain {w : WorkerId} {t : TaskId} (hpc : s.wk.pc w = .finishMain t) :
      SchedStep s (.finishMain w) ({ s with mainFinished := true }.setPc w (.finishSched t))
  | finishSched (hlock : s.wk.lock = none) {w : WorkerId} {t : TaskId}
      (hpc : s.wk.pc w = .finishSched t) :
      SchedStep s (.finishSched w) ({ s with schedulerMainFinished := true }.mapWk fun wk =>
        (wk.condBroadcast.setPc w (.switching t .finished)).owe (.worker w))
  | switchOut {w : WorkerId} {t : TaskId} {st : TaskState}
      (hpc : s.wk.pc w = .switching t st) :
      SchedStep s (.switchOut w) ((s.setTask t { s.tasks t with contextSaved := true }).setPc w
        (if st.waiting then .returned t st else .reread t st))
  | release {w : WorkerId} {t : TaskId} {st : TaskState} (hpc : s.wk.pc w = .returned t st) :
      SchedStep s (.release w) (s.mapWk fun wk => { wk.setPc w (.reread t st) with lock := none })
  | reread (hlock : s.wk.lock = none) {w : WorkerId} {t : TaskId} {st : TaskState}
      (hpc : s.wk.pc w = .reread t st) :
      SchedStep s (.rereadShutdown w) (s.setPc w (afterReread s t st))
  | requeue (hlock : s.wk.lock = none) {o : Oracle} {w : WorkerId} {t : TaskId} {s1 : Sys}
      (hpc : s.wk.pc w = .requeue t) (h : requeueTask o w t s = .ok s1) :
      SchedStep s (.requeue w o) s1
  | cleanup {w : WorkerId} {t : TaskId} (hpc : s.wk.pc w = .cleanup t) :
      SchedStep s (.cleanup w) ((cleanupTask s t).setPc w (.top false))
  | loop (hlock : s.wk.lock = none) {w : WorkerId} {checked : Bool}
      (hpc : s.wk.pc w = .top checked) : SchedStep s (.loop w) (loopBody w checked s)
  | condReturn (hlock : s.wk.lock = none) {w : WorkerId} {signalled checked : Bool}
      (hpc : s.wk.pc w = .condWait signalled checked) :
      SchedStep s (.condReturn w) (leaveCondWait w checked s)
  | kernelReturn {w : WorkerId} {timeout : Timeout} {batch : List Reported}
      {raw : List RawEvent} (hpc : s.wk.pc w = .polling timeout)
      (hbatch : kernelBatch s timeout batch = some raw) :
      SchedStep s (.kernelReturn w batch) (s.setPc w (.polled raw))
  | kernelError {w : WorkerId} {timeout : Timeout} (hpc : s.wk.pc w = .polling timeout) :
      SchedStep s (.kernelError w) (s.setPc w .pollError)
  | filterBatch {w : WorkerId} {raw : List RawEvent} (hpc : s.wk.pc w = .polled raw) :
      SchedStep s (.filterBatch w) (s.mapWk fun wk =>
        { wk.setPc w (.filtered (pollerTranslate s.poller [] raw)) with
          wakePending := wk.wakePending && !raw.any s.poller.isWake })
  | pollReturn (hlock : s.wk.lock = none) {o : Oracle} {w : WorkerId}
      {events : List PollEvent} {s1 : Sys} (hpc : s.wk.pc w = .filtered events)
      (h : leavePoll o w events s = .ok s1) : SchedStep s (.pollReturn w o) s1
  | pollFailed (hlock : s.wk.lock = none) {o : Oracle} {w : WorkerId} {s1 : Sys}
      (hpc : s.wk.pc w = .pollError) (h : leavePollError w s = .ok s1) :
      SchedStep s (.pollReturn w o) s1
  | resume {w : WorkerId} {t : TaskId} (hpc : s.wk.pc w = .dispatched t) :
      SchedStep s (.resume w) ((s.setTask t { s.tasks t with contextSaved := false }).setPc w
        (.running t))
  | setReady (fd : Int) (mask : EpollMask) :
      SchedStep s (.setReady fd mask)
        { s with poller := { s.poller with ready := Function.update s.poller.ready fd mask } }
  | runtimeInit (hlock : s.wk.lock = none) (hlife : s.life = .preInit) :
      SchedStep s .runtimeInit { s with
        shutdownRequested := false, schedulerMainFinished := false, mainFinished := false
        mainSpawned := false, life := .inited
        wk := { s.wk with pollerWaiterActive := false } }
  | runCall (hlife : s.life = .inited) : SchedStep s .runCall { s with life := .runSpawn }
  | createWorker {k : Nat} (hlife : s.life = .creating k) (hk : k < s.wk.count)
      (howes : Thread.runtime ∉ s.wk.owes) :
      SchedStep s .createWorker { s.setPc k (.top false) with life := .creating (k + 1) }
  | waitForMain (hlife : s.life = .creating s.wk.count) :
      SchedStep s .waitForMain { s with life := .joining }
  | joinWorkers (hlife : s.life = .joining)
      (hall : ∀ w < s.wk.count, s.wk.pc w = .exited ∨ s.wk.pc w = .notStarted) :
      SchedStep s .joinWorkers { s with life := .ranOut }
  | deinitDrain (hlock : s.wk.lock = none) (hlife : s.life = .shutJoin) :
      SchedStep s .deinitDrain { workerDeinitDrain s with life := .drained }
  | deinitClose (hlife : s.life = .drained) : SchedStep s .deinitClose (workerDeinitClose s)

/-! ## The inversion -/

theorem Sys.lockFree_iff {s : Sys} : s.lockFree = true ↔ s.wk.lock = none := by
  simp [Sys.lockFree]

/-- A blocked attempt leaves the workers as they were. -/
theorem TrySend.blocked_wk {o : Oracle} {s s' : Sys} {c : ChanId} {offer : WaiterId}
    {value : Addr} (h : TrySend o s c offer value s' .wouldBlock) : s'.wk = s.wk := by
  cases h
  rfl

theorem TryRecv.blocked_wk {o : Oracle} {s s' : Sys} {c : ChanId} {offer : WaiterId}
    {out : Addr} (h : TryRecv o s c offer out s' .empty) : s'.wk = s.wk := by
  cases h
  rfl

variable {P : List SelectCase → Prop} {o : Oracle} {s s' : Sys} {θ : Thread} {c : ChanId}

/-- A worker that may call the API is in its task. -/
theorem Sys.currentTask_worker {w : WorkerId} {t : TaskId} (h : s.wk.pc w = .running t) :
    s.currentTask (.worker w) = some t := by
  simp only [Sys.currentTask, h]

theorem croutineChannelSend_ok {value : Addr} (hlock : s.wk.lock = none)
    (hc : c ∈ s.ch.registry) (hact : s.canAct θ = true)
    (h : croutineChannelSend o s θ c value = .ok s') :
    ChanStep P s (.channelSend θ c value o) s' := by
  obtain ⟨⟨s1, r⟩, hs1, hrest⟩ := Res.bind_ok.mp h
  have htry : TrySend o s.ticked c ⟨s.ch.clock, 0⟩ value s1 r := trySendLocked_ok hs1
  cases r with
  | ok =>
      cases Res.pure_ok.mp hrest
      exact .sendReturn hlock hc htry (by simp)
  | closed =>
      cases Res.pure_ok.mp hrest
      exact .sendReturn hlock hc htry (by simp)
  | wouldBlock =>
      cases θ with
      | worker w =>
          obtain ⟨t, hpc, hframe⟩ := Sys.canAct_worker hact
          have hcur : s1.currentTask (.worker w) = some t :=
            Sys.currentTask_worker (by rw [htry.blocked_wk]; exact hpc)
          dsimp only at hrest
          rw [hcur] at hrest
          cases Res.pure_ok.mp hrest
          exact .sendPark hlock hc htry hpc hframe
      | runtime | external e =>
          cases Res.pure_ok.mp hrest
          exact .sendReturn hlock hc htry (by simp)

theorem croutineChannelRecv_ok {out : Addr} (hlock : s.wk.lock = none)
    (hc : c ∈ s.ch.registry) (hact : s.canAct θ = true)
    (h : croutineChannelRecv o s θ c out = .ok s') :
    ChanStep P s (.channelRecv θ c out o) s' := by
  obtain ⟨⟨s1, r⟩, hs1, hrest⟩ := Res.bind_ok.mp h
  have htry : TryRecv o s.ticked c ⟨s.ch.clock, 0⟩ out s1 r := tryRecvLocked_ok hs1
  cases r with
  | value =>
      cases Res.pure_ok.mp hrest
      exact .recvReturn hlock hc htry (by simp)
  | closed =>
      cases Res.pure_ok.mp hrest
      exact .recvReturn hlock hc htry (by simp)
  | empty =>
      cases θ with
      | worker w =>
          obtain ⟨t, hpc, hframe⟩ := Sys.canAct_worker hact
          have hcur : s1.currentTask (.worker w) = some t :=
            Sys.currentTask_worker (by rw [htry.blocked_wk]; exact hpc)
          dsimp only at hrest
          rw [hcur] at hrest
          cases Res.pure_ok.mp hrest
          exact .recvPark hlock hc htry hpc hframe
      | runtime | external e =>
          cases Res.pure_ok.mp hrest
          exact .recvReturn hlock hc htry (by simp)

theorem croutineSelect_ok {choice : SelectChoice} {cases : List SelectCase}
    {hasDefault : Bool} (hP : P cases) (hlock : s.wk.lock = none)
    (hreg : ∀ cs ∈ cases, ∀ c, cs.channel = some c → c ∈ s.ch.registry)
    (hact : s.canAct θ = true)
    (h : croutineSelect o choice s θ cases hasDefault = .ok s') :
    ChanStep P s (.select θ cases hasDefault choice o) s' := by
  unfold croutineSelect at h
  dsimp only at h
  split at h
  · next hempty =>
    split at h
    · cases Res.pure_ok.mp h
      rw [List.isEmpty_iff] at hempty
      subst hempty
      exact .selectEmpty hlock
    · exact absurd h (by simp)
  · obtain ⟨⟨s1, fired⟩, hs1, hrest⟩ := Res.bind_ok.mp h
    dsimp only at hrest
    split at hrest
    · cases Res.pure_ok.mp hrest
      exact .selectFired hlock hP hreg hs1
    · next w t hcur =>
      split at hrest
      · next hdefault =>
        cases Res.pure_ok.mp hrest
        refine .selectDefault hlock hP hreg hs1 fun _ _ => ?_
        simpa [or_assoc] using hdefault
      · next hpark =>
        cases Res.pure_ok.mp hrest
        refine .selectPark hlock hP hreg hs1 ?_ (Sys.currentTask_some hcur) hact
        simp only [Bool.or_eq_true, not_or, List.all_eq_true, not_forall] at hpark
        obtain ⟨cs, hcs, hsome⟩ := hpark.2
        exact ⟨cs, hcs, by cases hch : cs.channel <;> simp_all⟩
    · next hcur =>
      cases Res.pure_ok.mp hrest
      refine .selectDefault hlock hP hreg hs1 fun w hw => ?_
      -- a worker that calls the API has a current task
      subst hw
      obtain ⟨t, hpc, _⟩ := Sys.canAct_worker hact
      have hwakes : Wakes s s1 := s.wakes_ticked.trans (selectTryCases_wakes hs1)
      have hpc1 : s1.wk.pc w = .running t := by
        rw [hwakes.signals.fixed (by rw [hpc]; rfl)]
        exact hpc
      exact (hcur w t rfl (Sys.currentTask_worker hpc1)).elim

theorem workerRequestShutdown_ok {s1 : Sys} {life : Lifecycle} {a : Action}
    (hlock : s.wk.lock = none) (ha : a.requestsShutdown = true) (hlife : ShutdownMove s life)
    (h : workerRequestShutdown o s θ = .ok s1) : ChanStep P s a { s1 with life := life } := by
  obtain ⟨s2, hs2, hret⟩ := Res.bind_ok.mp h
  cases Res.pure_ok.mp hret
  exact .shutdown hlock ha hlife hs2

/-- The tail of a blocking call. -/
theorem callReturn_ok {w : WorkerId} {t : TaskId} (hpc : s.wk.pc w = .running t)
    (h : callReturn s t = .ok s') :
    ChanStep P s (.callReturn w) s' ∨ SchedStep s (.callReturn w) s' := by
  unfold callReturn at h
  dsimp only at h
  split at h
  · exact absurd h (by simp)
  · next hframe =>
    cases h
    exact .inr (.returnIo hpc hframe)
  · next op call c parked hframe =>
    obtain ⟨_, hg, hret⟩ := Res.bind_ok.mp h
    cases Res.pure_ok.mp hret
    simp only [Res.require_ok, Bool.or_eq_true, Sys.lockFree_iff] at hg
    exact .inl (.returnSingle hpc hframe hg)
  · next call cases parked hframe =>
    obtain ⟨_, hg, hret⟩ := Res.bind_ok.mp h
    cases Res.pure_ok.mp hret
    simp only [Res.require_ok, Sys.lockFree_iff] at hg
    exact .inl (.returnSelect hpc hframe hg)

/-- `croutine_runtime_request_shutdown` leaves the lifecycle as it is. -/
theorem requestShutdown_ok (hlock : s.wk.lock = none) (hinit : s.initialized = true)
    (h : workerRequestShutdown o s θ = .ok s') : ChanStep P s (.requestShutdown θ o) s' := by
  have hstep := workerRequestShutdown_ok (P := P) (a := .requestShutdown θ o) hlock rfl
    (.request hinit) h
  obtain ⟨s2, hs2, hret⟩ := Res.bind_ok.mp h
  cases Res.pure_ok.mp hret
  have hlife : s2.life = s.life := (croutineChannelShutdownAllLocked_wakes hs2).sameCore.life
  simpa [← hlife] using hstep

/-! ### Calls of the API -/

/-- A channel is created with the lock free. -/
theorem step_channelCreate_ok {elemSize capacity : Nat} {allocOk : Bool}
    (h : step s (.channelCreate θ elemSize capacity allocOk) = .ok s') :
    ChanStep P s (.channelCreate θ elemSize capacity allocOk) s' := by
  obtain ⟨_, hg, hret⟩ := Res.bind_ok.mp h
  cases Res.pure_ok.mp hret
  simp only [Res.require_ok, Bool.and_eq_true, Sys.lockFree_iff] at hg
  exact .create hg.2 elemSize capacity allocOk

/-- Only a channel of the registry is destroyed. -/
theorem step_channelDestroy_ok (h : step s (.channelDestroy θ c) = .ok s') :
    ChanStep P s (.channelDestroy θ c) s' := by
  obtain ⟨_, hg, hret⟩ := Res.bind_ok.mp h
  cases Res.pure_ok.mp hret
  simp only [Res.require_ok, Bool.and_eq_true, Sys.lockFree_iff, List.contains_iff_mem] at hg
  exact .destroy hg.1.2 hg.2

/-- `croutine_channel_send` returns or parks the caller. -/
theorem step_channelSend_ok {value : Addr} (h : step s (.channelSend θ c value o) = .ok s') :
    ChanStep P s (.channelSend θ c value o) s' := by
  obtain ⟨_, hg, hret⟩ := Res.bind_ok.mp h
  simp only [Res.require_ok, Bool.and_eq_true, Sys.lockFree_iff, List.contains_iff_mem] at hg
  exact croutineChannelSend_ok hg.1.2 hg.2 hg.1.1 hret

/-- `croutine_channel_try_send` is one attempt. -/
theorem step_channelTrySend_ok {value : Addr} (h : step s (.channelTrySend θ c value o) = .ok s') :
    ChanStep P s (.channelTrySend θ c value o) s' := by
  obtain ⟨_, hg, hret⟩ := Res.bind_ok.mp h
  simp only [Res.require_ok, Bool.and_eq_true, Sys.lockFree_iff, List.contains_iff_mem] at hg
  obtain ⟨⟨s1, r⟩, hs1, hret⟩ := Res.bind_ok.mp hret
  cases Res.pure_ok.mp hret
  exact .trySend hg.1.2 hg.2 (trySendLocked_ok hs1)

/-- `croutine_channel_recv` returns or parks the caller. -/
theorem step_channelRecv_ok {out : Addr} (h : step s (.channelRecv θ c out o) = .ok s') :
    ChanStep P s (.channelRecv θ c out o) s' := by
  obtain ⟨_, hg, hret⟩ := Res.bind_ok.mp h
  simp only [Res.require_ok, Bool.and_eq_true, Sys.lockFree_iff, List.contains_iff_mem] at hg
  exact croutineChannelRecv_ok hg.1.2 hg.2 hg.1.1 hret

/-- `croutine_channel_try_recv` is one attempt. -/
theorem step_channelTryRecv_ok {out : Addr} (h : step s (.channelTryRecv θ c out o) = .ok s') :
    ChanStep P s (.channelTryRecv θ c out o) s' := by
  obtain ⟨_, hg, hret⟩ := Res.bind_ok.mp h
  simp only [Res.require_ok, Bool.and_eq_true, Sys.lockFree_iff, List.contains_iff_mem] at hg
  obtain ⟨⟨s1, r⟩, hs1, hret⟩ := Res.bind_ok.mp hret
  cases Res.pure_ok.mp hret
  exact .tryRecv hg.1.2 hg.2 (tryRecvLocked_ok hs1)

/-- `croutine_channel_close` on a channel of the registry. -/
theorem step_channelClose_ok (h : step s (.channelClose θ c o) = .ok s') :
    ChanStep P s (.channelClose θ c o) s' := by
  obtain ⟨_, hg, hret⟩ := Res.bind_ok.mp h
  simp only [Res.require_ok, Bool.and_eq_true, Sys.lockFree_iff, List.contains_iff_mem] at hg
  exact .close hg.1.2 hg.2 hret

/-- `croutine_select`, whose channels are all in the registry. -/
theorem step_select_ok {cases : List SelectCase} {hasDefault : Bool} {choice : SelectChoice}
    (hP : P cases)
    (h : step s (.select θ cases hasDefault choice o) = .ok s') :
    ChanStep P s (.select θ cases hasDefault choice o) s' := by
  obtain ⟨_, hg, hret⟩ := Res.bind_ok.mp h
  simp only [Res.require_ok, Bool.and_eq_true, Sys.lockFree_iff, List.all_eq_true] at hg
  refine croutineSelect_ok hP hg.1.2 ?_ hg.1.1 hret
  intro cs hcs c hc
  simpa [hc] using hg.2 cs hcs

/-- User code writes to its own memory. -/
theorem step_userWrite_ok {a : Addr} {bs : Bytes} (h : step s (.userWrite θ a bs) = .ok s') :
    ChanStep P s (.userWrite θ a bs) s' := by
  obtain ⟨_, _, hret⟩ := Res.bind_ok.mp h
  cases Res.pure_ok.mp hret
  exact .userWrite a bs

/-- The allocations of a spawn need no lock. -/
theorem step_spawnAlloc_ok {r : SpawnRequest} (h : step s (.spawnAlloc θ r) = .ok s') :
    SchedStep s (.spawnAlloc θ r) s' := by
  obtain ⟨_, hg, hret⟩ := Res.bind_ok.mp h
  cases Res.pure_ok.mp hret
  simp only [Res.require_ok, Bool.and_eq_true, decide_eq_true_eq] at hg
  exact .spawnAlloc hg.1 (by simpa using hg.2)

/-- A spawned task is published by the thread that allocated it. -/
theorem step_spawnPublish_ok {t : TaskId} (h : step s (.spawnPublish θ t o) = .ok s') :
    SchedStep s (.spawnPublish θ t o) s' := by
  obtain ⟨_, hg, hret⟩ := Res.bind_ok.mp h
  cases Res.pure_ok.mp hret
  simp only [Res.require_ok, Bool.and_eq_true, Sys.lockFree_iff, List.contains_iff_mem] at hg
  exact .spawnPublish hg.1 hg.2

/-- A descriptor is forgotten with the lock free. -/
theorem step_forgetFd_ok {fd : Int} (h : step s (.forgetFd θ fd o) = .ok s') :
    SchedStep s (.forgetFd θ fd o) s' := by
  obtain ⟨_, hg, hret⟩ := Res.bind_ok.mp h
  simp only [Res.require_ok, Bool.and_eq_true, Sys.lockFree_iff] at hg
  exact .forgetFd hg.1.2 hg.2 hret

/-- A request to stop, while the runtime is initialized. -/
theorem step_requestShutdown_ok (h : step s (.requestShutdown θ o) = .ok s') :
    ChanStep P s (.requestShutdown θ o) s' := by
  obtain ⟨_, hg, hret⟩ := Res.bind_ok.mp h
  simp only [Res.require_ok, Bool.and_eq_true, Sys.lockFree_iff] at hg
  exact requestShutdown_ok hg.1.2 hg.2 hret

/-- A promised wake of the poller is made by the thread that owes it. -/
theorem step_pollerWake_ok (h : step s (.pollerWake θ) = .ok s') :
    SchedStep s (.pollerWake θ) s' := by
  obtain ⟨_, hg, hret⟩ := Res.bind_ok.mp h
  cases Res.pure_ok.mp hret
  simp only [Res.require_ok, List.contains_iff_mem] at hg
  exact .pollerWake hg

/-! ### The task a worker runs -/

/-- A task asks to wait for a descriptor. -/
theorem step_waitIo_ok {w : WorkerId} {fd : Int} {direction : Filter}
    (h : step s (.waitIo w fd direction o) = .ok s') :
    SchedStep s (.waitIo w fd direction o) s' := by
  obtain ⟨_, hg, hret⟩ := Res.bind_ok.mp h
  simp only [Res.require_ok, Bool.and_eq_true, Sys.lockFree_iff] at hg
  obtain ⟨t, hpc, hframe⟩ := Sys.canAct_worker hg.1.1
  rw [hpc] at hret
  cases Res.pure_ok.mp hret
  exact .waitIo hg.1.2 hg.2 hpc hframe

/-- A task yields. -/
theorem step_yield_ok {w : WorkerId} (h : step s (.yield w) = .ok s') :
    SchedStep s (.yield w) s' := by
  obtain ⟨_, hg, hret⟩ := Res.bind_ok.mp h
  obtain ⟨t, hpc, hframe⟩ := Sys.canAct_worker (Res.require_ok.mp hg)
  rw [hpc] at hret
  cases Res.pure_ok.mp hret
  exact .yield hpc hframe

/-- The tail of a blocking call belongs to the channels or to the scheduler. -/
theorem step_callReturn_ok {w : WorkerId} (h : step s (.callReturn w) = .ok s') :
    ChanStep P s (.callReturn w) s' ∨ SchedStep s (.callReturn w) s' := by
  simp only [step] at h
  split at h
  · next t hpc => exact callReturn_ok hpc h
  · exact absurd h (by simp)

/-- The function of a task returns. -/
theorem step_taskReturn_ok {w : WorkerId} (h : step s (.taskReturn w) = .ok s') :
    SchedStep s (.taskReturn w) s' := by
  obtain ⟨_, hg, hret⟩ := Res.bind_ok.mp h
  obtain ⟨t, hpc, hframe⟩ := Sys.canAct_worker (Res.require_ok.mp hg)
  rw [hpc] at hret
  cases Res.pure_ok.mp hret
  exact .taskReturn hpc hframe

/-- The main task tells the thread in `croutine_runtime_run`. -/
theorem step_finishMain_ok {w : WorkerId} (h : step s (.finishMain w) = .ok s') :
    SchedStep s (.finishMain w) s' := by
  simp only [step] at h
  split at h
  · next t hpc => cases h; exact .finishMain hpc
  · exact absurd h (by simp)

/-- The main task tells the workers. -/
theorem step_finishSched_ok {w : WorkerId} (h : step s (.finishSched w) = .ok s') :
    SchedStep s (.finishSched w) s' := by
  obtain ⟨_, hg, hret⟩ := Res.bind_ok.mp h
  rw [Res.require_ok, Sys.lockFree_iff] at hg
  split at hret
  · next t hpc => cases Res.pure_ok.mp hret; exact .finishSched hg hpc
  · exact absurd hret (by simp)

/-- The context of a task is saved. -/
theorem step_switchOut_ok {w : WorkerId} (h : step s (.switchOut w) = .ok s') :
    SchedStep s (.switchOut w) s' := by
  obtain ⟨_, _, hret⟩ := Res.bind_ok.mp h
  split at hret
  · next t st hpc => cases Res.pure_ok.mp hret; exact .switchOut hpc
  · exact absurd hret (by simp)

/-! ### A worker in the scheduler -/

/-- The worker releases the lock that a parking task left taken. -/
theorem step_release_ok {w : WorkerId} (h : step s (.release w) = .ok s') :
    SchedStep s (.release w) s' := by
  simp only [step] at h
  split at h
  · next t st hpc => cases h; exact .release hpc
  · exact absurd h (by simp)

/-- The worker looks at the flag before it decides about the task. -/
theorem step_rereadShutdown_ok {w : WorkerId} (h : step s (.rereadShutdown w) = .ok s') :
    SchedStep s (.rereadShutdown w) s' := by
  obtain ⟨_, hg, hret⟩ := Res.bind_ok.mp h
  rw [Res.require_ok, Sys.lockFree_iff] at hg
  split at hret
  · next t st hpc => cases Res.pure_ok.mp hret; exact .reread hg hpc
  · exact absurd hret (by simp)

/-- A task that yielded goes back to the run queue. -/
theorem step_requeue_ok {w : WorkerId} (h : step s (.requeue w o) = .ok s') :
    SchedStep s (.requeue w o) s' := by
  obtain ⟨_, hg, hret⟩ := Res.bind_ok.mp h
  rw [Res.require_ok, Sys.lockFree_iff] at hg
  split at hret
  · next t hpc => exact .requeue hg hpc hret
  · exact absurd hret (by simp)

/-- A finished task is freed. -/
theorem step_cleanup_ok {w : WorkerId} (h : step s (.cleanup w) = .ok s') :
    SchedStep s (.cleanup w) s' := by
  simp only [step] at h
  split at h
  · next t hpc => cases h; exact .cleanup hpc
  · exact absurd h (by simp)

/-- A round of the worker's loop. -/
theorem step_loop_ok {w : WorkerId} (h : step s (.loop w) = .ok s') : SchedStep s (.loop w) s' := by
  obtain ⟨_, hg, hret⟩ := Res.bind_ok.mp h
  rw [Res.require_ok, Sys.lockFree_iff] at hg
  split at hret
  · next checked hpc => cases Res.pure_ok.mp hret; exact .loop hg hpc
  · exact absurd hret (by simp)

/-- A worker is back from `pthread_cond_wait`. -/
theorem step_condReturn_ok {w : WorkerId} (h : step s (.condReturn w) = .ok s') :
    SchedStep s (.condReturn w) s' := by
  obtain ⟨_, hg, hret⟩ := Res.bind_ok.mp h
  rw [Res.require_ok, Sys.lockFree_iff] at hg
  split at hret
  · next checked hpc => cases Res.pure_ok.mp hret; exact .condReturn hg hpc
  · exact absurd hret (by simp)

/-- The kernel returns a batch that it may report. -/
theorem step_kernelReturn_ok {w : WorkerId} {batch : List Reported}
    (h : step s (.kernelReturn w batch) = .ok s') : SchedStep s (.kernelReturn w batch) s' := by
  simp only [step] at h
  split at h
  · next timeout hpc =>
    split at h
    · next raw hraw => cases h; exact .kernelReturn hpc hraw
    · exact absurd h (by simp)
  · exact absurd h (by simp)

/-- The kernel's wait fails. -/
theorem step_kernelError_ok {w : WorkerId} (h : step s (.kernelError w) = .ok s') :
    SchedStep s (.kernelError w) s' := by
  simp only [step] at h
  split at h
  · next timeout hpc => cases h; exact .kernelError hpc
  · exact absurd h (by simp)

/-- The poller translates the batch. -/
theorem step_filterBatch_ok {w : WorkerId} (h : step s (.filterBatch w) = .ok s') :
    SchedStep s (.filterBatch w) s' := by
  simp only [step] at h
  split at h
  · next raw hpc => cases h; exact .filterBatch hpc
  · exact absurd h (by simp)

/-- The worker is back from the poller, with events or with an error. -/
theorem step_pollReturn_ok {w : WorkerId} (h : step s (.pollReturn w o) = .ok s') :
    SchedStep s (.pollReturn w o) s' := by
  obtain ⟨_, hg, hret⟩ := Res.bind_ok.mp h
  rw [Res.require_ok, Sys.lockFree_iff] at hg
  split at hret
  · next events hpc => exact .pollReturn hg hpc hret
  · next hpc => exact .pollFailed hg hpc hret
  · exact absurd hret (by simp)

/-- A task taken from the run queue is resumed. -/
theorem step_resume_ok {w : WorkerId} (h : step s (.resume w) = .ok s') :
    SchedStep s (.resume w) s' := by
  simp only [step] at h
  split at h
  · next t hpc => cases h; exact .resume hpc
  · exact absurd h (by simp)

/-! ### Descriptors, and the control thread -/

/-- The kernel may change the readiness of a descriptor at any time. -/
theorem step_setReady_ok {fd : Int} {mask : EpollMask} (h : step s (.setReady fd mask) = .ok s') :
    SchedStep s (.setReady fd mask) s' := by
  cases h
  exact .setReady fd mask

/-- `croutine_runtime_init`, once. -/
theorem step_runtimeInit_ok (h : step s .runtimeInit = .ok s') : SchedStep s .runtimeInit s' := by
  obtain ⟨_, hg, hret⟩ := Res.bind_ok.mp h
  cases Res.pure_ok.mp hret
  simp only [Res.require_ok, Bool.and_eq_true, Sys.lockFree_iff, decide_eq_true_eq] at hg
  exact .runtimeInit hg.2 hg.1

/-- `croutine_runtime_run` is called. -/
theorem step_runCall_ok (h : step s .runCall = .ok s') : SchedStep s .runCall s' := by
  obtain ⟨_, hg, hret⟩ := Res.bind_ok.mp h
  cases Res.pure_ok.mp hret
  simp only [Res.require_ok, Bool.and_eq_true, decide_eq_true_eq] at hg
  exact .runCall hg.1

/-- There is no memory for the workers. -/
theorem step_workersAllocFail_ok (h : step s (.workersAllocFail o) = .ok s') :
    ChanStep P s (.workersAllocFail o) s' := by
  obtain ⟨_, hg, hret⟩ := Res.bind_ok.mp h
  obtain ⟨s1, hs1, hret⟩ := Res.bind_ok.mp hret
  cases Res.pure_ok.mp hret
  simp only [Res.require_ok, Bool.and_eq_true, Sys.lockFree_iff, decide_eq_true_eq] at hg
  exact workerRequestShutdown_ok hg.1.2 rfl (.allocFailed hg.1.1) hs1

/-- The next worker is started. -/
theorem step_createWorker_ok (h : step s .createWorker = .ok s') :
    SchedStep s .createWorker s' := by
  simp only [step] at h
  split at h
  · next k hlife =>
    obtain ⟨_, hg, hret⟩ := Res.bind_ok.mp h
    cases Res.pure_ok.mp hret
    simp only [Res.require_ok, Bool.and_eq_true, decide_eq_true_eq] at hg
    exact .createWorker hlife hg.1 (by simpa using hg.2)
  · exact absurd h (by simp)

/-- A worker cannot be started. -/
theorem step_createWorkerFail_ok (h : step s (.createWorkerFail o) = .ok s') :
    ChanStep P s (.createWorkerFail o) s' := by
  simp only [step] at h
  split at h
  · next k hlife =>
    obtain ⟨_, hg, hret⟩ := Res.bind_ok.mp h
    obtain ⟨s1, hs1, hret⟩ := Res.bind_ok.mp hret
    cases Res.pure_ok.mp hret
    simp only [Res.require_ok, Bool.and_eq_true, Sys.lockFree_iff] at hg
    exact workerRequestShutdown_ok hg.1.2 rfl (.createFailed hlife) hs1
  · exact absurd h (by simp)

/-- The control thread waits for the main task. -/
theorem step_waitForMain_ok (h : step s .waitForMain = .ok s') : SchedStep s .waitForMain s' := by
  obtain ⟨_, hg, hret⟩ := Res.bind_ok.mp h
  cases Res.pure_ok.mp hret
  simp only [Res.require_ok, Bool.and_eq_true, decide_eq_true_eq] at hg
  exact .waitForMain hg.1

/-- The control thread joins the workers. -/
theorem step_joinWorkers_ok (h : step s .joinWorkers = .ok s') : SchedStep s .joinWorkers s' := by
  obtain ⟨_, hg, hret⟩ := Res.bind_ok.mp h
  cases Res.pure_ok.mp hret
  simp only [Res.require_ok, Bool.and_eq_true, decide_eq_true_eq, List.all_eq_true,
    List.mem_range, Bool.or_eq_true] at hg
  exact .joinWorkers hg.1.1 hg.2

/-- `croutine_runtime_shutdown` requests the stop itself. -/
theorem step_shutdownCall_ok (h : step s (.shutdownCall o) = .ok s') :
    ChanStep P s (.shutdownCall o) s' := by
  obtain ⟨_, hg, hret⟩ := Res.bind_ok.mp h
  obtain ⟨s1, hs1, hret⟩ := Res.bind_ok.mp hret
  cases Res.pure_ok.mp hret
  simp only [Res.require_ok, Bool.and_eq_true, Bool.or_eq_true, Sys.lockFree_iff,
    decide_eq_true_eq] at hg
  exact workerRequestShutdown_ok hg.1.2 rfl (.shutdownCall hg.1.1) hs1

/-- `worker_deinit` frees the tasks that are left. -/
theorem step_deinitDrain_ok (h : step s .deinitDrain = .ok s') : SchedStep s .deinitDrain s' := by
  obtain ⟨_, hg, hret⟩ := Res.bind_ok.mp h
  cases Res.pure_ok.mp hret
  simp only [Res.require_ok, Bool.and_eq_true, Sys.lockFree_iff, decide_eq_true_eq] at hg
  exact .deinitDrain hg.1.2 hg.1.1

/-- `worker_deinit` closes the poller. -/
theorem step_deinitClose_ok (h : step s .deinitClose = .ok s') : SchedStep s .deinitClose s' := by
  obtain ⟨_, hg, hret⟩ := Res.bind_ok.mp h
  cases Res.pure_ok.mp hret
  simp only [Res.require_ok, decide_eq_true_eq] at hg
  exact .deinitClose hg

/-! ### The two kinds -/

/-- **Every step is one of the two kinds.**  `P` may be any property of the case
lists that the selects of the run satisfy. -/
theorem step_cases {a : Action}
    (hP : ∀ θ cases hasDefault choice o,
      a = .select θ cases hasDefault choice o → P cases)
    (h : step s a = .ok s') : ChanStep P s a s' ∨ SchedStep s a s' := by
  cases a with
  | channelCreate θ elemSize capacity allocOk => exact .inl (step_channelCreate_ok h)
  | channelDestroy θ c => exact .inl (step_channelDestroy_ok h)
  | channelSend θ c value o => exact .inl (step_channelSend_ok h)
  | channelTrySend θ c value o => exact .inl (step_channelTrySend_ok h)
  | channelRecv θ c out o => exact .inl (step_channelRecv_ok h)
  | channelTryRecv θ c out o => exact .inl (step_channelTryRecv_ok h)
  | channelClose θ c o => exact .inl (step_channelClose_ok h)
  | select θ cases hasDefault choice o => exact .inl (step_select_ok (hP _ _ _ _ _ rfl) h)
  | userWrite θ a bs => exact .inl (step_userWrite_ok h)
  | spawnAlloc θ r => exact .inr (step_spawnAlloc_ok h)
  | spawnPublish θ t o => exact .inr (step_spawnPublish_ok h)
  | forgetFd θ fd o => exact .inr (step_forgetFd_ok h)
  | requestShutdown θ o => exact .inl (step_requestShutdown_ok h)
  | pollerWake θ => exact .inr (step_pollerWake_ok h)
  | waitIo w fd direction o => exact .inr (step_waitIo_ok h)
  | yield w => exact .inr (step_yield_ok h)
  | callReturn w => exact step_callReturn_ok h
  | taskReturn w => exact .inr (step_taskReturn_ok h)
  | finishMain w => exact .inr (step_finishMain_ok h)
  | finishSched w => exact .inr (step_finishSched_ok h)
  | switchOut w => exact .inr (step_switchOut_ok h)
  | release w => exact .inr (step_release_ok h)
  | rereadShutdown w => exact .inr (step_rereadShutdown_ok h)
  | requeue w o => exact .inr (step_requeue_ok h)
  | cleanup w => exact .inr (step_cleanup_ok h)
  | loop w => exact .inr (step_loop_ok h)
  | condReturn w => exact .inr (step_condReturn_ok h)
  | kernelReturn w batch => exact .inr (step_kernelReturn_ok h)
  | kernelError w => exact .inr (step_kernelError_ok h)
  | filterBatch w => exact .inr (step_filterBatch_ok h)
  | pollReturn w o => exact .inr (step_pollReturn_ok h)
  | resume w => exact .inr (step_resume_ok h)
  | setReady fd mask => exact .inr (step_setReady_ok h)
  | runtimeInit => exact .inr (step_runtimeInit_ok h)
  | runCall => exact .inr (step_runCall_ok h)
  | workersAllocFail o => exact .inl (step_workersAllocFail_ok h)
  | createWorker => exact .inr (step_createWorker_ok h)
  | createWorkerFail o => exact .inl (step_createWorkerFail_ok h)
  | waitForMain => exact .inr (step_waitForMain_ok h)
  | joinWorkers => exact .inr (step_joinWorkers_ok h)
  | shutdownCall o => exact .inl (step_shutdownCall_ok h)
  | deinitDrain => exact .inr (step_deinitDrain_ok h)
  | deinitClose => exact .inr (step_deinitClose_ok h)

/-- The two kinds of steps, where nothing is asked of the selects. -/
theorem step_kind {a : Action} (h : step s a = .ok s') :
    ChanStep (fun _ => True) s a s' ∨ SchedStep s a s' :=
  step_cases (fun _ _ _ _ _ _ => trivial) h

end Croutine
