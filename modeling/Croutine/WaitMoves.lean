import Croutine.Steps

/-!
# Channel operations as moves of waiters

Seen from the wait queues, an attempt to send or receive, a close and the try phase
of a select are sequences of three moves: nothing that concerns waiters changes, a
dead waiter is popped, or a live waiter is popped and its task woken.  An invariant
of waiters and tasks is proved for the three moves and holds across every operation.
-/

namespace Croutine

/-- The call whose park a wake ended. -/
def Event.wokenCall : Event → Option CallId
  | .woken _ call _ => some call
  | _ => none

/-- The blocking call that reported its result. -/
def Event.returnedCall : Event → Option CallId
  | .sendReturned call _ _ => some call
  | .recvReturned call _ _ => some call
  | .selectReturned call _ _ _ => some call
  | _ => none

namespace Chans

/-- The calls whose tasks were woken, in order. -/
def wokenCalls (κ : Chans) : List CallId := κ.log.filterMap Event.wokenCall

/-- The calls that returned, in order. -/
def returnedCalls (κ : Chans) : List CallId := κ.log.filterMap Event.returnedCall

/-- The waiter of a select that is over, or one without a select. -/
def Dead (κ : Chans) (w : WaiterId) : Prop :=
  (κ.waiter w).kind = .select ∧ ∀ k, (κ.waiter w).state = some k → (κ.select k).done = true

variable {κ : Chans} {w : WaiterId}

/-- A waiter that is not live is dead. -/
theorem dead_of_not_live (h : κ.live w = false) : κ.Dead w := by
  unfold live at h
  split at h
  · next k hkind hstate =>
    refine ⟨hkind, fun k' hk' => ?_⟩
    rw [hstate] at hk'
    cases hk'
    simpa using h
  · exact absurd h (by simp)

/-- What a close skips is dead. -/
theorem dead_of_skip (hkind : (κ.waiter w).kind = .select)
    (hskip : (κ.waiter w).state = none ∨ κ.live w = false) : κ.Dead w := by
  rcases hskip with hnone | hdead
  · exact ⟨hkind, fun k hk => absurd (hnone.symm.trans hk) (by simp)⟩
  · exact dead_of_not_live hdead

/-- The waiter of a single send or receive is live. -/
theorem live_of_regular (h : (κ.waiter w).kind = .regular) : κ.live w = true := by
  unfold live
  rw [h]

/-- An event that is no wake adds none. -/
theorem wokenCalls_record {e : Event} (he : e.wokenCall = none) :
    (κ.record e).wokenCalls = κ.wokenCalls := by
  simp [wokenCalls, record, he]

/-- An event that is no report adds none. -/
theorem returnedCalls_record_none {e : Event} (he : e.returnedCall = none) :
    (κ.record e).returnedCalls = κ.returnedCalls := by
  simp [returnedCalls, record, he]

/-- A report adds its call. -/
theorem returnedCalls_record {e : Event} {k : CallId} (he : e.returnedCall = some k) :
    (κ.record e).returnedCalls = κ.returnedCalls ++ [k] := by
  simp [returnedCalls, record, he]

end Chans

/-- Nothing that concerns waiters changes. -/
structure SameWaits (κ κ' : Chans) : Prop where
  queue : ∀ c op, κ'.queue c op = κ.queue c op
  waiter : κ'.waiter = κ.waiter
  select : κ'.select = κ.select
  registry : κ'.registry = κ.registry
  nextChan : κ'.nextChan = κ.nextChan
  clock : κ.clock ≤ κ'.clock
  woken : κ'.wokenCalls = κ.wokenCalls
  returned : κ'.returnedCalls = κ.returnedCalls

namespace SameWaits

variable (κ : Chans)

theorem trans {κ κ' κ'' : Chans} (h : SameWaits κ κ') (h' : SameWaits κ' κ'') :
    SameWaits κ κ'' where
  queue c op := (h'.queue c op).trans (h.queue c op)
  waiter := h'.waiter.trans h.waiter
  select := h'.select.trans h.select
  registry := h'.registry.trans h.registry
  nextChan := h'.nextChan.trans h.nextChan
  clock := Nat.le_trans h.clock h'.clock
  woken := h'.woken.trans h.woken
  returned := h'.returned.trans h.returned

/-- Who is live stays live. -/
theorem live {κ κ' : Chans} (h : SameWaits κ κ') (w : WaiterId) : κ'.live w = κ.live w :=
  Chans.live_congr (by rw [h.waiter]) (by rw [h.waiter]) fun k _ => by rw [h.select]

/-- Recording an event that is neither a wake nor a report. -/
theorem record {e : Event} (hwoken : e.wokenCall = none) (hreturned : e.returnedCall = none) :
    SameWaits κ (κ.record e) :=
  ⟨fun _ _ => rfl, rfl, rfl, rfl, rfl, Nat.le_refl _, Chans.wokenCalls_record hwoken,
    Chans.returnedCalls_record_none hreturned⟩

/-- A write to user memory. -/
theorem copyValue (dst : Addr) (v : Bytes) : SameWaits κ (κ.copyValue dst v) :=
  ⟨fun _ _ => rfl, rfl, rfl, rfl, rfl, Nat.le_refl _, rfl, rfl⟩

/-- A call takes the next number. -/
theorem tick : SameWaits κ κ.tick :=
  ⟨fun _ _ => rfl, rfl, rfl, rfl, rfl, Nat.le_succ _, rfl, rfl⟩

/-- A value enters a buffer. -/
theorem bufferPush (c : ChanId) (v : Bytes) : SameWaits κ (κ.bufferPush c v) :=
  ⟨fun c' op => κ.queue_bufferPush c c' op v, rfl, rfl, rfl, rfl, Nat.le_refl _, rfl, rfl⟩

/-- A value leaves a buffer. -/
theorem bufferPop (c : ChanId) (v : Bytes) (rest : List Bytes) (out : Addr) :
    SameWaits κ (κ.bufferPop c v rest out) :=
  ⟨fun c' op => κ.queue_bufferPop c c' op v rest out, rfl, rfl, rfl, rfl, Nat.le_refl _, rfl,
    rfl⟩

/-- A channel is marked closed. -/
theorem markClosed (c : ChanId) : SameWaits κ (κ.markClosed c) := by
  refine ⟨fun c' op => ?_, rfl, rfl, rfl, rfl, Nat.le_refl _, rfl, rfl⟩
  rw [Chans.markClosed, Chans.queue_setChan]
  split
  · next h => subst h; cases op <;> rfl
  · rfl

end SameWaits

/-- The channel state after the live head `w` of a queue was popped and its task
woken. -/
def Chans.popWoken (κ : Chans) (c : ChanId) (op : Direction) (w : WaiterId)
    (rest : List WaiterId) (success : Bool) (status : SelectStatus) : Chans :=
  ((κ.dropHeads c op [w] rest).markDone w status).record
    (.woken (κ.waiter w).task w.call success)

/-- Popping and waking a waiter creates no channel and begins no call. -/
theorem Chans.popWoken_frame {κ : Chans} {c : ChanId} {op : Direction} {w : WaiterId}
    {rest : List WaiterId} {success : Bool} {status : SelectStatus} :
    (κ.popWoken c op w rest success status).registry = κ.registry ∧
    (κ.popWoken c op w rest success status).nextChan = κ.nextChan ∧
    (κ.popWoken c op w rest success status).clock = κ.clock := by
  unfold popWoken markDone
  split <;> exact ⟨rfl, rfl, rfl⟩

/-- Popping and waking a waiter logs the wake. -/
theorem Chans.log_popWoken {κ : Chans} {c : ChanId} {op : Direction} {w : WaiterId}
    {rest : List WaiterId} {success : Bool} {status : SelectStatus} :
    (κ.popWoken c op w rest success status).log =
      κ.log ++ [.woken (κ.waiter w).task w.call success] := by
  unfold popWoken markDone
  split <;> rfl

/-- Popping and waking a waiter wakes its call. -/
theorem Chans.wokenCalls_popWoken {κ : Chans} {c : ChanId} {op : Direction} {w : WaiterId}
    {rest : List WaiterId} {success : Bool} {status : SelectStatus} :
    (κ.popWoken c op w rest success status).wokenCalls = κ.wokenCalls ++ [w.call] := by
  unfold wokenCalls
  rw [log_popWoken, List.filterMap_append]
  rfl

inductive WaitMove (s : Sys) : Sys → Prop
  | quiet {κ : Chans} (h : SameWaits s.ch κ) : WaitMove s { s with ch := κ }
  | dead {c : ChanId} {op : Direction} {w : WaiterId} {rest : List WaiterId}
      (hqueue : s.ch.queue c op = w :: rest) (hdead : s.ch.Dead w) :
      WaitMove s { s with ch := s.ch.dropHeads c op [w] rest }
  | wake {o : Oracle} {c : ChanId} {op : Direction} {w : WaiterId} {rest : List WaiterId}
      {success : Bool} {status : SelectStatus} {s1 : Sys}
      (hqueue : s.ch.queue c op = w :: rest) (hlive : s.ch.live w = true)
      (hwake : workerWakeTaskLocked o s (s.ch.waiter w).task success = some s1) :
      WaitMove s { s1 with ch := s.ch.popWoken c op w rest success status }

abbrev WaitMoves : Sys → Sys → Prop := Relation.ReflTransGen WaitMove

namespace WaitMoves

variable {s s' : Sys} {c : ChanId} {op : Direction}

/-- **Move rule.**  What each of the three moves keeps is kept by every channel
operation. -/
theorem invariant {I : Sys → Prop} (h : WaitMoves s s')
    (hmove : ∀ x x', I x → WaitMove x x' → I x') (hs : I s) : I s' := by
  induction h with
  | refl => exact hs
  | tail _ hstep ih => exact hmove _ _ ih hstep

/-- The waiters stay where they are. -/
theorem quiet {κ : Chans} (h : SameWaits s.ch κ) : WaitMoves s { s with ch := κ } :=
  .single (.quiet h)

/-- Moves of waiters wake tasks and change channels, and do nothing else. -/
theorem wakes (h : WaitMoves s s') : Wakes s s' := by
  refine invariant (I := fun x => Wakes s x) h ?_ .refl
  intro x x' hx hmove
  cases hmove with
  | quiet hsame => exact hx.thenChans _
  | dead hqueue hdead => exact hx.thenChans _
  | wake hqueue hlive hwake => exact hx.trans (Wakes.wakeThen hwake _)

/-- Moves of waiters neither create nor destroy channels, and tasks stay in their
calls. -/
theorem keeps (h : WaitMoves s s') : s'.ch.registry = s.ch.registry ∧
    s'.ch.nextChan = s.ch.nextChan ∧ s.ch.clock ≤ s'.ch.clock ∧
    ∀ t, (s'.tasks t).frame = (s.tasks t).frame := by
  refine invariant (I := fun x => x.ch.registry = s.ch.registry ∧
    x.ch.nextChan = s.ch.nextChan ∧ s.ch.clock ≤ x.ch.clock ∧
    ∀ t, (x.tasks t).frame = (s.tasks t).frame) h ?_ ⟨rfl, rfl, Nat.le_refl _, fun _ => rfl⟩
  intro x x' ⟨hregistry, hnext, hclock, hframe⟩ hmove
  cases hmove with
  | quiet hsame =>
      exact ⟨hsame.registry.trans hregistry, hsame.nextChan.trans hnext,
        Nat.le_trans hclock hsame.clock, hframe⟩
  | dead hqueue hdead => exact ⟨hregistry, hnext, hclock, hframe⟩
  | @wake o c op w rest success status s1 hqueue hlive hwake =>
      obtain ⟨hr, hn, hc⟩ := @Chans.popWoken_frame x.ch c op w rest success status
      refine ⟨hr.trans hregistry, hn.trans hnext, hc.symm ▸ hclock, fun t => ?_⟩
      obtain ⟨_, cap, _, rfl⟩ := workerWakeTaskLocked_some hwake
      rw [← hframe t]
      by_cases ht : t = (x.ch.waiter w).task
      · rw [ht]; simp [Task.requeued]
      · simp [ht]

/-- Dead waiters are popped from the head of a queue. -/
theorem deads : ∀ (gone rest : List WaiterId) {s : Sys},
    s.ch.queue c op = gone ++ rest → (∀ w ∈ gone, s.ch.live w = false) →
    WaitMoves s { s with ch := s.ch.dropHeads c op gone rest } := by
  intro gone
  induction gone with
  | nil =>
      intro rest s hqueue _
      rw [s.ch.dropHeads_nil c op rest hqueue]
  | cons w gone ih =>
      intro rest s hqueue hdead
      have hw : s.ch.Dead w := Chans.dead_of_not_live (hdead w List.mem_cons_self)
      have hfirst : WaitMoves s { s with ch := s.ch.dropHeads c op [w] (gone ++ rest) } :=
        .single (.dead hqueue hw)
      have hrest := @ih rest { s with ch := s.ch.dropHeads c op [w] (gone ++ rest) }
        (by simp) fun x hx => by simpa using hdead x (List.mem_cons_of_mem _ hx)
      rw [Chans.dropHeads_dropHeads] at hrest
      exact hfirst.trans hrest

/-- Every waiter of a queue is dead and popped. -/
theorem drained (hdead : ∀ w ∈ s.ch.queue c op, s.ch.live w = false) :
    WaitMoves s { s with ch := s.ch.dropHeads c op (s.ch.queue c op) [] } :=
  deads _ [] (by simp) hdead

end WaitMoves

/-! ## The operations -/

namespace WaitMoves

variable {o : Oracle} {s s1 s' : Sys} {c : ChanId} {op : Direction} {w : WaiterId}
  {dead rest : List WaiterId} {success : Bool} {status : SelectStatus}

/-- A wake between changes of the channel state. -/
theorem wakeAt {κ : Chans} (hqueue : κ.queue c op = w :: rest) (hlive : κ.live w = true)
    (hwake : workerWakeTaskLocked o s (κ.waiter w).task success = some s1) :
    WaitMoves { s with ch := κ } { s1 with ch := κ.popWoken c op w rest success status } := by
  have hwake' : workerWakeTaskLocked o { s with ch := κ } (κ.waiter w).task success =
      some { s1 with ch := κ } := by
    rw [workerWakeTaskLocked_ch, hwake]
    rfl
  exact .single (@WaitMove.wake { s with ch := κ } o c op w rest success status
    { s1 with ch := κ } hqueue hlive hwake')

/-- The first live waiter of a queue is popped with the dead ones before it, values
are moved as `κ` says, and its task is woken. -/
theorem popped {μ κ : Chans} (hqueue : μ.queue c op = dead ++ w :: rest)
    (hdead : ∀ x ∈ dead, μ.live x = false) (hlive : μ.live w = true)
    (hwake : workerWakeTaskLocked o s (μ.waiter w).task success = some s1)
    (hκ : SameWaits (μ.dropHeads c op dead (w :: rest)) κ) :
    WaitMoves { s with ch := μ } { s1 with ch := κ.popWoken c op w rest success status } := by
  have hdrop := @deads c op dead (w :: rest) { s with ch := μ } hqueue hdead
  have hmove : WaitMoves { s with ch := μ } { s with ch := κ } :=
    hdrop.trans (.single (.quiet hκ))
  refine hmove.trans (wakeAt (o := o) ?_ ?_ ?_)
  · rw [hκ.queue]
    simp
  · rw [hκ.live]
    simpa using hlive
  · rw [hκ.waiter, Chans.dropHeads_task]
    exact hwake

end WaitMoves

namespace Chans

variable {κ μ : Chans} {c : ChanId} {op : Direction} {w : WaiterId} {rest : List WaiterId}
  {status : SelectStatus}

/-- Storing a value in the buffer and popping waiters do not depend on each other. -/
theorem dropHeads_bufferPush (gone : List WaiterId) (v : Bytes) :
    (κ.dropHeads c op gone rest).bufferPush c v =
      (κ.bufferPush c v).dropHeads c op gone rest := by
  simp only [dropHeads, bufferPush, setChan, Function.update_self, Function.update_idem]
  cases op <;> rfl

/-- Ending a select takes nobody out of a queue. -/
@[simp] theorem queue_markDone (c' : ChanId) (op' : Direction) :
    (κ.markDone w status).queue c' op' = κ.queue c' op' := by
  unfold markDone
  split <;> rfl

/-- A single send or receive has no select to end. -/
theorem markDone_regular (h : (κ.waiter w).kind = .regular) : κ.markDone w status = κ := by
  unfold markDone
  rw [h]

/-- Completing a waiter that was taken out is popping and waking it. -/
theorem completed_eq_popWoken (h : κ.dropHeads c op [w] rest = μ) :
    μ.completed w status = κ.popWoken c op w rest true status := by
  subst h
  unfold popWoken completed
  rw [dropHeads_task]

variable (κ c) (offer r : WaiterId) (value : Addr) (dead rest : List WaiterId)

/-- The values move first, then the receiver is popped and woken. -/
theorem handedTo_eq : κ.handedTo c offer r value dead rest =
    (((κ.dropHeads c .recv dead (r :: rest)).copyValue (κ.waiter r).valueSlot
      (κ.valueAt c value)).record (.handoff c offer r (κ.waiter r).valueSlot
      (κ.valueAt c value))).popWoken c .recv r rest true .value := by
  refine completed_eq_popWoken ?_
  rw [← κ.dropHeads_dropHeads c .recv dead (r :: rest) [r] rest]
  rfl

/-- A value is taken from a sender by dropping the dead ones in front of it, copying, and
popping the sender. -/
theorem takenFrom_eq : κ.takenFrom c offer r value dead rest =
    (((κ.dropHeads c .send dead (r :: rest)).copyValue value
      (κ.valueAt c (κ.waiter r).valueSlot)).record (.handoff c r offer value
      (κ.valueAt c (κ.waiter r).valueSlot))).popWoken c .send r rest true .sent := by
  refine completed_eq_popWoken ?_
  rw [← κ.dropHeads_dropHeads c .send dead (r :: rest) [r] rest]
  rfl

/-- A sender's value moves into the buffer by dropping the dead ones in front of it, copying,
and popping the sender. -/
theorem bufferedFrom_eq : κ.bufferedFrom c r dead rest =
    (((κ.dropHeads c .send dead (r :: rest)).bufferPush c
      (κ.valueAt c (κ.waiter r).valueSlot)).record (.buffered c r
      (κ.valueAt c (κ.waiter r).valueSlot))).popWoken c .send r rest true .sent := by
  refine completed_eq_popWoken ?_
  rw [← κ.dropHeads_dropHeads c .send dead (r :: rest) [r] rest, dropHeads_bufferPush [r]]
  rfl

/-- A select waiter completes as closed before it is popped and woken. -/
theorem closedSelect_eq (op : Direction) (w : WaiterId) (flag : Bool) :
    ((κ.dropHeads c op [w] rest).record (.closed c w flag)).completed w .closed =
      (κ.record (.closed c w flag)).popWoken c op w rest true .closed :=
  completed_eq_popWoken rfl

/-- So does a regular waiter, which is woken without success. -/
theorem closedRegular_eq (op : Direction) {w : WaiterId} (flag : Bool)
    (hkind : (κ.waiter w).kind = .regular) :
    ((κ.dropHeads c op [w] rest).record (.closed c w flag)).record
      (.woken (κ.waiter w).task w.call false) =
      (κ.record (.closed c w flag)).popWoken c op w rest false .closed := by
  unfold popWoken
  rw [markDone_regular (by rw [dropHeads_kind]; exact hkind)]
  rfl

end Chans

/-- A send attempt moves waiters only. -/
theorem TrySend.moves {o : Oracle} {s s' : Sys} {c : ChanId} {offer : WaiterId}
    {value : Addr} {r : SendResult} (h : TrySend o s c offer value s' r) : WaitMoves s s' := by
  cases h with
  | refused h => exact WaitMoves.quiet (.record _ rfl rfl)
  | handed hopen hrun hqueue hdead hlive hwake =>
      rw [Chans.handedTo_eq]
      exact WaitMoves.popped (μ := s.ch) hqueue hdead hlive hwake
        ((SameWaits.copyValue _ _ _).trans (.record _ rfl rfl))
  | buffered hopen hrun hdead hroom =>
      exact (WaitMoves.drained hdead).trans
        (WaitMoves.quiet ((SameWaits.bufferPush _ _ _).trans (.record _ rfl rfl)))
  | blocked hopen hrun hdead hfull => exact WaitMoves.drained hdead

/-- A receive attempt moves waiters only. -/
theorem TryRecv.moves {o : Oracle} {s s' : Sys} {c : ChanId} {offer : WaiterId}
    {out : Addr} {r : RecvResult} (h : TryRecv o s c offer out s' r) : WaitMoves s s' := by
  have htook : ∀ v rest, SameWaits s.ch (s.ch.tookBuffered c offer out v rest) :=
    fun v rest => (SameWaits.bufferPop _ _ _ _ _).trans (.record _ rfl rfl)
  cases h with
  | taken hbuffer hskip => exact WaitMoves.quiet (htook _ _)
  | @drained v rest hbuffer hopen hdead =>
      have hquiet : WaitMoves s { s with ch := s.ch.tookBuffered c offer out v rest } :=
        WaitMoves.quiet (htook v rest)
      have hqueue := (htook v rest).queue c .send
      have hdrop := @WaitMoves.drained { s with ch := s.ch.tookBuffered c offer out v rest }
        c .send (by rw [hqueue]; exact hdead)
      rw [hqueue] at hdrop
      exact hquiet.trans hdrop
  | @refilled v rest hbuffer hopen hroom dead tail x hqueue hdead hlive s1 hwake =>
      have hquiet : WaitMoves s { s with ch := s.ch.tookBuffered c offer out v rest } :=
        WaitMoves.quiet (htook v rest)
      have hqueue' := ((htook v rest).queue c .send).trans hqueue
      rw [Chans.bufferedFrom_eq]
      exact hquiet.trans (WaitMoves.popped (μ := s.ch.tookBuffered c offer out v rest) hqueue'
        hdead hlive hwake ((SameWaits.bufferPush _ _ _).trans (.record _ rfl rfl)))
  | direct hbuffer hqueue hdead hlive hwake =>
      rw [Chans.takenFrom_eq]
      exact WaitMoves.popped (μ := s.ch) hqueue hdead hlive hwake
        ((SameWaits.copyValue _ _ _).trans (.record _ rfl rfl))
  | refused hbuffer hdead h =>
      exact (WaitMoves.drained hdead).trans (WaitMoves.quiet (.record _ rfl rfl))
  | blocked hbuffer hdead hopen hrun => exact WaitMoves.drained hdead

/-- A round of a close moves waiters only. -/
theorem CloseRound.moves {o : Oracle} {c : ChanId} {op : Direction} {w : WaiterId}
    {rest : List WaiterId} {s s' : Sys} (h : CloseRound o c op w rest s s')
    (hqueue : s.ch.queue c op = w :: rest) : WaitMoves s s' := by
  -- the offer completes as closed before it is popped
  have hclosed : WaitMoves s
      { s with ch := s.ch.record (.closed c w (s.ch.chan c).closed) } :=
    WaitMoves.quiet (.record _ rfl rfl)
  cases h with
  | skipped hkind hskip => exact .single (.dead hqueue (Chans.dead_of_skip hkind hskip))
  | selected hkind hlive hwake =>
      rw [Chans.closedSelect_eq]
      exact hclosed.trans (WaitMoves.wakeAt hqueue hlive hwake)
  | regular hkind hwake =>
      rw [Chans.closedRegular_eq _ _ _ _ _ hkind]
      exact hclosed.trans (WaitMoves.wakeAt hqueue (Chans.live_of_regular hkind) hwake)

/-- Waking a queue as closed moves waiters only, and empties the queue. -/
theorem wakeAllAsClosedLocked_moves {o : Oracle} {s s' : Sys} {c : ChanId} {op : Direction}
    (h : wakeAllAsClosedLocked o s c op = .ok s') : WaitMoves s s' ∧ s'.ch.queue c op = [] := by
  refine wakeAllAsClosed_induct (I := fun q x => WaitMoves s x ∧ x.ch.queue c op = q) ?_ _
    ⟨.refl, rfl⟩ h
  intro w rest x x' hx hround
  exact ⟨hx.1.trans (hround.moves hx.2), hround.queue⟩

/-- A close moves waiters only. -/
theorem channelCloseLocked_moves {o : Oracle} {s s' : Sys} {c : ChanId}
    (h : channelCloseLocked o s c = .ok s') : WaitMoves s s' := by
  rcases channelCloseLocked_ok h with ⟨_, rfl⟩ | ⟨_, s1, hsend, hrecv⟩
  · exact .refl
  · have hmark : WaitMoves s { s with ch := s.ch.markClosed c } :=
      WaitMoves.quiet (.markClosed _ _)
    exact (hmark.trans (wakeAllAsClosedLocked_moves hsend).1).trans
      (wakeAllAsClosedLocked_moves hrecv).1

/-- The closes of a shutdown move waiters only. -/
theorem croutineChannelShutdownAllLocked_moves {o : Oracle} {s s' : Sys}
    (h : croutineChannelShutdownAllLocked o s = .ok s') : WaitMoves s s' :=
  Res.foldlM_induct (I := fun x => WaitMoves s x)
    (fun _ _ _ hI hclose => hI.trans (channelCloseLocked_moves hclose)) _ .refl h

/-- The attempt of a case moves waiters only. -/
theorem TryCase.moves {o : Oracle} {s s' : Sys} {offer : WaiterId} {cs : SelectCase}
    {fired : Option SelectStatus} (h : TryCase o s offer cs s' fired) : WaitMoves s s' := by
  cases h with
  | untried huntried => exact .refl
  | send hchan hop h => exact h.moves
  | recv hchan hop h => exact h.moves

/-- The try phase of a select moves waiters only. -/
theorem selectTryCases_moves {o : Oracle} {call : CallId} {cases : List SelectCase}
    {order : List Nat} {s s' : Sys} {fired : Option (Nat × SelectStatus)}
    (h : selectTryCases o call cases order s = .ok (s', fired)) : WaitMoves s s' := by
  rcases selectTryCases_induct (I := fun _ x => WaitMoves s x) (fun _ _ _ hI _ => hI)
      (fun _ _ _ _ _ hI _ htry => hI.trans htry.moves) order .refl h with
    ⟨_, hI⟩ | ⟨_, _, _, _, _, _, _, hI, _, htry⟩
  · exact hI
  · exact hI.trans htry.moves

end Croutine
