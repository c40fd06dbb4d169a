import Croutine.Rendezvous

/-!
# What operations add to the history

The log of a channel state only grows.  The lemmas here say what an attempt adds to it,
and that closing adds no movement of a value.  `Chans.sent` and `Chans.delivered` read
the two sides of a channel off the log: the offers whose value was accepted and the offers
that received one, in the order of the critical sections that did it.
-/

namespace Croutine

/-- The offer whose value the event accepts on `c`. -/
def Event.sentOn (c : ChanId) : Event → Option (WaiterId × Bytes)
  | .handoff c' sender _ _ v | .buffered c' sender v =>
    if c' = c then some (sender, v) else none
  | _ => none

/-- The offer that the event gives a value of `c`. -/
def Event.deliveredOn (c : ChanId) : Event → Option (WaiterId × Bytes)
  | .handoff c' _ receiver _ v | .taken c' receiver _ v =>
    if c' = c then some (receiver, v) else none
  | _ => none

/-- The event moves a value. -/
def Event.moves : Event → Bool
  | .handoff _ _ _ _ _ | .buffered _ _ _ | .taken _ _ _ _ => true
  | _ => false

/-- An event that moves no value accepts none. -/
theorem Event.sentOn_of_still {e : Event} (h : e.moves = false) (c : ChanId) :
    e.sentOn c = none := by
  cases e <;> first | rfl | simp [moves] at h

/-- An event that moves no value delivers none. -/
theorem Event.deliveredOn_of_still {e : Event} (h : e.moves = false) (c : ChanId) :
    e.deliveredOn c = none := by
  cases e <;> first | rfl | simp [moves] at h

/-- A report moves no value. -/
theorem Event.still_of_returned {e : Event} {k : CallId} (h : e.returnedCall = some k) :
    e.moves = false := by
  cases e <;> first | rfl | simp [returnedCall] at h

namespace Chans

/-- The offers whose send on `c` completed with their values, in order. -/
def sent (κ : Chans) (c : ChanId) : List (WaiterId × Bytes) := κ.log.filterMap (Event.sentOn c)

/-- The offers that received a value on `c` with the values, in order. -/
def delivered (κ : Chans) (c : ChanId) : List (WaiterId × Bytes) :=
  κ.log.filterMap (Event.deliveredOn c)

variable {κ κ' κ'' : Chans} {c : ChanId} {w offer : WaiterId} {l : List Event}

/-- What is added to the log says which sends completed since. -/
theorem sent_append (h : κ'.log = κ.log ++ l) :
    κ'.sent c = κ.sent c ++ l.filterMap (Event.sentOn c) := by
  unfold sent
  rw [h, List.filterMap_append]

/-- What is added to the log says which values were delivered since. -/
theorem delivered_append (h : κ'.log = κ.log ++ l) :
    κ'.delivered c = κ.delivered c ++ l.filterMap (Event.deliveredOn c) := by
  unfold delivered
  rw [h, List.filterMap_append]

/-- What was added to the log moves no value. -/
def Still (κ κ' : Chans) : Prop :=
  ∃ l, κ'.log = κ.log ++ l ∧ ∀ e ∈ l, e.moves = false

namespace Still

theorem of_eq (h : κ'.log = κ.log) : Still κ κ' := ⟨[], by simp [h], by simp⟩

theorem refl (κ : Chans) : Still κ κ := of_eq rfl

theorem trans (h : Still κ κ') (h' : Still κ' κ'') : Still κ κ'' := by
  obtain ⟨l, hl, hall⟩ := h
  obtain ⟨l', hl', hall'⟩ := h'
  refine ⟨l ++ l', by rw [hl', hl, List.append_assoc], fun e he => ?_⟩
  rcases List.mem_append.mp he with he | he
  · exact hall e he
  · exact hall' e he

/-- Recording an event that moves no value. -/
theorem record {e : Event} (he : e.moves = false) : Still κ (κ.record e) :=
  ⟨[e], rfl, by simpa using he⟩

/-- Without a movement nothing was sent. -/
theorem sent (h : Still κ κ') (c : ChanId) : κ'.sent c = κ.sent c := by
  obtain ⟨l, hl, hall⟩ := h
  rw [sent_append hl, List.filterMap_eq_nil_iff.mpr fun e he => e.sentOn_of_still (hall e he) c,
    List.append_nil]

/-- Without a movement nothing was delivered. -/
theorem delivered (h : Still κ κ') (c : ChanId) : κ'.delivered c = κ.delivered c := by
  obtain ⟨l, hl, hall⟩ := h
  rw [delivered_append hl,
    List.filterMap_eq_nil_iff.mpr fun e he => e.deliveredOn_of_still (hall e he) c,
    List.append_nil]

end Still

/-! ## The pieces of an attempt -/

/-- Completing a waiter logs the wake of its task. -/
@[simp] theorem completed_log (status : SelectStatus) : (κ.completed w status).log =
    κ.log ++ [.woken (κ.waiter w).task w.call true] := by
  unfold completed markDone
  split <;> rfl

/-- A value handed to a receiver is logged as a handoff, before the wake of the receiver. -/
theorem handedTo_log (value : Addr) (dead rest : List WaiterId) :
    (κ.handedTo c offer w value dead rest).log = κ.log ++
      [.handoff c offer w (κ.waiter w).valueSlot (κ.valueAt c value),
        .woken (κ.waiter w).task w.call true] := by
  simp [handedTo, record, copyValue]

/-- A value taken from a sender is logged as a handoff, before the wake of the sender. -/
theorem takenFrom_log (out : Addr) (dead rest : List WaiterId) :
    (κ.takenFrom c offer w out dead rest).log = κ.log ++
      [.handoff c w offer out (κ.valueAt c (κ.waiter w).valueSlot),
        .woken (κ.waiter w).task w.call true] := by
  simp [takenFrom, record, copyValue]

/-- A sender whose value moves into the buffer is logged as buffered, before its wake. -/
theorem bufferedFrom_log (dead rest : List WaiterId) :
    (κ.bufferedFrom c w dead rest).log = κ.log ++
      [.buffered c w (κ.valueAt c (κ.waiter w).valueSlot),
        .woken (κ.waiter w).task w.call true] := by
  simp [bufferedFrom, record, bufferPush, setChan]

/-- A value taken from the buffer is logged as taken. -/
theorem tookBuffered_log (out : Addr) (v : Bytes) (rest : List Bytes) :
    (κ.tookBuffered c offer out v rest).log = κ.log ++ [.taken c offer out v] := rfl

end Chans

/-! ## Closing moves no value -/

/-- One round of a close moves no value. -/
theorem CloseRound.still {o : Oracle} {c : ChanId} {op : Direction} {w : WaiterId}
    {rest : List WaiterId} {s s' : Sys} (h : CloseRound o c op w rest s s') :
    s.ch.Still s'.ch := by
  cases h with
  | skipped hkind hskip => exact .of_eq rfl
  | selected hkind hlive hwake =>
      exact ⟨[.closed c w (s.ch.chan c).closed, .woken (s.ch.waiter w).task w.call true],
        by simp [Chans.record], by simp [Event.moves]⟩
  | regular hkind hwake =>
      exact ⟨[.closed c w (s.ch.chan c).closed, .woken (s.ch.waiter w).task w.call false],
        by simp [Chans.record], by simp [Event.moves]⟩

/-- Waking a queue as closed moves no value. -/
theorem wakeAllAsClosedLocked_still {o : Oracle} {s s' : Sys} {c : ChanId} {op : Direction}
    (h : wakeAllAsClosedLocked o s c op = .ok s') : s.ch.Still s'.ch :=
  wakeAllAsClosed_induct (I := fun _ x => s.ch.Still x.ch)
    (fun _ _ _ _ hI hround => hI.trans hround.still) _ (.refl _) h

/-- A close moves no value. -/
theorem channelCloseLocked_still {o : Oracle} {s s' : Sys} {c : ChanId}
    (h : channelCloseLocked o s c = .ok s') : s.ch.Still s'.ch := by
  rcases channelCloseLocked_ok h with ⟨_, rfl⟩ | ⟨_, s1, hsend, hrecv⟩
  · exact .refl _
  · have hmark : s.ch.Still (s.ch.markClosed c) := .of_eq rfl
    have hdrain := wakeAllAsClosedLocked_still hsend
    exact (hmark.trans hdrain).trans (wakeAllAsClosedLocked_still hrecv)

/-- The closes of a shutdown move no value. -/
theorem shutdownAll_still {o : Oracle} {s s' : Sys}
    (h : croutineChannelShutdownAllLocked o s = .ok s') : s.ch.Still s'.ch :=
  Res.foldlM_induct (I := fun x => s.ch.Still x.ch)
    (fun _ _ _ hI hclose => hI.trans (channelCloseLocked_still hclose)) _ (.refl _) h

/-- An attempt that blocks leaves the log alone. -/
theorem TryCase.log_of_blocked {o : Oracle} {s s' : Sys} {offer : WaiterId} {cs : SelectCase}
    (h : TryCase o s offer cs s' none) : s'.ch.log = s.ch.log := by
  rcases h.blocked_cases with ⟨_, rfl⟩ | ⟨c, _, _, _, _, rfl⟩
  · rfl
  · rfl

end Croutine
