import Croutine.ChanForm

/-!
# Waiters wait on open channels

A call parks only after every attempt it had to make was refused for lack of a partner,
and no attempt blocks on a closed channel or during shutdown.  Closing a channel wakes
everyone on it.  So a waiter is linked on an open channel only, and never after shutdown
was requested.

This rests on the select having tried all of its cases.  The order it tries them in is
made of `uint32_t` indices, so a select with more than `2 ^ 32` cases does not try all of
them (`fits`), and a case whose `op` is neither a send nor a receive is not tried either,
although it is registered.  `OpenInv` is about the other cases of the selects that fit, in
runs in which anything may happen beside them.  A run whose selects all fit is a
`NarrowRun`; in a `ThoroughRun` every case that has a channel is a send or a receive too.
-/

namespace Croutine

/-- The indices of the cases fit a `uint32_t`. -/
def fits (cases : List SelectCase) : Bool := cases.length ≤ 2 ^ 32

/-- A select with these cases tries every one that has a channel: the indices fit, and the
operations are sends and receives. -/
def triesAll (cases : List SelectCase) : Bool :=
  fits cases && cases.all fun cs => cs.channel.isNone || cs.op ≠ .other

/-- Cases that fit have indices of 32 bits. -/
theorem length_of_fits {cases : List SelectCase} (h : fits cases = true) :
    cases.length ≤ 2 ^ 32 := by
  simpa [fits] using h

/-- A select that tries all its cases fits. -/
theorem fits_of_triesAll {cases : List SelectCase} (h : triesAll cases = true) :
    fits cases = true := by
  simp only [triesAll, Bool.and_eq_true] at h
  exact h.1

/-- A select that tries all its cases has only sends and receives on channels. -/
theorem op_of_triesAll {cases : List SelectCase} (h : triesAll cases = true) {cs : SelectCase}
    (hcs : cs ∈ cases) {c : ChanId} (hc : cs.channel = some c) : cs.op ≠ .other := by
  simp only [triesAll, Bool.and_eq_true, List.all_eq_true] at h
  have hop := h.2 cs hcs
  rw [hc] at hop
  simpa using hop

/-- A select of sends and receives that is not too long tries all its cases. -/
theorem triesAll_of_ops {cases : List SelectCase} (hn : cases.length ≤ 2 ^ 32)
    (hops : ∀ cs ∈ cases, cs.op ≠ .other) : triesAll cases = true := by
  simp only [triesAll, fits, Bool.and_eq_true, decide_eq_true_eq, List.all_eq_true,
    Bool.or_eq_true]
  exact ⟨hn, fun cs hcs => .inr (hops cs hcs)⟩

/-- If the call is a select, `q` holds of its cases. -/
def Frame.selects (q : List SelectCase → Bool) : Frame → Bool
  | .select _ cases _ => q cases
  | .user | .single _ _ _ _ | .ioWait => true

/-- A select that has a channel but no case to try. -/
def Frame.Strays : Frame → Prop
  | .select _ cases _ => (∃ cs ∈ cases, cs.channel.isSome) ∧ ∀ cs ∈ cases, cs.Untried
  | .user | .single _ _ _ _ | .ioWait => False

/-- A call that tries all its cases fits. -/
theorem Frame.fits_of_triesAll {frame : Frame} (h : frame.selects triesAll = true) :
    frame.selects fits = true := by
  cases frame with
  | select call cases parked => exact Croutine.fits_of_triesAll h
  | user | ioWait | single op call c parked => rfl

/-- A select that tries all of its cases and has a channel has a case to try. -/
theorem Frame.not_strays {frame : Frame} (h : frame.selects triesAll = true) :
    ¬ frame.Strays := by
  cases frame with
  | select call cases parked =>
      rintro ⟨⟨cs, hcs, hchan⟩, hall⟩
      obtain ⟨c, hc⟩ := Option.isSome_iff_exists.mp hchan
      rcases hall cs hcs with hnone | hother
      · exact absurd (hc.symm.trans hnone) (by simp)
      · exact op_of_triesAll h hcs hc hother
  | user | ioWait | single op call c parked => exact id

/-- The call went on without parking. -/
def Frame.refused : Frame → Bool
  | .single _ _ _ parked | .select _ _ parked => !parked
  | .user | .ioWait => false

/-- Outside a call nothing was refused. -/
theorem Frame.refused_of_no_call {frame : Frame} (h : frame.call = none) :
    frame.refused = false := by
  cases frame <;> first | rfl | simp [Frame.call] at h

/-! ## What operations leave of a channel -/

/-- A channel without its queues. -/
def Channel.bare (ch : Channel) : Channel := { ch with sendWaiters := [], recvWaiters := [] }

namespace Channel

variable {ch ch' : Channel}

/-- The queues are not part of the bare channel. -/
@[simp] theorem bare_setQueue (op : Direction) (q : List WaiterId) :
    (ch.setQueue op q).bare = ch.bare := by
  cases op <;> rfl

/-- The closed flag is part of the bare channel. -/
theorem closed_of_bare (h : ch'.bare = ch.bare) : ch'.closed = ch.closed := by
  have heq := congrArg Channel.closed h
  exact heq

/-- The buffer is part of the bare channel. -/
theorem buffer_of_bare (h : ch'.bare = ch.bare) : ch'.buffer = ch.buffer := by
  have heq := congrArg Channel.buffer h
  exact heq

/-- The capacity is part of the bare channel. -/
theorem capacity_of_bare (h : ch'.bare = ch.bare) : ch'.capacity = ch.capacity := by
  have heq := congrArg Channel.capacity h
  exact heq

end Channel

namespace Chans

variable (κ : Chans) (c c' : ChanId) (op : Direction) (w : WaiterId) (status : SelectStatus)

/-- Dropping waiters from a queue leaves the bare channel. -/
theorem dropHeads_bare (gone rest : List WaiterId) :
    ((κ.dropHeads c op gone rest).chan c').bare = (κ.chan c').bare := by
  rw [dropHeads_chan]
  split
  · next h => rw [h, Channel.bare_setQueue]
  · rfl

/-- Completing a waiter writes no channel. -/
@[simp] theorem completed_chan : (κ.completed w status).chan = κ.chan := by
  unfold completed markDone
  split <;> rfl

/-- A value put into the buffer closes no channel. -/
theorem bufferPush_closed (v : Bytes) :
    ((κ.bufferPush c v).chan c').closed = (κ.chan c').closed := by
  unfold bufferPush setChan
  by_cases h : c' = c
  · subst h; simp
  · simp [h]

/-- A value taken from the buffer closes no channel. -/
theorem tookBuffered_closed (offer : WaiterId) (out : Addr) (v : Bytes) (rest : List Bytes) :
    ((κ.tookBuffered c offer out v rest).chan c').closed = (κ.chan c').closed := by
  unfold tookBuffered bufferPop setChan
  by_cases h : c' = c
  · subst h; simp [record, copyValue]
  · simp [record, copyValue, h]

end Chans

/-- A send attempt closes no channel. -/
theorem TrySend.closed {o : Oracle} {s s' : Sys} {c : ChanId} {offer : WaiterId} {value : Addr}
    {r : SendResult} (h : TrySend o s c offer value s' r) (c' : ChanId) :
    (s'.ch.chan c').closed = (s.ch.chan c').closed := by
  cases h with
  | refused h => rfl
  | handed hopen hrun hqueue hdead hlive hwake =>
      simp [Chans.handedTo, Chans.record, Chans.copyValue]
  | buffered hopen hrun hdead hroom =>
      show ((Chans.bufferPush _ _ _).chan c').closed = _
      rw [Chans.bufferPush_closed, Chans.dropHeads_closed]
  | blocked hopen hrun hdead hfull => simp

/-- A receive attempt closes no channel. -/
theorem TryRecv.closed {o : Oracle} {s s' : Sys} {c : ChanId} {offer : WaiterId} {out : Addr}
    {r : RecvResult} (h : TryRecv o s c offer out s' r) (c' : ChanId) :
    (s'.ch.chan c').closed = (s.ch.chan c').closed := by
  cases h with
  | taken hbuffer hskip => exact Chans.tookBuffered_closed _ _ _ _ _ _ _
  | drained hbuffer hopen hdead =>
      rw [Chans.dropHeads_closed]
      exact Chans.tookBuffered_closed _ _ _ _ _ _ _
  | refilled hbuffer hopen hroom hqueue hdead hlive hwake =>
      unfold Chans.bufferedFrom
      rw [Chans.completed_chan]
      show ((Chans.bufferPush _ _ _).chan c').closed = _
      rw [Chans.bufferPush_closed, Chans.dropHeads_closed]
      exact Chans.tookBuffered_closed _ _ _ _ _ _ _
  | direct hbuffer hqueue hdead hlive hwake =>
      simp [Chans.takenFrom, Chans.record, Chans.copyValue]
  | refused hbuffer hdead h => simp [Chans.record]
  | blocked hbuffer hdead hopen hrun => simp

/-- The attempt of a case closes no channel. -/
theorem TryCase.closed {o : Oracle} {s s' : Sys} {offer : WaiterId} {cs : SelectCase}
    {fired : Option SelectStatus} (h : TryCase o s offer cs s' fired) (c : ChanId) :
    (s'.ch.chan c).closed = (s.ch.chan c).closed := by
  cases h with
  | untried huntried => rfl
  | send hchan hop h => exact h.closed c
  | recv hchan hop h => exact h.closed c

/-- A send or a receive blocks only on an open channel, and only before the shutdown. -/
theorem TryCase.open_of_blocked {o : Oracle} {s s' : Sys} {offer : WaiterId} {cs : SelectCase}
    {c : ChanId} (h : TryCase o s offer cs s' none) (hc : cs.channel = some c)
    (hop : cs.op ≠ .other) : (s.ch.chan c).closed = false ∧ s.shutdownRequested = false := by
  rcases h.blocked_cases with ⟨hnone | hother, _⟩ | ⟨c', hc', hopen, hrun, _⟩
  · exact absurd (hc.symm.trans hnone) (by simp)
  · exact absurd hother hop
  · obtain rfl := Option.some.inj (hc.symm.trans hc')
    exact ⟨hopen, hrun⟩

/-- Nothing was shut down where a send or a receive blocks. -/
theorem TryCase.runs_of_blocked {o : Oracle} {s s' : Sys} {offer : WaiterId} {c : ChanId}
    {op : Direction} {slot : Addr} (h : TryCase o s offer ⟨some c, op, slot⟩ s' none) :
    s'.shutdownRequested = false := by
  rw [h.wakes.sameCore.shutdownRequested]
  exact (h.open_of_blocked rfl op.op_ne_other).2

/-! ## What a close leaves of a channel -/

/-- One round of a close leaves the bare channels. -/
theorem CloseRound.bare {o : Oracle} {c : ChanId} {op : Direction} {w : WaiterId}
    {rest : List WaiterId} {s s' : Sys} (h : CloseRound o c op w rest s s') (c' : ChanId) :
    (s'.ch.chan c').bare = (s.ch.chan c').bare := by
  cases h with
  | skipped hkind hskip => exact Chans.dropHeads_bare _ _ _ _ _ _
  | selected hkind hlive hwake =>
      rw [Chans.completed_chan]
      exact Chans.dropHeads_bare s.ch c c' op [w] rest
  | regular hkind hwake => exact Chans.dropHeads_bare s.ch c c' op [w] rest

/-- Waking a queue as closed leaves the bare channels. -/
theorem wakeAllAsClosedLocked_bare {o : Oracle} {s s' : Sys} {c : ChanId} {op : Direction}
    (h : wakeAllAsClosedLocked o s c op = .ok s') (c' : ChanId) :
    (s'.ch.chan c').bare = (s.ch.chan c').bare :=
  wakeAllAsClosed_induct (I := fun _ x => (x.ch.chan c').bare = (s.ch.chan c').bare)
    (fun _ _ _ _ hI hround => (hround.bare c').trans hI) _ rfl h

/-- A move of waiters unlinks some of them and changes nothing else of any waiter. -/
theorem WaitMoves.waiter {s s' : Sys} (h : WaitMoves s s') (w : WaiterId) :
    s'.ch.waiter w = s.ch.waiter w ∨
      s'.ch.waiter w = { s.ch.waiter w with channel := none } := by
  refine WaitMoves.invariant (I := fun x => x.ch.waiter w = s.ch.waiter w ∨
    x.ch.waiter w = { s.ch.waiter w with channel := none }) h ?_ (.inl rfl)
  intro x x' hx hmove
  cases hmove with
  | quiet hsame => rw [hsame.waiter]; exact hx
  | @dead c op v rest hqueue hdead =>
      rw [Chans.waiter_dropHeads]
      split
      · rcases hx with heq | heq <;> rw [heq] <;> exact .inr rfl
      · exact hx
  | @wake o c op v rest success status s1 hqueue hlive hwake =>
      rw [Chans.waiter_popWoken]
      split
      · rcases hx with heq | heq <;> rw [heq] <;> exact .inr rfl
      · exact hx

/-- Moves of waiters leave what the waiters want. -/
theorem WaitMoves.op {s s' : Sys} (h : WaitMoves s s') (w : WaiterId) :
    (s'.ch.waiter w).op = (s.ch.waiter w).op := by
  rcases h.waiter w with heq | heq <;> rw [heq]

/-- Moves of waiters link nobody. -/
theorem WaitMoves.linked_before {s s' : Sys} (h : WaitMoves s s') {w : WaiterId} {c : ChanId}
    (hw : (s'.ch.waiter w).channel = some c) : (s.ch.waiter w).channel = some c := by
  rcases h.waiter w with heq | heq <;> rw [heq] at hw
  · exact hw
  · exact absurd hw (by simp)

/-- Moves of waiters only shorten queues. -/
theorem WaitMoves.queue {s s' : Sys} (h : WaitMoves s s') (c : ChanId) (op : Direction) :
    (s'.ch.queue c op).Sublist (s.ch.queue c op) := by
  refine WaitMoves.invariant (I := fun x => (x.ch.queue c op).Sublist (s.ch.queue c op)) h ?_
    (List.Sublist.refl _)
  intro x x' hx hmove
  cases hmove with
  | quiet hsame => rw [hsame.queue]; exact hx
  | @dead c' op' v rest hqueue hdead =>
      rw [Chans.queue_dropHeads]
      split
      · next heq =>
        rw [heq.1, heq.2] at hx ⊢
        exact (List.sublist_of_cons_sublist (hqueue ▸ hx))
      · exact hx
  | @wake o c' op' v rest success status s1 hqueue hlive hwake =>
      rw [Chans.queue_popWoken]
      split
      · next heq =>
        rw [heq.1, heq.2] at hx ⊢
        exact (List.sublist_of_cons_sublist (hqueue ▸ hx))
      · exact hx

/-- Closing an open channel sets its flag and empties its queues. -/
theorem channelCloseLocked_empties {o : Oracle} {s s' : Sys} {c : ChanId}
    (h : channelCloseLocked o s c = .ok s') :
    (s'.ch.chan c).closed = true ∧
      ((s.ch.chan c).closed = false → ∀ op, s'.ch.queue c op = []) := by
  rcases channelCloseLocked_ok h with ⟨hclosed, rfl⟩ | ⟨hopen, s1, hsend, hrecv⟩
  · exact ⟨hclosed, fun habs => absurd (hclosed.symm.trans habs) (by simp)⟩
  · have hbare := (wakeAllAsClosedLocked_bare hrecv c).trans (wakeAllAsClosedLocked_bare hsend c)
    obtain ⟨hmoves, hempty⟩ := wakeAllAsClosedLocked_moves hrecv
    refine ⟨?_, fun _ op => ?_⟩
    · rw [Channel.closed_of_bare hbare]
      simp [Chans.markClosed, Chans.setChan]
    · cases op with
      | send =>
          have hsub := hmoves.queue c .send
          rw [(wakeAllAsClosedLocked_moves hsend).2, List.sublist_nil] at hsub
          exact hsub
      | recv => exact hempty

/-- The flags of the other channels stay as they are. -/
theorem channelCloseLocked_closed {o : Oracle} {s s' : Sys} {c c' : ChanId}
    (h : channelCloseLocked o s c = .ok s') (hne : c' ≠ c) :
    (s'.ch.chan c').closed = (s.ch.chan c').closed := by
  rw [channelCloseLocked_onlyAt h c' hne]

/-- A channel that is closed stays so. -/
theorem channelCloseLocked_stays {o : Oracle} {s s' : Sys} {c c' : ChanId}
    (h : channelCloseLocked o s c = .ok s') (hc' : (s.ch.chan c').closed = true) :
    (s'.ch.chan c').closed = true := by
  by_cases heq : c' = c
  · rw [heq]; exact (channelCloseLocked_empties h).1
  · rw [channelCloseLocked_closed h heq]; exact hc'

/-- Shutdown closes every registered channel and empties those that were open. -/
theorem shutdownAll_empties {o : Oracle} {s s' : Sys}
    (h : croutineChannelShutdownAllLocked o s = .ok s') :
    (∀ c ∈ s.ch.registry, (s'.ch.chan c).closed = true) ∧
      ∀ c ∈ s.ch.registry, (s.ch.chan c).closed = false → ∀ op, s'.ch.queue c op = [] := by
  unfold croutineChannelShutdownAllLocked at h
  generalize s.ch.registry = l at h ⊢
  induction l generalizing s with
  | nil => exact ⟨by simp, by simp⟩
  | cons c rest ih =>
      rw [List.foldlM_cons, Res.bind_ok] at h
      obtain ⟨s1, hclose, hrest⟩ := h
      obtain ⟨hclosed, hempty⟩ := ih hrest
      obtain ⟨hflag, hdrain⟩ := channelCloseLocked_empties hclose
      have hmoves : WaitMoves s1 s' := Res.foldlM_induct (I := fun x => WaitMoves s1 x)
        (fun _ _ _ hI hc => hI.trans (channelCloseLocked_moves hc)) _ .refl hrest
      have hstays : (s'.ch.chan c).closed = true :=
        Res.foldlM_induct (I := fun x => (x.ch.chan c).closed = true)
          (fun _ _ _ hI hc => channelCloseLocked_stays hc hI) _ hflag hrest
      refine ⟨fun x hx => ?_, fun x hx hopen op => ?_⟩
      · rcases List.mem_cons.mp hx with rfl | hx
        · exact hstays
        · exact hclosed x hx
      · by_cases heq : x = c
        · subst heq
          have hsub := hmoves.queue x op
          rw [hdrain hopen op, List.sublist_nil] at hsub
          exact hsub
        · have hx' : x ∈ rest := (List.mem_cons.mp hx).resolve_left heq
          refine hempty x hx' ?_ op
          rw [channelCloseLocked_closed hclose heq]
          exact hopen

/-! ## The invariant -/

/-- A select that parked and is not done is asleep. -/
def Asleep (κ : Chans) (tasks : TaskId → Task) : Prop :=
  ∀ t k cases, (tasks t).frame = .select k cases true → (κ.select k).done = false →
    (tasks t).state = .waitingChannel

/-- Of the calls whose cases fit: the waiters of the cases they tried are linked on open
channels and not during shutdown, and those that had a case to try did park. -/
structure OpenInv (κ : Chans) (tasks : TaskId → Task) (shutdown : Bool) : Prop where
  linked : ∀ t, (tasks t).frame.selects fits = true → ∀ w c,
    (tasks t).frame.call = some w.call → (κ.waiter w).channel = some c →
    (κ.waiter w).op ≠ .other → (κ.chan c).closed = false ∧ shutdown = false
  parked : ∀ t, (tasks t).frame.selects fits = true → (tasks t).frame.refused = true →
    (tasks t).frame.Strays
  asleep : Asleep κ tasks

/-- A wake of the task marks its select done. -/
theorem Asleep.moves {s s' : Sys} (h : Asleep s.ch s.tasks) (hwait : WaitInv s.ch s.tasks)
    (hmoves : WaitMoves s s') : Asleep s'.ch s'.tasks := by
  refine (WaitMoves.invariant (I := fun x => WaitInv x.ch x.tasks ∧ Asleep x.ch x.tasks) hmoves ?_
    ⟨hwait, h⟩).2
  intro x x' ⟨hw, hs⟩ hmove
  refine ⟨hw.move hmove, ?_⟩
  cases hmove with
  | quiet hsame =>
      intro u j cases hu hdone
      rw [hsame.select] at hdone
      exact hs u j cases hu hdone
  | dead hqueue hdead => exact hs
  | @wake o c op w rest success status s1 hqueue hlive hwake =>
      intro u j cases hu hd
      have hwoke := workerWakeTaskLocked_task hwake
      have hlink := hw.linked_head hqueue
      have hf : (x.tasks u).frame = .select j cases true := (hwoke.frame u).symm.trans hu
      by_cases hut : u = (x.ch.waiter w).task
      · have howns := hw.owner w hlink
        rw [← hut, hf] at howns
        have hdone := @Chans.select_popWoken_self x.ch c op w rest success status j howns.2.1
          howns.2.2.1
        exact absurd ((congrArg SelectState.done hdone).symm.trans hd) (by simp)
      · show (s1.tasks u).state = _
        rw [hwoke.other u hut]
        refine hs u j cases hf ?_
        rw [Chans.select_popWoken_of_ne] at hd
        · exact hd
        · intro hkind habs
          rw [hw.state_eq hlink hkind] at habs
          refine hut (hw.owner_eq hlink ?_).symm
          rw [hf, habs]
          rfl

/-- A live waiter of a call that parked belongs to a task that waits. -/
theorem WaitInv.waiting_of_live {κ : Chans} {tasks : TaskId → Task} {w : WaiterId}
    (h : WaitInv κ tasks) (hasleep : Asleep κ tasks)
    (hparked : (tasks (κ.waiter w).task).frame.refused = false) (hw : (κ.waiter w).channel ≠ none)
    (hlive : κ.live w = true) : (tasks (κ.waiter w).task).state = .waitingChannel := by
  have howns := h.owner w hw
  cases hf : (tasks (κ.waiter w).task).frame with
  | user | ioWait => rw [hf] at howns; exact howns.elim
  | single op call c parked =>
      rw [hf] at howns
      exact h.single _ op call c parked hf (by rw [← howns.1]; exact hw)
  | select call cases parked =>
      rw [hf] at howns hparked
      obtain rfl : parked = true := by simpa [Frame.refused] using hparked
      refine hasleep _ call cases hf ?_
      unfold Chans.live at hlive
      rw [howns.2.1, howns.2.2.1] at hlive
      simpa using hlive

namespace OpenInv

variable {κ κ' : Chans} {tasks tasks' : TaskId → Task} {down : Bool} {t : TaskId} {k : CallId}

/-- Only the links, what linked waiters want, the flags of their channels and the select states
matter. -/
theorem congr (h : OpenInv κ tasks down)
    (hwaiter : ∀ w c, (κ'.waiter w).channel = some c →
      (κ.waiter w).channel = some c ∧ (κ'.waiter w).op = (κ.waiter w).op)
    (hclosed : ∀ w c, (κ'.waiter w).channel = some c →
      (κ'.chan c).closed = (κ.chan c).closed)
    (hselect : κ'.select = κ.select) : OpenInv κ' tasks down := by
  refine ⟨fun u hn w c hcall hw hop => ?_, h.parked, fun u j cases hu hdone => ?_⟩
  · obtain ⟨hold, hsame⟩ := hwaiter w c hw
    rw [hsame] at hop
    rw [hclosed w c hw]
    exact h.linked u hn w c hcall hold hop
  · rw [hselect] at hdone
    exact h.asleep u j cases hu hdone

/-- A step that leaves frames and sleepers keeps the invariant. -/
theorem keeps (h : OpenInv κ tasks down) (hk : KeepsChan tasks tasks') :
    OpenInv κ tasks' down := by
  refine ⟨fun u hn w c hu hw hop => ?_, fun u hn hr => ?_, fun u j cases hu hdone => ?_⟩
  · have heq := hk.frame_of_call hu
    rw [heq] at hn hu
    exact h.linked u hn w c hu hw hop
  · rcases hk.frame u with heq | ⟨hnew, _⟩
    · rw [heq] at hn hr ⊢
      exact h.parked u hn hr
    · exact absurd (hr.symm.trans (Frame.refused_of_no_call hnew)) (by simp)
  · have heq := hk.frame_of_call (t := u) (k := j) (by rw [hu]; rfl)
    rw [heq] at hu
    exact (hk.state u).mpr (h.asleep u j cases hu hdone)

/-- Waiters are popped and their tasks woken.  The waiters that stay linked are on
channels whose flag did not change. -/
theorem moves {s s' : Sys} (h : OpenInv s.ch s.tasks down) (hwait : WaitInv s.ch s.tasks)
    (hmoves : WaitMoves s s')
    (hclosed : ∀ w c, (s'.ch.waiter w).channel = some c →
      (s'.ch.chan c).closed = (s.ch.chan c).closed) : OpenInv s'.ch s'.tasks down := by
  have hframe := hmoves.keeps.2.2.2
  refine ⟨fun u hn w c hcall hw hop => ?_, fun u hn hr => ?_, h.asleep.moves hwait hmoves⟩
  · rw [hframe] at hn hcall
    rw [hmoves.op] at hop
    rw [hclosed w c hw]
    exact h.linked u hn w c hcall (hmoves.linked_before hw) hop
  · rw [hframe] at hn hr ⊢
    exact h.parked u hn hr

/-- A task enters the call `k`. -/
theorem enter {τ : Task} (h : OpenInv κ tasks down) (hfresh : ∀ u, (tasks u).frame.call ≠ some k)
    (hcall : τ.frame.call = some k) (hother : ∀ w, w.call ≠ k → κ'.waiter w = κ.waiter w)
    (hclosed : ∀ c, (κ'.chan c).closed = (κ.chan c).closed)
    (hselect : ∀ j, j ≠ k → κ'.select j = κ.select j)
    (hnew : τ.frame.selects fits = true → (∀ w c, w.call = k →
      (κ'.waiter w).channel = some c → (κ'.waiter w).op ≠ .other →
        (κ.chan c).closed = false ∧ down = false) ∧
      (τ.frame.refused = true → τ.frame.Strays))
    (hwaits : τ.frame.refused = false → τ.state = .waitingChannel) :
    OpenInv κ' (Function.update tasks t τ) down := by
  have hne : ∀ u j, (tasks u).frame.call = some j → j ≠ k := by
    rintro u j hu rfl
    exact hfresh u hu
  refine ⟨fun u => ?_, fun u => ?_, fun u => ?_⟩ <;> by_cases hu : u = t
  · subst hu
    rw [Function.update_self]
    intro hn w c hw hlink hop
    rw [hcall] at hw
    rw [hclosed]
    exact (hnew hn).1 w c (Option.some.inj hw).symm hlink hop
  · rw [Function.update_of_ne hu]
    intro hn w c hw hlink hop
    rw [hother w (hne u _ hw)] at hlink hop
    rw [hclosed]
    exact h.linked u hn w c hw hlink hop
  · subst hu
    rw [Function.update_self]
    exact fun hn => (hnew hn).2
  · rw [Function.update_of_ne hu]
    exact h.parked u
  · subst hu
    rw [Function.update_self]
    intro j cases hf _
    exact hwaits (by rw [hf]; rfl)
  · rw [Function.update_of_ne hu]
    intro j cases hf hdone
    rw [hselect j (hne u j (by rw [hf]; rfl))] at hdone
    exact h.asleep u j cases hf hdone

/-- A task returns from its call. -/
theorem leave {τ : Task} (h : OpenInv κ tasks down) (hτ : τ.frame = .user) :
    OpenInv κ (Function.update tasks t τ) down := by
  refine ⟨fun u => ?_, fun u => ?_, fun u => ?_⟩ <;> by_cases hu : u = t
  · subst hu
    rw [Function.update_self, hτ]
    intro _ w c hw
    exact absurd hw (by simp [Frame.call])
  · rw [Function.update_of_ne hu]; exact h.linked u
  · subst hu
    rw [Function.update_self, hτ]
    exact fun _ habs => absurd habs (by simp [Frame.refused])
  · rw [Function.update_of_ne hu]; exact h.parked u
  · subst hu
    rw [Function.update_self, hτ]
    intro j cases hf
    exact absurd hf (by simp)
  · rw [Function.update_of_ne hu]; exact h.asleep u

variable {s s' : Sys}

/-- Taking waiters out keeps the invariant. -/
theorem without (h : OpenInv κ tasks down) (gone : WaiterId → Bool) :
    OpenInv (κ.without gone) tasks down := by
  refine h.congr (fun w c hw => ?_) (fun _ _ _ => rfl) rfl
  unfold Chans.without at hw ⊢
  dsimp only at hw ⊢
  split at hw
  · exact absurd hw (by simp)
  · next hstays => exact ⟨hw, by rw [if_neg hstays]⟩

theorem ticked (h : OpenInv s.ch s.tasks down) : OpenInv s.ticked.ch s.ticked.tasks down :=
  h.congr (fun _ _ hw => ⟨hw, rfl⟩) (fun _ _ _ => rfl) rfl

/-- The state after the attempt of a call. -/
theorem attempt {s1 : Sys} {o : Oracle} {offer : WaiterId} {cs : SelectCase}
    {fired : Option SelectStatus} (h : OpenInv s.ch s.tasks down) (hwait : WaitInv s.ch s.tasks)
    (htry : TryCase o s.ticked offer cs s1 fired) : OpenInv s1.ch s1.tasks down :=
  h.ticked.moves hwait.ticked htry.moves fun _ c _ => htry.closed c

/-- Parking a send or a receive that would block keeps the invariant. -/
theorem parkSingle {s1 : Sys} {o : Oracle} {c : ChanId} {op : Direction} {slot : Addr}
    {w : WorkerId} (h : OpenInv s.ch s.tasks s.shutdownRequested)
    (hwait : WaitInv s.ch s.tasks)
    (htry : TryCase o s.ticked ⟨s.ch.clock, 0⟩ ⟨some c, op, slot⟩ s1 none) :
    OpenInv (parkOnChannel s1 w t op s.ch.clock c slot).ch
      (parkOnChannel s1 w t op s.ch.clock c slot).tasks s.shutdownRequested := by
  obtain ⟨hopen, hrun⟩ := htry.open_of_blocked rfl op.op_ne_other
  obtain ⟨hch, htasks⟩ := @parkOnChannel_eq s1 w t op s.ch.clock c slot htry.runs_of_blocked
  have h1 := h.attempt hwait htry
  have hwait1 := hwait.ticked.moves htry.moves
  obtain ⟨_, hfresh⟩ := hwait.fresh htry.moves
  rw [hch, htasks]
  refine h1.enter (k := s.ch.clock) hfresh rfl (fun y hy => ?_)
    (Chans.OnlyQueues.park _ _ _ _).closed
    (fun j _ => by rw [(Chans.OnlyQueues.park _ _ _ _).select])
    (fun _ => ⟨fun y c' hy hlink _ => ?_, fun habs => absurd habs (by simp [Frame.refused])⟩)
    fun _ => rfl
  · rw [Chans.waiter_park, Function.update_of_ne]
    rintro rfl
    exact hy rfl
  · rw [Chans.waiter_park] at hlink
    by_cases hyk : y = ⟨s.ch.clock, 0⟩
    · rw [hyk, Function.update_self] at hlink
      obtain rfl := Option.some.inj hlink
      rw [htry.closed c]
      exact ⟨hopen, hrun⟩
    · rw [Function.update_of_ne hyk,
        hwait1.unlinked_of_no_call (by rw [hy]; exact hfresh)] at hlink
      exact absurd hlink (by simp)

/-- A select that parks has found all of its channels open. -/
theorem parkSelect {o : Oracle} {cases : List SelectCase} {w : WorkerId}
    {gone : WaiterId → Bool} (h : OpenInv s.ch s.tasks s.shutdownRequested)
    (hwait : WaitInv s.ch s.tasks) (hsome : ∃ cs ∈ cases, cs.channel.isSome)
    (hall : cases.length ≤ 2 ^ 32 → ∀ i cs, cases[i]? = some cs →
      ∃ s1, TryCase o s.ticked ⟨s.ch.clock, i⟩ cs s1 none) :
    let s' := workerParkCurrentOnChannelLocked
      { s with
        ch := selectRegister t s.ch.clock 0 cases
          ((s.ch.tick.without gone).setSelect s.ch.clock {}) }
      w t (.select s.ch.clock cases)
    OpenInv s'.ch s'.tasks s.shutdownRequested := by
  have h0 : OpenInv (s.ch.tick.without gone) s.tasks s.shutdownRequested := h.ticked.without gone
  have hfresh : ∀ u, (s.tasks u).frame.call ≠ some s.ch.clock :=
    fun u hu => Nat.lt_irrefl _ (hwait.calls u _ hu)
  have honly := selectRegister_only (t := t) (k := s.ch.clock) cases 0
    ((s.ch.tick.without gone).setSelect s.ch.clock {})
  -- the channels of a select that tried all of its cases
  have hopen : fits cases = true → ∀ cs ∈ cases, ∀ c, cs.channel = some c → cs.op ≠ .other →
      (s.ch.chan c).closed = false ∧ s.shutdownRequested = false := by
    intro hfits cs hcs c hc hop
    obtain ⟨i, hi⟩ := List.getElem?_of_mem hcs
    obtain ⟨s1, htry⟩ := hall (length_of_fits hfits) i cs hi
    exact htry.open_of_blocked hc hop
  have hlinked : fits cases = true → ∀ y c, y.call = s.ch.clock →
      ((selectRegister t s.ch.clock 0 cases
        ((s.ch.tick.without gone).setSelect s.ch.clock {})).waiter y).channel = some c →
      ((selectRegister t s.ch.clock 0 cases
        ((s.ch.tick.without gone).setSelect s.ch.clock {})).waiter y).op ≠ .other →
      ((s.ch.tick.without gone).chan c).closed = false ∧ s.shutdownRequested = false := by
    intro hfits y c hy hlink hop
    obtain ⟨call, j⟩ := y
    obtain rfl : call = s.ch.clock := hy
    rcases Nat.lt_or_ge j cases.length with hlt | hge
    · have hget := List.getElem?_eq_getElem hlt
      have hreg := selectRegister_waiter_case (t := t) (k := s.ch.clock) cases 0
        ((s.ch.tick.without gone).setSelect s.ch.clock {}) hget
      rw [Nat.zero_add] at hreg
      rw [hreg] at hlink hop
      exact hopen hfits _ (List.getElem_mem hlt) c hlink hop
    · rw [selectRegister_waiter_beyond cases 0 _ (by omega)] at hlink
      have hfree : (s.ch.waiter ⟨s.ch.clock, j⟩).channel = none :=
        hwait.unlinked_of_no_call hfresh
      have hnone : ((s.ch.tick.without gone).waiter ⟨s.ch.clock, j⟩).channel = none := by
        unfold Chans.without
        dsimp only
        split
        · rfl
        · exact hfree
      exact absurd (hnone.symm.trans hlink) (by simp)
  have henter : ∀ {τ : Task}, τ.frame.call = some s.ch.clock →
      (τ.frame.selects fits = true → fits cases = true ∧
        (τ.frame.refused = true → τ.frame.Strays)) →
      (τ.frame.refused = false → τ.state = .waitingChannel) →
      OpenInv (selectRegister t s.ch.clock 0 cases
        ((s.ch.tick.without gone).setSelect s.ch.clock {})) (Function.update s.tasks t τ)
        s.shutdownRequested := by
    intro τ hcall hnew hwaits
    refine h0.enter hfresh hcall (fun y hy => ?_) honly.closed (fun j hj => ?_) (fun hn => ?_)
      hwaits
    · exact selectRegister_waiter_other hy cases 0 _
    · rw [honly.select]
      simp [Chans.setSelect, hj]
    · exact ⟨hlinked (hnew hn).1, (hnew hn).2⟩
  unfold workerParkCurrentOnChannelLocked
  dsimp only
  split
  · next hdown =>
    refine henter rfl (fun hn => ⟨hn, fun _ => ⟨hsome, fun cs hcs => ?_⟩⟩)
      fun habs => absurd habs (by simp [Frame.refused])
    -- an attempt would have fired during shutdown
    by_contra htried
    obtain ⟨hchan, hop⟩ := not_or.mp htried
    obtain ⟨c, hc⟩ := Option.ne_none_iff_exists'.mp hchan
    have hrun := (hopen hn cs hcs c hc hop).2
    exact absurd (hdown.symm.trans hrun) (by simp)
  · exact henter rfl (fun hn => ⟨hn, fun habs => absurd habs (by simp [Frame.refused])⟩)
      fun _ => rfl

/-- Creating a channel keeps the invariant. -/
theorem create (h : OpenInv s.ch s.tasks down) (hwait : WaitInv s.ch s.tasks)
    (elemSize capacity : Nat) (allocOk : Bool) :
    OpenInv (croutineChannelCreate s.ch elemSize capacity allocOk) s.tasks down := by
  unfold croutineChannelCreate
  split
  · exact h
  · refine h.congr (fun w c hw => ⟨hw, rfl⟩) (fun w c hw => ?_) rfl
    have hne : c ≠ s.ch.nextChan :=
      Nat.ne_of_lt (hwait.created c (hwait.registered w c hw))
    simp [Chans.setChan, hne]

/-- Closing a channel keeps the invariant. -/
theorem close {o : Oracle} {c : ChanId} (h : OpenInv s.ch s.tasks down)
    (hwait : WaitInv s.ch s.tasks) (hclose : channelCloseLocked o s c = .ok s') :
    OpenInv s'.ch s'.tasks down := by
  have hmoves := channelCloseLocked_moves hclose
  have hwait' := hwait.moves hmoves
  refine h.moves hwait hmoves fun w c' hw => ?_
  by_cases hc : c' = c
  · subst hc
    obtain ⟨hclosed, hempty⟩ := channelCloseLocked_empties hclose
    cases hflag : (s.ch.chan c').closed with
    | true => exact hclosed
    | false =>
        have hmem : w ∈ s'.ch.queue c' (s'.ch.waiter w).op.direction :=
          hwait'.linked.mem.mpr ⟨hw, rfl⟩
        rw [hempty hflag] at hmem
        exact absurd hmem (by simp)
  · exact channelCloseLocked_closed hclose hc

/-- After shutdown no case that was tried has a waiter left. -/
theorem shutdown {o : Oracle} {s1 : Sys} (h : OpenInv s.ch s.tasks s.shutdownRequested)
    (hwait : WaitInv s.ch s.tasks)
    (hclose : croutineChannelShutdownAllLocked o { s with shutdownRequested := true } = .ok s1) :
    OpenInv s1.ch s1.tasks true := by
  have hmoves := croutineChannelShutdownAllLocked_moves hclose
  have hwait' : WaitInv s1.ch s1.tasks := WaitInv.moves (s := { s with shutdownRequested := true })
    hwait hmoves
  have hframe : ∀ u, (s1.tasks u).frame = (s.tasks u).frame := hmoves.keeps.2.2.2
  have hnone : ∀ u, (s.tasks u).frame.selects fits = true → ∀ w c,
      (s.tasks u).frame.call = some w.call → (s1.ch.waiter w).op ≠ .other →
      (s1.ch.waiter w).channel ≠ some c := by
    intro u hn w c hcall hop hw
    have hold : (s.ch.waiter w).channel = some c := hmoves.linked_before hw
    rw [hmoves.op] at hop
    have hopen := (h.linked u hn w c hcall hold hop).1
    have hempty := (shutdownAll_empties hclose).2 c (hwait.registered w c hold) hopen
    have hmem : w ∈ s1.ch.queue c (s1.ch.waiter w).op.direction :=
      hwait'.linked.mem.mpr ⟨hw, rfl⟩
    rw [hempty] at hmem
    exact absurd hmem (by simp)
  refine ⟨fun u hn w c hcall hw hop => ?_, fun u hn hr => ?_, ?_⟩
  · rw [hframe] at hn hcall
    exact absurd hw (hnone u hn w c hcall hop)
  · rw [hframe] at hn hr ⊢
    exact h.parked u hn hr
  · exact Asleep.moves (s := { s with shutdownRequested := true }) h.asleep hwait hmoves

/-- **Open queues, step.** Every form of a channel step keeps the invariant. -/
theorem chanForm {P : List SelectCase → Prop} (h : OpenInv s.ch s.tasks s.shutdownRequested)
    (hwait : WaitInv s.ch s.tasks) (hform : ChanForm P s s') :
    OpenInv s'.ch s'.tasks s'.shutdownRequested := by
  cases hform with
  | write a bs => exact h.congr (fun _ _ hw => ⟨hw, rfl⟩) (fun _ _ _ => rfl) rfl
  | create elemSize capacity allocOk => exact h.create hwait elemSize capacity allocOk
  | destroy hc =>
      unfold croutineChannelDestroy
      split
      · exact h.congr (fun _ _ hw => ⟨hw, rfl⟩) (fun _ _ _ => rfl) rfl
      · exact h
  | @attempt o i cs s1 fired hreg htry gone hdead e he =>
      have h1 : OpenInv (s1.ch.without gone) s1.tasks s.shutdownRequested :=
        (h.attempt hwait htry).without gone
      show OpenInv _ s1.tasks s1.shutdownRequested
      rw [htry.wakes.sameCore.shutdownRequested]
      exact h1.congr (fun _ _ hw => ⟨hw, rfl⟩) (fun _ _ _ => rfl) rfl
  | @parkSingle o c op slot s1 w t hc htry hpc hframe =>
      have hsame : (parkOnChannel s1 w t op s.ch.clock c slot).shutdownRequested =
          s.shutdownRequested :=
        (workerParkCurrentOnChannelLocked_shutdown _ _ _ _).trans
          htry.wakes.sameCore.shutdownRequested
      rw [hsame]
      exact h.parkSingle hwait htry
  | @parkSelect o cases w t hP hreg hsome gone hdead hall hpc hframe =>
      rw [workerParkCurrentOnChannelLocked_shutdown]
      exact h.parkSelect hwait hsome hall
  | @close o c s1 hc hclose =>
      rw [(channelCloseLocked_wakes hclose).sameCore.shutdownRequested]
      exact h.close hwait hclose
  | @shutdown o θ s1 life hclose =>
      have h1 : OpenInv s1.ch s1.tasks true := h.shutdown hwait hclose
      have hdown : s1.shutdownRequested = true :=
        (croutineChannelShutdownAllLocked_wakes hclose).sameCore.shutdownRequested
      rw [← hdown] at h1
      exact h1
  | returnSingle hpc hframe =>
      exact (h.leave rfl).congr (fun _ _ hw => ⟨hw, rfl⟩) (fun _ _ _ => rfl) rfl
  | @returnSelect w t call cases parked hpc hframe index status =>
      have hscrub := (Scrubbed.scrubSelectWaiters hwait.linked call cases.length).1
      refine (h.leave rfl).congr (fun x c hx => ?_) (fun _ c _ => hscrub.only.closed c)
        hscrub.only.select
      rcases hscrub.waiter x with heq | ⟨_, heq⟩
      · exact ⟨heq ▸ hx, congrArg Waiter.op heq⟩
      · have hx' : ((scrubSelectWaiters call cases.length s.ch).waiter x).channel = some c := hx
        rw [heq] at hx'
        exact absurd hx' (by simp)

/-- **Open queues, run.** The invariant holds in every reachable state. -/
theorem reach {backend : Backend} {allowed : Sys → Action → Prop}
    (h : (runtime backend).ReachVia allowed s) :
    OpenInv s.ch s.tasks s.shutdownRequested := by
  refine Machine.ReachVia.invariant (I := fun x => OpenInv x.ch x.tasks x.shutdownRequested)
    ?_ ?_ h
  · intro x hx
    obtain ⟨wakeFd, workers, runCapacity, ioCapacity, _, _, rfl⟩ := hx
    refine ⟨?_, ?_, ?_⟩ <;> simp [Croutine.initial, Frame.call, Frame.refused, Asleep]
  · intro x a x' hreach hx _ hstep
    rcases step_form hreach hstep with hc | hu
    · exact hx.chanForm (WaitInv.reach hreach) hc
    · rw [hu.ch, hu.shutdown]
      exact hx.keeps hu.tasks

/-- A call that tried all that it waits for was not refused when it parked. -/
theorem not_refused (h : OpenInv κ tasks down)
    (hthorough : (tasks t).frame.selects triesAll = true) : (tasks t).frame.refused = false := by
  by_contra hr
  exact Frame.not_strays hthorough
    (h.parked t (Frame.fits_of_triesAll hthorough) (by simpa using hr))

/-- A send or a receive is not refused once it would block. -/
theorem single_parked (h : OpenInv κ tasks down) {op : Direction} {c : ChanId} {p : Bool}
    (hframe : (tasks t).frame = .single op k c p) : p = true := by
  have hparked := h.not_refused (t := t) (by rw [hframe]; rfl)
  rw [hframe] at hparked
  simpa [Frame.refused] using hparked

/-- **A select that tried all of its cases was not refused** when it parked. -/
theorem select_parked (h : OpenInv κ tasks down) {cases : List SelectCase} {p : Bool}
    (hframe : (tasks t).frame = .select k cases p) (htries : triesAll cases = true) : p = true := by
  have hparked := h.not_refused (t := t) (by rw [hframe]; exact htries)
  rw [hframe] at hparked
  simpa [Frame.refused] using hparked

end OpenInv

/-- A step opens no channel that was closed and takes back no request of shutdown. -/
theorem ChanForm.stays {P : List SelectCase → Prop} {s s' : Sys} (hform : ChanForm P s s')
    (hwait : WaitInv s.ch s.tasks) (hfresh : s.ch.chan s.ch.nextChan = {}) :
    (∀ c, (s.ch.chan c).closed = true → (s'.ch.chan c).closed = true) ∧
      (s.shutdownRequested = true → s'.shutdownRequested = true) := by
  cases hform with
  | write a bs => exact ⟨fun _ => id, id⟩
  | create elemSize capacity allocOk =>
      refine ⟨fun c hc => ?_, id⟩
      unfold croutineChannelCreate
      split
      · exact hc
      · have hne : c ≠ s.ch.nextChan := by
          rintro rfl
          rw [hfresh] at hc
          exact absurd hc (by simp)
        simpa [Chans.setChan, hne] using hc
  | destroy hc =>
      refine ⟨fun c hc => ?_, id⟩
      unfold croutineChannelDestroy
      split <;> exact hc
  | @attempt o i cs s1 fired hreg htry gone hdead e he =>
      refine ⟨fun c hc => ?_, fun hdown => ?_⟩
      · show (s1.ch.chan c).closed = true
        rw [htry.closed c]
        exact hc
      · rw [← hdown]
        exact htry.wakes.sameCore.shutdownRequested
  | @parkSingle o c op slot s1 w t hc htry hpc hframe =>
      have hrun := (htry.open_of_blocked rfl op.op_ne_other).2
      refine ⟨fun c' hc' => ?_, fun hdown => absurd (hdown.symm.trans hrun) (by simp)⟩
      rw [(parkOnChannel_eq htry.runs_of_blocked).1, (Chans.OnlyQueues.park _ _ _ _).closed,
        htry.closed c']
      exact hc'
  | @parkSelect o cases w t hP hreg hsome gone hdead hall hpc hframe =>
      have honly := selectRegister_only (t := t) (k := s.ch.clock) cases 0
        ((s.ch.tick.without gone).setSelect s.ch.clock {})
      rw [workerParkCurrentOnChannelLocked_ch, workerParkCurrentOnChannelLocked_shutdown]
      exact ⟨fun c hc => (honly.closed c).trans hc, id⟩
  | close hc hclose =>
      refine ⟨fun _ => channelCloseLocked_stays hclose, fun hdown => ?_⟩
      rw [← hdown]
      exact (channelCloseLocked_wakes hclose).sameCore.shutdownRequested
  | @shutdown o θ s1 life hclose =>
      refine ⟨fun c hc => ?_, fun _ =>
        (croutineChannelShutdownAllLocked_wakes hclose).sameCore.shutdownRequested⟩
      exact Res.foldlM_induct (I := fun x => (x.ch.chan c).closed = true)
        (fun _ _ _ hI hclose => channelCloseLocked_stays hclose hI) _ hc hclose
  | returnSingle hpc hframe => exact ⟨fun _ => id, id⟩
  | @returnSelect w t call cases parked hpc hframe index status =>
      have hscrub := (Scrubbed.scrubSelectWaiters hwait.linked call cases.length).1
      exact ⟨fun c hc => (hscrub.only.closed c).trans hc, id⟩

/-- Who is linked in the send queue sends. -/
theorem Chans.Linked.op_of_sender {κ : Chans} {c : ChanId} {x : WaiterId} (h : κ.Linked)
    (hx : x ∈ κ.queue c .send) : (κ.waiter x).op ≠ .other := by
  intro hop
  have hdir := (h.mem.mp hx).2
  rw [hop] at hdir
  exact absurd hdir (by decide)

/-! ## Runs without selects that leave cases untried -/

/-- If the action is a select, `q` holds of its cases. -/
def Action.selects (q : List SelectCase → Bool) : Action → Bool
  | .select _ cases _ _ _ => q cases
  | _ => true

/-- Not a select with more than `2 ^ 32` cases. -/
def Action.narrow (a : Action) : Bool := a.selects fits

/-- Not a select that leaves a case with a channel untried. -/
def Action.thorough (a : Action) : Bool := a.selects triesAll

/-- Reached by steps none of which is a select with more than `2 ^ 32` cases. -/
def NarrowRun (backend : Backend) : Sys → Prop :=
  (runtime backend).ReachVia fun _ a => a.narrow = true

/-- Reached by steps none of which is a select with more than `2 ^ 32` cases or with a case
that is neither a send nor a receive. -/
def ThoroughRun (backend : Backend) : Sys → Prop :=
  (runtime backend).ReachVia fun _ a => a.thorough = true

/-- What `chanForm_or_unchanged` asks of an action whose select has cases with `q`. -/
theorem Action.selects_select {q : List SelectCase → Bool} {a : Action} (h : a.selects q = true)
    (θ : Thread) (cases : List SelectCase) (hasDefault : Bool) (choice : SelectChoice) (o : Oracle)
    (ha : a = .select θ cases hasDefault choice o) : q cases = true := by
  subst ha
  exact h

/-- A thorough action is narrow. -/
theorem Action.narrow_of_thorough {a : Action} (h : a.thorough = true) : a.narrow = true := by
  cases a with
  | select θ cases hasDefault choice o => exact fits_of_triesAll h
  | _ => rfl

/-- One task is written, with a frame that passes. -/
theorem Frame.selects_update {q : List SelectCase → Bool} {tasks : TaskId → Task}
    (h : ∀ t, (tasks t).frame.selects q = true) {t : TaskId} {τ : Task}
    (hτ : τ.frame.selects q = true) :
    ∀ u, (Function.update tasks t τ u).frame.selects q = true :=
  (Function.forall_update_iff tasks fun _ x => x.frame.selects q = true).mpr
    ⟨hτ, fun u _ => h u⟩

/-- The calls that a step begins have the cases of the action. -/
theorem ChanForm.selects {q : List SelectCase → Bool} {s s' : Sys}
    (hform : ChanForm (fun cases => q cases = true) s s')
    (h : ∀ t, (s.tasks t).frame.selects q = true) : ∀ t, (s'.tasks t).frame.selects q = true := by
  have hmoved : ∀ {x x' : Sys}, WaitMoves x x' → (∀ t, (x.tasks t).frame.selects q = true) →
      ∀ t, (x'.tasks t).frame.selects q = true := by
    intro x x' hmoves hx t
    rw [hmoves.keeps.2.2.2 t]
    exact hx t
  cases hform with
  | write a bs | create elemSize capacity allocOk | destroy hc => exact h
  | attempt hreg htry hdead he =>
      have h1 := hmoved htry.moves h
      exact h1
  | parkSingle hc htry hpc hframe =>
      have h1 := hmoved htry.moves h
      unfold parkOnChannel workerParkCurrentOnChannelLocked
      dsimp only
      split
      · exact Frame.selects_update h1 rfl
      · exact Frame.selects_update h1 rfl
  | parkSelect hP hreg hsome hdead hall hpc hframe =>
      unfold workerParkCurrentOnChannelLocked
      dsimp only
      split
      · exact Frame.selects_update h hP
      · exact Frame.selects_update h hP
  | close hc hclose => exact hmoved (channelCloseLocked_moves hclose) h
  | shutdown hclose =>
      have h1 := hmoved (croutineChannelShutdownAllLocked_moves hclose) h
      exact h1
  | returnSingle hpc hframe | returnSelect hpc hframe index status =>
      exact Frame.selects_update h rfl

/-- In a run whose selects have cases with `q` so do the calls of its tasks. -/
theorem frames_of_selects {backend : Backend} {q : List SelectCase → Bool} {s : Sys}
    (h : (runtime backend).ReachVia (fun _ a => a.selects q = true) s) :
    ∀ t, (s.tasks t).frame.selects q = true := by
  refine Machine.ReachVia.invariant (I := fun x => ∀ t, (x.tasks t).frame.selects q = true)
    ?_ ?_ h
  · intro x hx
    obtain ⟨wakeFd, workers, runCapacity, ioCapacity, _, _, rfl⟩ := hx
    exact fun _ => rfl
  · intro x a x' hreach hx ha hstep
    rcases chanForm_or_unchanged hreach (Action.selects_select ha) hstep with hc | hu
    · exact hc.selects hx
    · intro t
      rcases hu.tasks.frame t with heq | ⟨hnew, _⟩
      · rw [heq]; exact hx t
      · cases hf : (x'.tasks t).frame with
        | user | ioWait | single op call c parked => rfl
        | select call cases parked => rw [hf] at hnew; simp [Frame.call] at hnew

namespace NarrowRun

variable {backend : Backend} {s : Sys} {c : ChanId} {w : WaiterId}

/-- In a narrow run every select on a stack fits. -/
theorem frames (h : NarrowRun backend s) (t : TaskId) : (s.tasks t).frame.selects fits = true :=
  frames_of_selects h t

/-- A concrete run. -/
theorem after {l : List Action} (hinit : (runtime backend).init s)
    (hnarrow : l.all Action.narrow = true) (hruns : (runtime backend).runs s l = true) :
    NarrowRun backend ((runtime backend).after s l) :=
  Machine.reachVia_after hinit (fun a ha _ => List.all_eq_true.mp hnarrow a ha) hruns

/-- A waiter to send or to receive is linked on an open channel, and not after shutdown. -/
theorem linked_open (h : NarrowRun backend s) (hw : (s.ch.waiter w).channel = some c)
    (hop : (s.ch.waiter w).op ≠ .other) :
    (s.ch.chan c).closed = false ∧ s.shutdownRequested = false :=
  (OpenInv.reach h).linked _ (h.frames _) w c
    ((WaitInv.reach h).owner_call (by rw [hw]; simp)) hw hop

/-- **On a closed channel nobody waits to send or to receive.** -/
theorem op_of_closed (h : NarrowRun backend s) (hc : (s.ch.chan c).closed = true)
    {op : Direction} (hw : w ∈ s.ch.queue c op) : (s.ch.waiter w).op = .other := by
  by_contra hop
  have hopen := (h.linked_open ((WaitInv.reach h).linked.mem.mp hw).1 hop).1
  exact absurd (hc.symm.trans hopen) (by simp)

/-- **After shutdown was requested nobody waits to send or to receive.** -/
theorem op_of_shutdown (h : NarrowRun backend s) (hdown : s.shutdownRequested = true)
    {op : Direction} (hw : w ∈ s.ch.queue c op) : (s.ch.waiter w).op = .other := by
  by_contra hop
  have hrun := (h.linked_open ((WaitInv.reach h).linked.mem.mp hw).1 hop).2
  exact absurd (hdown.symm.trans hrun) (by simp)

/-- A closed channel has no senders. -/
theorem senders_of_closed (h : NarrowRun backend s) (hc : (s.ch.chan c).closed = true) :
    s.ch.queue c .send = [] := by
  rw [List.eq_nil_iff_forall_not_mem]
  exact fun x hx => (WaitInv.reach h).linked.op_of_sender hx (h.op_of_closed hc hx)

/-- After shutdown was requested no channel has a sender. -/
theorem senders_of_shutdown (h : NarrowRun backend s) (hdown : s.shutdownRequested = true)
    (c : ChanId) : s.ch.queue c .send = [] := by
  rw [List.eq_nil_iff_forall_not_mem]
  exact fun x hx => (WaitInv.reach h).linked.op_of_sender hx (h.op_of_shutdown hdown hx)

end NarrowRun

namespace ThoroughRun

variable {backend : Backend} {s : Sys} {c : ChanId} {w : WaiterId}

/-- In a thorough run every select on a stack tries all its cases. -/
theorem frames (h : ThoroughRun backend s) (t : TaskId) :
    (s.tasks t).frame.selects triesAll = true :=
  frames_of_selects h t

/-- A thorough run is narrow. -/
theorem narrow (h : ThoroughRun backend s) : NarrowRun backend s :=
  Machine.ReachVia.mono (fun _ _ => Action.narrow_of_thorough) h

/-- A concrete run. -/
theorem after {l : List Action} (hinit : (runtime backend).init s)
    (hthorough : l.all Action.thorough = true) (hruns : (runtime backend).runs s l = true) :
    ThoroughRun backend ((runtime backend).after s l) :=
  Machine.reachVia_after hinit (fun a ha _ => List.all_eq_true.mp hthorough a ha) hruns

/-- In a thorough run a select that sleeps tries all its cases and was parked. -/
theorem select_tries (h : ThoroughRun backend s) {t : TaskId} {k : CallId}
    {cases : List SelectCase} {p : Bool} (hframe : (s.tasks t).frame = .select k cases p) :
    triesAll cases = true ∧ p = true := by
  have htries := h.frames t
  rw [hframe] at htries
  exact ⟨htries, (OpenInv.reach h).select_parked hframe htries⟩

/-- A call that did not return has parked. -/
theorem parked (h : ThoroughRun backend s) (t : TaskId) : (s.tasks t).frame.refused = false :=
  (OpenInv.reach h).not_refused (h.frames t)

/-- Everyone who waits on a channel waits to send or to receive. -/
theorem op_of_linked (h : ThoroughRun backend s) (hw : (s.ch.waiter w).channel = some c) :
    (s.ch.waiter w).op ≠ .other := by
  have howns := (WaitInv.reach h).owner w (by rw [hw]; simp)
  cases hf : (s.tasks (s.ch.waiter w).task).frame with
  | user | ioWait => rw [hf] at howns; exact howns.elim
  | single op call c' parked =>
      rw [hf] at howns
      rw [howns.2.2.1]
      exact op.op_ne_other
  | select call cases parked =>
      rw [hf] at howns
      obtain ⟨_, _, _, _, cs, hget, hchan, hop, _⟩ := howns
      rw [hop]
      exact op_of_triesAll (h.select_tries hf).1 (List.mem_of_getElem? hget)
        (hchan.symm.trans hw)

/-- In a thorough run nobody is linked on a closed channel or after the shutdown. -/
theorem linked_open (h : ThoroughRun backend s) (hw : (s.ch.waiter w).channel = some c) :
    (s.ch.chan c).closed = false ∧ s.shutdownRequested = false :=
  h.narrow.linked_open hw (h.op_of_linked hw)

/-- **After shutdown was requested no channel has a waiter.** -/
theorem queue_of_shutdown (h : ThoroughRun backend s) (hdown : s.shutdownRequested = true)
    (c : ChanId) (op : Direction) : s.ch.queue c op = [] := by
  rw [List.eq_nil_iff_forall_not_mem]
  intro x hx
  exact h.op_of_linked ((WaitInv.reach h).linked.mem.mp hx).1 (h.narrow.op_of_shutdown hdown hx)

/-- **A live waiter belongs to a task that waits.** -/
theorem waiting_of_live (h : ThoroughRun backend s) (hw : (s.ch.waiter w).channel ≠ none)
    (hlive : s.ch.live w = true) :
    (s.tasks (s.ch.waiter w).task).state = .waitingChannel :=
  (WaitInv.reach h).waiting_of_live (OpenInv.reach h).asleep (h.parked _) hw hlive

end ThoroughRun

end Croutine
