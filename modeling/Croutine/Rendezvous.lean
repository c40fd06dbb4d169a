import Croutine.WideSelect

/-!
# No missed rendezvous

A live receiver waits only at an empty buffer, a live sender only at a full one, and both
kinds wait at once only if they belong to one select.  Taking waiters out, also by
completing their select through another channel, keeps this; what needs an argument is
every step that moves a value through the buffer and every park.

A select also registers the cases it does not try, those that are neither sends nor
receives.  Their waiters may wait anywhere, so the balance is one of the others, the keen
ones.
-/

namespace Croutine

/-- A live waiter to send or to receive. -/
def Chans.Keen (κ : Chans) (w : WaiterId) : Prop :=
  κ.live w = true ∧ (κ.waiter w).op ≠ .other

/-- The buffer of a channel against the senders and receivers that wait on it. -/
structure Balanced (κ : Chans) (c : ChanId) : Prop where
  room : (κ.chan c).buffer.length ≤ (κ.chan c).capacity
  receivers : ∀ r ∈ κ.queue c .recv, κ.Keen r → (κ.chan c).buffer = []
  senders : ∀ x ∈ κ.queue c .send, κ.Keen x → (κ.chan c).capacity ≤ (κ.chan c).buffer.length
  pairs : ∀ r ∈ κ.queue c .recv, ∀ x ∈ κ.queue c .send, κ.Keen r → κ.Keen x → r.call = x.call

/-- No select that is done becomes undone. -/
theorem Chans.done_markDone (κ : Chans) (w : WaiterId) (status : SelectStatus) {k : CallId}
    (h : (κ.select k).done = true) : ((κ.markDone w status).select k).done = true := by
  unfold markDone
  split
  · next j _ _ =>
    by_cases hj : k = j
    · subst hj; simp [setSelect]
    · simpa [setSelect, hj] using h
  · exact h

/-- Completing a waiter makes none live. -/
theorem Chans.live_of_markDone {κ : Chans} {v w : WaiterId} {status : SelectStatus}
    (h : (κ.markDone v status).live w = true) : κ.live w = true := by
  unfold live at h ⊢
  rw [waiter_markDone] at h
  split
  · next k hkind hstate =>
    rw [hkind, hstate] at h
    by_contra hdone
    have hdone' := κ.done_markDone v status (by simpa using hdone)
    simp [hdone'] at h
  · rfl

/-- A waiter that is live after moves of waiters was live before. -/
theorem WaitMoves.live_before {s s' : Sys} (h : WaitMoves s s') {w : WaiterId}
    (hlive : s'.ch.live w = true) : s.ch.live w = true := by
  refine WaitMoves.invariant (I := fun x => x.ch.live w = true → s.ch.live w = true) h ?_ id hlive
  intro x x' hx hmove hl
  refine hx ?_
  cases hmove with
  | quiet hsame =>
      rwa [Chans.live_congr (κ := x.ch) (by rw [hsame.waiter]) (by rw [hsame.waiter])
        fun k _ => by rw [hsame.select]] at hl
  | dead hqueue hdead => simpa using hl
  | wake hqueue hlive hwake =>
      have hl' := Chans.live_of_markDone hl
      rwa [Chans.dropHeads_live] at hl'

/-- Moves of waiters make none keen. -/
theorem WaitMoves.keen_before {s s' : Sys} (h : WaitMoves s s') {w : WaiterId}
    (hkeen : s'.ch.Keen w) : s.ch.Keen w :=
  ⟨h.live_before hkeen.1, h.op w ▸ hkeen.2⟩

namespace Balanced

variable {κ κ' : Chans} {c : ChanId}

/-- Waiters of the call `k` join the queues of operations that block, others leave or die,
and the channel holds what it held. -/
theorem grow {k : CallId} (h : Balanced κ c) (hbuffer : (κ'.chan c).buffer = (κ.chan c).buffer)
    (hcapacity : (κ'.chan c).capacity = (κ.chan c).capacity)
    (hqueue : ∀ op, ∀ w ∈ κ'.queue c op, κ'.Keen w →
      (w ∈ κ.queue c op ∧ κ.Keen w) ∨ (w.call = k ∧ κ.Blocks c op)) : Balanced κ' c := by
  refine ⟨by rw [hbuffer, hcapacity]; exact h.room, fun r hr hl => ?_, fun x hx hl => ?_, ?_⟩
  · rw [hbuffer]
    rcases hqueue .recv r hr hl with ⟨hr', hl'⟩ | ⟨_, hblocks⟩
    · exact h.receivers r hr' hl'
    · exact hblocks.2
  · rw [hbuffer, hcapacity]
    rcases hqueue .send x hx hl with ⟨hx', hl'⟩ | ⟨_, hblocks⟩
    · exact h.senders x hx' hl'
    · exact hblocks.2
  · intro r hr x hx hlr hlx
    rcases hqueue .recv r hr hlr with ⟨hr', hlr'⟩ | ⟨hrk, hblocks⟩ <;>
      rcases hqueue .send x hx hlx with ⟨hx', hlx'⟩ | ⟨hxk, hblocks'⟩
    · exact h.pairs r hr' x hx' hlr' hlx'
    · exact absurd (hlr'.1.symm.trans (hblocks'.1 r hr')) (by simp)
    · exact absurd (hlx'.1.symm.trans (hblocks.1 x hx')) (by simp)
    · exact hrk.trans hxk.symm

/-- Waiters leave or die, and the channel holds what it held. -/
theorem shrink (h : Balanced κ c) (hbuffer : (κ'.chan c).buffer = (κ.chan c).buffer)
    (hcapacity : (κ'.chan c).capacity = (κ.chan c).capacity)
    (hqueue : ∀ op, ∀ w ∈ κ'.queue c op, κ'.Keen w → w ∈ κ.queue c op ∧ κ.Keen w) :
    Balanced κ' c :=
  h.grow (k := 0) hbuffer hcapacity fun op w hw hl => .inl (hqueue op w hw hl)

/-- Moves of waiters keep the balance, if buffer and capacity stay. -/
theorem moves {s s' : Sys} (h : Balanced s.ch c) (hmoves : WaitMoves s s')
    (hbuffer : (s'.ch.chan c).buffer = (s.ch.chan c).buffer)
    (hcapacity : (s'.ch.chan c).capacity = (s.ch.chan c).capacity) : Balanced s'.ch c :=
  h.shrink hbuffer hcapacity fun op _ hw hl =>
    ⟨(hmoves.queue c op).subset hw, hmoves.keen_before hl⟩

/-- Moves of waiters keep the balance, if the bare channel stays. -/
theorem of_bare {s s' : Sys} (h : Balanced s.ch c) (hmoves : WaitMoves s s')
    (hbare : (s'.ch.chan c).bare = (s.ch.chan c).bare) : Balanced s'.ch c :=
  h.moves hmoves (Channel.buffer_of_bare hbare) (Channel.capacity_of_bare hbare)

end Balanced

/-! ## The attempts -/

namespace Chans

variable (κ : Chans) (c : ChanId) (w offer : WaiterId) (dead rest : List WaiterId)

/-- A handoff to a receiver leaves the bare channels. -/
theorem handedTo_bare (value : Addr) (c' : ChanId) :
    ((κ.handedTo c offer w value dead rest).chan c').bare = (κ.chan c').bare := by
  unfold handedTo
  rw [completed_chan]
  exact dropHeads_bare κ c c' .recv (dead ++ [w]) rest

/-- A handoff from a sender leaves the bare channels. -/
theorem takenFrom_bare (out : Addr) (c' : ChanId) :
    ((κ.takenFrom c offer w out dead rest).chan c').bare = (κ.chan c').bare := by
  unfold takenFrom
  rw [completed_chan]
  exact dropHeads_bare κ c c' .send (dead ++ [w]) rest

/-- The channel after a value entered its buffer. -/
theorem bufferPush_chan (v : Bytes) :
    (κ.bufferPush c v).chan c = { κ.chan c with buffer := (κ.chan c).buffer ++ [v] } := by
  simp [bufferPush, setChan]

/-- A value taken from the buffer leaves the rest of the channel. -/
theorem tookBuffered_chan (out : Addr) (v : Bytes) (left : List Bytes) :
    (κ.tookBuffered c offer out v left).chan c = { κ.chan c with buffer := left } := by
  simp [tookBuffered, bufferPop, setChan, record, copyValue]

/-- A value taken from the buffer leaves the queues. -/
@[simp] theorem queue_tookBuffered (out : Addr) (v : Bytes) (left : List Bytes) (c' : ChanId)
    (op : Direction) : (κ.tookBuffered c offer out v left).queue c' op = κ.queue c' op := by
  simp [tookBuffered]

/-- A waiting sender's value goes to the end of the buffer. -/
theorem bufferedFrom_chan : (κ.bufferedFrom c w dead rest).chan c =
    { (κ.chan c).setQueue .send rest with
      buffer := (κ.chan c).buffer ++ [κ.valueAt c (κ.waiter w).valueSlot] } := by
  unfold bufferedFrom
  rw [completed_chan]
  show (bufferPush _ _ _).chan c = _
  rw [bufferPush_chan, dropHeads_chan, if_pos rfl]
  rfl

end Chans

/-- **A send keeps the balance.**  Nobody waits to send while the buffer has room. -/
theorem TrySend.balanced {o : Oracle} {s s' : Sys} {c : ChanId} {offer : WaiterId} {value : Addr}
    {r : SendResult} (h : TrySend o s c offer value s' r) (hb : ∀ c', Balanced s.ch c') :
    ∀ c', Balanced s'.ch c' := by
  intro c'
  by_cases hc : c' = c
  · subst hc
    have hmoves := h.moves
    cases h with
    | refused h => exact (hb c').of_bare hmoves rfl
    | handed hopen hrun hqueue hdead hlive hwake =>
        exact (hb c').of_bare hmoves (Chans.handedTo_bare _ _ _ _ _ _ _ _)
    | buffered hopen hrun hdead hroom =>
        have hchan : ∀ κ : Chans, ((κ.bufferPush c' (s.ch.valueAt c' value)).record
            (.buffered c' offer (s.ch.valueAt c' value))).chan c' =
            (κ.bufferPush c' (s.ch.valueAt c' value)).chan c' := fun _ => rfl
        refine ⟨?_, fun r hr => ?_, fun x hx hl => ?_, fun r hr => ?_⟩
        · rw [hchan, Chans.bufferPush_chan]
          simpa using Nat.succ_le_of_lt hroom
        · simp at hr
        · have hx' : x ∈ s.ch.queue c' .send := by simpa using hx
          have hfull := (hb c').senders x hx' (hmoves.keen_before hl)
          omega
        · simp at hr
    | blocked hopen hrun hdead hfull =>
        exact (hb c').of_bare hmoves (Chans.dropHeads_bare _ _ _ _ _ _)
  · have hsame := h.onlyAt c' hc
    exact (hb c').of_bare h.moves (by rw [hsame])

/-- **A receive keeps the balance.**  Nobody waits to receive while the buffer has a value,
and a value leaves a full buffer only if a waiting sender refills it. -/
theorem TryRecv.balanced {o : Oracle} {s s' : Sys} {c : ChanId} {offer : WaiterId} {out : Addr}
    {r : RecvResult} (h : TryRecv o s c offer out s' r) (hb : ∀ c', Balanced s.ch c')
    (hlinked : s.ch.Linked) (hclosed : (s.ch.chan c).closed = true → s.ch.queue c .send = []) :
    ∀ c', Balanced s'.ch c' := by
  intro c'
  by_cases hc : c' = c
  · subst hc
    have hmoves := h.moves
    have hnone : ∀ v rest, (s.ch.chan c').buffer = v :: rest →
        ∀ w, w ∈ s'.ch.queue c' .recv → s'.ch.Keen w → False := by
      intro v rest hbuffer w hw hl
      have hempty := (hb c').receivers w ((hmoves.queue c' .recv).subset hw)
        (hmoves.keen_before hl)
      rw [hbuffer] at hempty
      exact absurd hempty (by simp)
    have hroom := (hb c').room
    cases h with
    | @taken v rest hbuffer hskip =>
        have hchan := s.ch.tookBuffered_chan c' offer out v rest
        rw [hbuffer, List.length_cons] at hroom
        refine ⟨?_, fun w hw hl => (hnone v rest hbuffer w hw hl).elim, fun x hx hl => ?_,
          fun w hw x _ hl _ => (hnone v rest hbuffer w hw hl).elim⟩
        · rw [hchan]
          show rest.length ≤ (s.ch.chan c').capacity
          omega
        · rw [hchan]
          show (s.ch.chan c').capacity ≤ rest.length
          rw [Chans.queue_tookBuffered] at hx
          rcases hskip with hcl | hzero | hfull
          · rw [hclosed hcl] at hx
            exact absurd hx (by simp)
          · omega
          · exact hfull
    | @drained v rest hbuffer hopen hdead =>
        rw [hbuffer, List.length_cons] at hroom
        refine ⟨?_, fun w hw hl => (hnone v rest hbuffer w hw hl).elim, fun x hx => ?_,
          fun w hw x _ hl _ => (hnone v rest hbuffer w hw hl).elim⟩
        · rw [Chans.dropHeads_buffer, Chans.dropHeads_capacity, Chans.tookBuffered_chan]
          show rest.length ≤ (s.ch.chan c').capacity
          omega
        · simp at hx
    | @refilled v rest hbuffer hopen hlt dead tail x hqueue hdead hlive s1 hwake =>
        have hx : x ∈ s.ch.queue c' .send := by rw [hqueue]; simp
        have hfull := (hb c').senders x hx ⟨hlive, hlinked.op_of_sender hx⟩
        have hchan : ((s.ch.tookBuffered c' offer out v rest).bufferedFrom c' x dead tail).chan c' =
            _ := Chans.bufferedFrom_chan _ _ _ _ _
        rw [Chans.tookBuffered_chan] at hchan
        rw [hbuffer, List.length_cons] at hroom hfull
        have hlen : (((s.ch.tookBuffered c' offer out v rest).bufferedFrom c' x dead tail).chan
            c').buffer.length = rest.length + 1 := by
          rw [hchan]
          simp
        have hcap : (((s.ch.tookBuffered c' offer out v rest).bufferedFrom c' x dead tail).chan
            c').capacity = (s.ch.chan c').capacity := by
          rw [hchan]
          rfl
        refine ⟨by rw [hlen, hcap]; exact hroom,
          fun w hw hl => (hnone v rest hbuffer w hw hl).elim, fun y _ _ => ?_,
          fun w hw x _ hl _ => (hnone v rest hbuffer w hw hl).elim⟩
        rw [hlen, hcap]
        exact hfull
    | direct hbuffer hqueue hdead hlive hwake =>
        exact (hb c').of_bare hmoves (Chans.takenFrom_bare _ _ _ _ _ _ _ _)
    | refused hbuffer hdead h =>
        exact (hb c').of_bare hmoves
          (Chans.dropHeads_bare s.ch c' c' .send (s.ch.queue c' .send) [])
    | blocked hbuffer hdead hopen hrun =>
        exact (hb c').of_bare hmoves (Chans.dropHeads_bare _ _ _ _ _ _)
  · have hsame := h.onlyAt c' hc
    exact (hb c').of_bare h.moves (by rw [hsame])

/-- **Balance, an attempt.** The attempt of a case keeps every channel in balance, if closed
channels have no senders. -/
theorem TryCase.balanced {o : Oracle} {s s' : Sys} {offer : WaiterId} {cs : SelectCase}
    {fired : Option SelectStatus} (h : TryCase o s offer cs s' fired)
    (hb : ∀ c, Balanced s.ch c) (hlinked : s.ch.Linked)
    (hclosed : ∀ c, (s.ch.chan c).closed = true → s.ch.queue c .send = []) :
    ∀ c, Balanced s'.ch c := by
  cases h with
  | untried huntried => exact hb
  | send hchan hop h => exact h.balanced hb
  | recv hchan hop h => exact h.balanced hb hlinked (hclosed _)

/-- The attempt of a call that does not fire finds that the operation blocks. -/
theorem TryCase.blocks {o : Oracle} {s s' : Sys} {offer : WaiterId} {cs : SelectCase} {c : ChanId}
    (h : TryCase o s offer cs s' none) (hc : cs.channel = some c) (hop : cs.op ≠ .other) :
    s.ch.Blocks c cs.op.direction ∧ ∀ c', (s'.ch.chan c').bare = (s.ch.chan c').bare := by
  rcases h.blocked_cases with ⟨hnone | hother, _⟩ | ⟨c', hc', _, _, hblocks, rfl⟩
  · exact absurd (hc.symm.trans hnone) (by simp)
  · exact absurd hother hop
  · obtain rfl := Option.some.inj (hc.symm.trans hc')
    exact ⟨hblocks, fun c' => Chans.dropHeads_bare _ _ _ _ _ _⟩

/-! ## Closing -/

/-- A close takes nothing out of any buffer. -/
theorem channelCloseLocked_contents {o : Oracle} {s s' : Sys} {c : ChanId}
    (h : channelCloseLocked o s c = .ok s') (c' : ChanId) :
    (s'.ch.chan c').buffer = (s.ch.chan c').buffer ∧
      (s'.ch.chan c').capacity = (s.ch.chan c').capacity := by
  rcases channelCloseLocked_ok h with ⟨_, rfl⟩ | ⟨_, s1, hsend, hrecv⟩
  · exact ⟨rfl, rfl⟩
  · have hbare := (wakeAllAsClosedLocked_bare hrecv c').trans (wakeAllAsClosedLocked_bare hsend c')
    rw [Channel.buffer_of_bare hbare, Channel.capacity_of_bare hbare]
    by_cases hc : c' = c
    · subst hc; simp [Chans.markClosed, Chans.setChan]
    · simp [Chans.markClosed, Chans.setChan, hc]

/-- Closing a channel keeps every channel in balance. -/
theorem channelCloseLocked_balanced {o : Oracle} {s s' : Sys} {c : ChanId}
    (h : channelCloseLocked o s c = .ok s') (hb : ∀ c', Balanced s.ch c') :
    ∀ c', Balanced s'.ch c' := by
  intro c'
  obtain ⟨hbuffer, hcapacity⟩ := channelCloseLocked_contents h c'
  exact (hb c').moves (channelCloseLocked_moves h) hbuffer hcapacity

/-- The closes of a shutdown keep every channel in balance. -/
theorem shutdownAll_balanced {o : Oracle} {s s' : Sys}
    (h : croutineChannelShutdownAllLocked o s = .ok s') (hb : ∀ c, Balanced s.ch c) :
    ∀ c, Balanced s'.ch c :=
  Res.foldlM_induct (I := fun x => ∀ c, Balanced x.ch c)
    (fun _ _ _ hI hclose => channelCloseLocked_balanced hclose hI) _ hb h

/-! ## Parking -/

/-- Laying out a waiter that is linked nowhere wakes no other waiter up. -/
theorem Chans.live_of_park {κ : Chans} {c : ChanId} {w x : WaiterId} {y : Waiter} (hne : x ≠ w)
    (h : (κ.park c w y).live x = true) : κ.live x = true := by
  rwa [live_congr (κ := κ)] at h
  · rw [waiter_park, Function.update_of_ne hne]
  · rw [waiter_park, Function.update_of_ne hne]
  · exact fun k _ => by rw [(OnlyQueues.park κ c w y).select]

/-- Parking a send or a receive that would block keeps every channel in balance. -/
theorem parkOnChannel_balanced {o : Oracle} {s s1 : Sys} {w : WorkerId} {t : TaskId}
    {op : Direction} {c : ChanId} {slot : Addr} (hwait : WaitInv s.ch s.tasks)
    (htry : TryCase o s.ticked ⟨s.ch.clock, 0⟩ ⟨some c, op, slot⟩ s1 none)
    (hb : ∀ c', Balanced s.ch c') :
    ∀ c', Balanced (parkOnChannel s1 w t op s.ch.clock c slot).ch c' := by
  intro c'
  rw [(@parkOnChannel_eq s1 w t op s.ch.clock c slot htry.runs_of_blocked).1]
  obtain ⟨hblocks, hbare⟩ := htry.blocks rfl op.op_ne_other
  have honly := Chans.OnlyQueues.park s1.ch c ⟨s.ch.clock, 0⟩
    { kind := .regular, op := op, task := t, valueSlot := slot }
  have hmoves := htry.moves
  refine (hb c').grow (k := s.ch.clock) ?_ ?_ fun op' x hx hl => ?_
  · rw [honly.buffer]
    exact Channel.buffer_of_bare (hbare c')
  · rw [honly.capacity]
    exact Channel.capacity_of_bare (hbare c')
  · rw [Chans.queue_park] at hx
    by_cases hnew : x = ⟨s.ch.clock, 0⟩
    · -- the waiter that was laid out is nowhere else
      subst hnew
      have hfree : ∀ c' op', (⟨s.ch.clock, 0⟩ : WaiterId) ∉ s1.ch.queue c' op' := by
        intro c' op' hmem
        have hmem' := (hwait.ticked.moves hmoves).linked.mem.mp hmem
        rw [(hwait.ticked.moves hmoves).unlinked_of_no_call (hwait.fresh hmoves).2] at hmem'
        exact absurd hmem'.1 (by simp)
      split at hx
      · next hcase =>
        refine .inr ⟨rfl, ?_⟩
        rw [hcase.1, hcase.2]
        exact hblocks
      · exact absurd hx (hfree c' op')
    · have hx1 : x ∈ s1.ch.queue c' op' := by
        split at hx
        · next hcase =>
          rw [hcase.1, hcase.2]
          simpa [hnew] using hx
        · exact hx
      refine .inl ⟨(hmoves.queue c' op').subset hx1,
        hmoves.keen_before ⟨Chans.live_of_park hnew hl.1, ?_⟩⟩
      have hop := hl.2
      rwa [Chans.waiter_park, Function.update_of_ne hnew] at hop

/-- A linked waiter belongs to a call that has begun. -/
theorem WaitInv.queue_call {κ : Chans} {tasks : TaskId → Task} {c : ChanId} {op : Direction}
    {w : WaiterId} (h : WaitInv κ tasks) (hw : w ∈ κ.queue c op) : w.call < κ.clock := by
  refine h.calls _ _ (h.owner_call (w := w) ?_)
  rw [(h.linked.mem.mp hw).1]
  simp

/-- Registering a select wakes no waiter of another call up. -/
theorem WaitInv.live_of_register {κ : Chans} {tasks : TaskId → Task} {t : TaskId} {c : ChanId}
    {op : Direction} {x : WaiterId} {cases : List SelectCase} {gone : WaiterId → Bool}
    (h : WaitInv κ tasks) (hx : x ∈ κ.queue c op)
    (hl : (selectRegister t κ.clock 0 cases
      ((κ.tick.without gone).setSelect κ.clock {})).live x = true) : κ.live x = true := by
  have hlink : (κ.waiter x).channel ≠ none := by rw [(h.linked.mem.mp hx).1]; simp
  have hcall : x.call ≠ κ.clock := Nat.ne_of_lt (h.queue_call hx)
  have hlive : (κ.tick.without gone).live x = true := by
    cases hkind : (κ.waiter x).kind with
    | regular =>
        unfold Chans.live
        rw [Chans.without_kind, show (κ.tick.waiter x).kind = .regular from hkind]
    | select =>
        rwa [Chans.live_congr (κ := κ.tick.without gone)] at hl
        · rw [selectRegister_waiter_other hcall]; rfl
        · rw [selectRegister_waiter_other hcall]; rfl
        · intro k hk
          rw [Chans.without_state] at hk
          obtain rfl := Option.some.inj ((h.state_eq hlink hkind).symm.trans hk)
          rw [(selectRegister_only (t := t) (k := κ.clock) cases 0
            ((κ.tick.without gone).setSelect κ.clock {})).select]
          simp [Chans.setSelect, hcall]
  rw [Chans.live_without] at hlive
  exact hlive

/-- A select that parks has found that each of its operations blocks. -/
theorem selectRegister_balanced {o : Oracle} {s : Sys} {t : TaskId} {cases : List SelectCase}
    {gone : WaiterId → Bool} (hwait : WaitInv s.ch s.tasks)
    (hall : ∀ i cs, cases[i]? = some cs → ∃ s1, TryCase o s.ticked ⟨s.ch.clock, i⟩ cs s1 none)
    (hb : ∀ c, Balanced s.ch c) :
    ∀ c, Balanced (selectRegister t s.ch.clock 0 cases
      ((s.ch.tick.without gone).setSelect s.ch.clock {})) c := by
  intro c
  have honly := selectRegister_only (t := t) (k := s.ch.clock) cases 0
    ((s.ch.tick.without gone).setSelect s.ch.clock {})
  refine (hb c).grow (k := s.ch.clock) (honly.buffer c) (honly.capacity c) fun op x hx hl => ?_
  rw [selectRegister_queue] at hx
  rcases List.mem_append.mp hx with hx | hx
  · have hmem : x ∈ s.ch.queue c op := by
      have hfilter : x ∈ (s.ch.tick.without gone).queue c op := hx
      rw [Chans.queue_without] at hfilter
      exact (List.mem_filter.mp hfilter).1
    refine .inl ⟨hmem, hwait.live_of_register hmem hl.1, ?_⟩
    have hop := hl.2
    rw [selectRegister_waiter_other (Nat.ne_of_lt (hwait.queue_call hmem))] at hop
    have hop' : ((s.ch.tick.without gone).waiter x).op ≠ .other := hop
    rwa [Chans.without_op] at hop'
  · obtain ⟨hcall, j, cs, hidx, hget, hchan, hdir⟩ := (mem_caseWaiters cases 0).mp hx
    obtain ⟨s1, htry⟩ := hall j cs hget
    have hreg := selectRegister_waiter_case (t := t) (k := s.ch.clock) cases 0
      ((s.ch.tick.without gone).setSelect s.ch.clock {}) hget
    rw [← hidx, ← hcall] at hreg
    have hop := hl.2
    rw [← hcall, hreg] at hop
    have hblocks := (htry.blocks hchan hop).1
    rw [hdir] at hblocks
    exact .inr ⟨hcall, hblocks⟩

/-- **Balance, step.** Every form of a channel step keeps every channel in balance, if its
selects fit. -/
theorem ChanForm.balanced {s s' : Sys}
    (hform : ChanForm (fun cases => fits cases = true) s s') (hwait : WaitInv s.ch s.tasks)
    (hclosed : ∀ c, (s.ch.chan c).closed = true → s.ch.queue c .send = [])
    (hb : ∀ c, Balanced s.ch c) : ∀ c, Balanced s'.ch c := by
  have hquiet : ∀ {κ κ' : Chans}, (∀ c, Balanced κ c) → κ'.chan = κ.chan → κ'.waiter = κ.waiter →
      κ'.select = κ.select → ∀ c, Balanced κ' c := by
    intro κ κ' hκ hchan hwaiter hselect c
    refine (hκ c).shrink (by rw [hchan]) (by rw [hchan]) fun op x hx hl => ⟨?_, ?_, ?_⟩
    · unfold Chans.queue at hx
      rwa [hchan] at hx
    · rw [← Chans.live_congr (κ := κ) (by rw [hwaiter]) (by rw [hwaiter])
        fun k _ => by rw [hselect]]
      exact hl.1
    · rw [← hwaiter]
      exact hl.2
  cases hform with
  | write a bs => exact hquiet hb rfl rfl rfl
  | create elemSize capacity allocOk =>
      unfold croutineChannelCreate
      split
      · exact hb
      · intro c
        by_cases hc : c = s.ch.nextChan
        · subst hc
          refine ⟨?_, fun r hr => ?_, fun x hx => ?_, fun r hr => ?_⟩
          · simp [Chans.setChan]
          all_goals simp [Chans.setChan, Chans.queue, Channel.queue] at *
        · refine (hb c).shrink ?_ ?_ fun op x hx hl => ⟨?_, hl⟩
          · simp [Chans.setChan, hc]
          · simp [Chans.setChan, hc]
          · simpa [Chans.queue, Chans.setChan, hc] using hx
  | destroy hc =>
      unfold croutineChannelDestroy
      split
      · exact hquiet hb rfl rfl rfl
      · exact hb
  | @attempt o i cs s1 fired hreg htry gone hdead e he =>
      have hticked : ∀ c, Balanced s.ticked.ch c := hquiet hb rfl rfl rfl
      have h1 := htry.balanced hticked hwait.ticked.linked hclosed
      have h2 : ∀ c, Balanced (s1.ch.without gone) c := by
        intro c
        refine (h1 c).shrink rfl rfl fun op x hx hl => ?_
        rw [Chans.queue_without] at hx
        unfold Chans.Keen at hl
        rw [Chans.live_without, Chans.without_op] at hl
        exact ⟨(List.mem_filter.mp hx).1, hl⟩
      exact hquiet h2 rfl rfl rfl
  | parkSingle hc htry hpc hframe => exact parkOnChannel_balanced hwait htry hb
  | @parkSelect o cases w t hP hreg hsome gone hdead hall hpc hframe =>
      have hpark := @selectRegister_balanced o s t cases gone hwait (hall (length_of_fits hP)) hb
      unfold workerParkCurrentOnChannelLocked
      split
      · exact hpark
      · exact hpark
  | close hc hclose => exact channelCloseLocked_balanced hclose hb
  | @shutdown o θ s1 life hclose =>
      have h1 : ∀ c, Balanced s1.ch c := shutdownAll_balanced hclose hb
      exact h1
  | returnSingle hpc hframe => exact hquiet hb rfl rfl rfl
  | @returnSelect w t call cases parked hpc hframe index status =>
      have hscrub := (Scrubbed.scrubSelectWaiters hwait.linked call cases.length).1
      intro c
      refine (hb c).shrink (hscrub.only.buffer c) (hscrub.only.capacity c)
        fun op x hx hl => ⟨(hscrub.queue c op).subset hx, ?_, ?_⟩
      · have hl' : (scrubSelectWaiters call cases.length s.ch).live x = true := hl.1
        rwa [hscrub.live] at hl'
      · rw [← hscrub.waiter_op]
        exact hl.2

/-- Every channel is balanced in every state of every run whose selects fit. -/
theorem NarrowRun.balanced {backend : Backend} {s : Sys} (h : NarrowRun backend s)
    (c : ChanId) : Balanced s.ch c := by
  refine Machine.ReachVia.invariant (I := fun x => ∀ c, Balanced x.ch c) ?_ ?_ h c
  · intro x hx
    obtain ⟨wakeFd, workers, runCapacity, ioCapacity, _, _, rfl⟩ := hx
    intro c
    refine ⟨?_, fun r hr => ?_, fun y hy => ?_, fun r hr => ?_⟩ <;>
      simp_all [initial, Chans.queue, Channel.queue]
  · intro x a x' hreach hx ha hstep
    rcases chanForm_or_unchanged hreach (Action.selects_select ha) hstep with hc | hu
    · exact hc.balanced (WaitInv.reach hreach)
        (fun c => NarrowRun.senders_of_closed hreach) hx
    · rw [hu.ch]
      exact hx

/-- In runs whose selects try all of their cases every live waiter is keen. -/
theorem ThoroughRun.keen {backend : Backend} {s : Sys} {c : ChanId} {op : Direction}
    {w : WaiterId} (h : ThoroughRun backend s) (hw : w ∈ s.ch.queue c op)
    (hlive : s.ch.live w = true) : s.ch.Keen w :=
  ⟨hlive, h.op_of_linked ((WaitInv.reach h).linked.mem.mp hw).1⟩

/-- Waiters of one call in opposite queues are waiters of one select. -/
theorem WaitInv.same_select {κ : Chans} {tasks : TaskId → Task} {c : ChanId} {r x : WaiterId}
    (h : WaitInv κ tasks) (hr : r ∈ κ.queue c .recv) (hx : x ∈ κ.queue c .send)
    (hcall : r.call = x.call) :
    (κ.waiter r).kind = .select ∧ (κ.waiter x).kind = .select ∧
      (κ.waiter r).state = (κ.waiter x).state := by
  obtain ⟨hrc, hrop⟩ := h.linked.mem.mp hr
  obtain ⟨hxc, hxop⟩ := h.linked.mem.mp hx
  have hrlink : (κ.waiter r).channel ≠ none := by rw [hrc]; simp
  have hxlink : (κ.waiter x).channel ≠ none := by rw [hxc]; simp
  have hrowns := h.owner r hrlink
  have hxowns := h.owner_of_call hxlink (by rw [← hcall]; exact h.owner_call hrlink)
  cases hf : (tasks (κ.waiter r).task).frame with
  | user | ioWait => rw [hf] at hrowns; exact hrowns.elim
  | single op call c' parked =>
      rw [hf] at hrowns hxowns
      have hop : (κ.waiter r).op.direction = (κ.waiter x).op.direction := by
        rw [hrowns.1, hxowns.1]
      rw [hrop, hxop] at hop
      exact absurd hop (by simp)
  | select call cases parked =>
      rw [hf] at hrowns hxowns
      exact ⟨hrowns.2.1, hxowns.2.1, hrowns.2.2.1.trans hxowns.2.2.1.symm⟩

/-- **No missed rendezvous**, in every run without a select of more than `2 ^ 32` cases or
with a case that is neither a send nor a receive. -/
theorem no_missed_rendezvous {backend : Backend} {s : Sys} (h : ThoroughRun backend s)
    (c : ChanId) :
    (∀ r ∈ s.ch.queue c .recv, s.ch.live r = true →
      (s.ch.chan c).buffer = [] ∧
      ∀ x ∈ s.ch.queue c .send, s.ch.live x = true →
        (s.ch.waiter r).kind = .select ∧ (s.ch.waiter x).kind = .select ∧
          (s.ch.waiter r).state = (s.ch.waiter x).state) ∧
    (∀ x ∈ s.ch.queue c .send, s.ch.live x = true →
      (s.ch.chan c).buffer.length = (s.ch.chan c).capacity) ∧
    (0 < (s.ch.chan c).capacity → ∀ r ∈ s.ch.queue c .recv, ∀ x ∈ s.ch.queue c .send,
      s.ch.live r = true → s.ch.live x = true → False) := by
  have hb := h.narrow.balanced c
  refine ⟨fun r hr hlr => ⟨hb.receivers r hr (h.keen hr hlr), fun x hx hlx => ?_⟩,
    fun x hx hlx => ?_, fun hcap r hr x hx hlr hlx => ?_⟩
  · exact (WaitInv.reach h).same_select hr hx
      (hb.pairs r hr x hx (h.keen hr hlr) (h.keen hx hlx))
  · exact Nat.le_antisymm hb.room (hb.senders x hx (h.keen hx hlx))
  · have hfull := hb.senders x hx (h.keen hx hlx)
    rw [hb.receivers r hr (h.keen hr hlr), List.length_nil] at hfull
    omega

/-- The main task waits in a select that offers to send and to receive on a channel
without a buffer. -/
def offersBoth : List Action :=
  startUp 1 ++ dispatchOn 0 ++ [.channelCreate (.external 0) 1 0 true,
    .select (.worker 0) [⟨some 0, .send, 0⟩, ⟨some 0, .recv, 1⟩] false ⟨1, 0, true, true⟩ .calm] ++
    handOver 0

theorem no_missed_rendezvous_offers_both :
    ∃ s, ThoroughRun .epoll s ∧ s.ch.queue 0 .recv = [⟨0, 1⟩] ∧ s.ch.queue 0 .send = [⟨0, 0⟩] ∧
      (s.ch.chan 0).buffer = [] ∧ (s.ch.waiter ⟨0, 1⟩).state = (s.ch.waiter ⟨0, 0⟩).state := by
  have hrun : ThoroughRun .epoll ((runtime .epoll).after (small 1) offersBoth) :=
    .after (small_init 1 (by decide)) (by decide) (by decide +kernel)
  obtain ⟨hbuffer, hsame⟩ := (no_missed_rendezvous hrun 0).1 ⟨0, 1⟩ (by decide +kernel)
    (by decide +kernel)
  exact ⟨_, hrun, by decide +kernel, by decide +kernel, hbuffer,
    (hsame ⟨0, 0⟩ (by decide +kernel) (by decide +kernel)).2.2⟩

/-- A select of `2 ^ 32 + 1` cases parks as a receiver although the buffer has a value. -/
theorem wide_select_waits_at_value :
    ∃ s, (runtime .epoll).Reach s ∧ s.wk.lock = none ∧ 0 ∈ s.ch.registry ∧
      (s.ch.chan 0).closed = false ∧ (s.ch.chan 0).buffer ≠ [] ∧
      ∃ r ∈ s.ch.queue 0 .recv, s.ch.live r = true := by
  obtain ⟨W, cases, hreach⟩ := reach_wideSelect
    (oneChannel ++ [.channelTrySend (.external 0) 0 0 .calm]) (handOver 0) 0 .recv 0
    (by decide +kernel) (by decide +kernel) (fun _ _ => rfl)
  refine ⟨_, hreach, rfl, List.mem_singleton.mpr rfl, rfl, ?_, ⟨1, 2 ^ 32⟩, ?_, rfl⟩
  · exact List.cons_ne_nil [0] []
  · exact List.mem_singleton.mpr rfl

end Croutine
