import Croutine.History
import Croutine.Registry

/-!
# The order of values and of waiters

The values sent on a channel are the values delivered from it followed by its buffer.  A
value handed to a parked receiver overtakes nothing because the buffer is empty then, and
one that enters the buffer overtakes no parked sender because a sender parks only at a
full buffer; `Balanced` says both.

Calls are numbered by the critical sections they begin with, and a select lays its waiters
out in the order of its cases, so `WaiterId.Before` is the order in which waiters parked.
A send that completes finds no live sender that parked before it, and a value goes to no
receiver while an earlier one waits.  The exchange with a select that offers to send and to
receive on one channel is no exception: it ends the other offer.
-/

namespace Croutine

/-- The order in which offers are made. -/
def WaiterId.Before (v w : WaiterId) : Prop :=
  v.call < w.call ∨ v.call = w.call ∧ v.idx < w.idx

/-- The history of a channel against its buffer and the waiters on it. -/
structure Flow (κ : Chans) (c : ChanId) : Prop where
  values : (κ.sent c).map Prod.snd = (κ.delivered c).map Prod.snd ++ (κ.chan c).buffer
  past : ∀ p, p ∈ κ.sent c ∨ p ∈ κ.delivered c → p.1.call < κ.clock
  order : ∀ op, (κ.queue c op).Pairwise WaiterId.Before
  senders : ∀ w ∈ κ.queue c .send, κ.live w = true → ∀ p ∈ κ.sent c, p.1.Before w
  receivers : ∀ w ∈ κ.queue c .recv, κ.live w = true → ∀ p ∈ κ.delivered c, p.1.Before w

namespace Flow

variable {κ κ' : Chans} {c : ChanId}

/-- The offers `S` send and the offers `D` receive, while waiters leave or die. -/
theorem extend {S D : List (WaiterId × Bytes)} (h : Flow κ c)
    (hsent : κ'.sent c = κ.sent c ++ S) (hdelivered : κ'.delivered c = κ.delivered c ++ D)
    (hvalues : (κ.chan c).buffer ++ S.map Prod.snd = D.map Prod.snd ++ (κ'.chan c).buffer)
    (hpast : ∀ p ∈ S ++ D, p.1.call < κ'.clock) (hclock : κ.clock ≤ κ'.clock)
    (hqueue : ∀ op, (κ'.queue c op).Sublist (κ.queue c op))
    (hlive : ∀ w, κ'.live w = true → κ.live w = true)
    (hsenders : ∀ w ∈ κ'.queue c .send, κ'.live w = true → ∀ p ∈ S, p.1.Before w)
    (hreceivers : ∀ w ∈ κ'.queue c .recv, κ'.live w = true → ∀ p ∈ D, p.1.Before w) :
    Flow κ' c where
  values := by
    rw [hsent, hdelivered, List.map_append, List.map_append, h.values, List.append_assoc, hvalues,
      List.append_assoc]
  past p hp := by
    rw [hsent, hdelivered] at hp
    rcases hp with hp | hp <;> rcases List.mem_append.mp hp with hp | hp
    · exact Nat.lt_of_lt_of_le (h.past p (.inl hp)) hclock
    · exact hpast p (List.mem_append_left _ hp)
    · exact Nat.lt_of_lt_of_le (h.past p (.inr hp)) hclock
    · exact hpast p (List.mem_append_right _ hp)
  order op := (h.order op).sublist (hqueue op)
  senders w hw hl p hp := by
    rw [hsent] at hp
    rcases List.mem_append.mp hp with hp | hp
    · exact h.senders w ((hqueue .send).subset hw) (hlive w hl) p hp
    · exact hsenders w hw hl p hp
  receivers w hw hl p hp := by
    rw [hdelivered] at hp
    rcases List.mem_append.mp hp with hp | hp
    · exact h.receivers w ((hqueue .recv).subset hw) (hlive w hl) p hp
    · exact hreceivers w hw hl p hp

/-- Waiters leave or die, and no value moves. -/
theorem quiet (h : Flow κ c) (hsent : κ'.sent c = κ.sent c)
    (hdelivered : κ'.delivered c = κ.delivered c)
    (hbuffer : (κ'.chan c).buffer = (κ.chan c).buffer) (hclock : κ.clock ≤ κ'.clock)
    (hqueue : ∀ op, (κ'.queue c op).Sublist (κ.queue c op))
    (hlive : ∀ w, κ'.live w = true → κ.live w = true) : Flow κ' c :=
  h.extend (S := []) (D := []) (by simpa using hsent) (by simpa using hdelivered)
    (by simpa using hbuffer.symm) (by simp) hclock hqueue hlive (by simp) (by simp)

/-- Moves of waiters keep the account, if no value moves. -/
theorem moves {s s' : Sys} (h : Flow s.ch c) (hmoves : WaitMoves s s')
    (hsent : s'.ch.sent c = s.ch.sent c) (hdelivered : s'.ch.delivered c = s.ch.delivered c)
    (hbuffer : (s'.ch.chan c).buffer = (s.ch.chan c).buffer) : Flow s'.ch c :=
  h.quiet hsent hdelivered hbuffer hmoves.keeps.2.2.1 (hmoves.queue c)
    fun _ => hmoves.live_before

/-- A step without a movement keeps the account. -/
theorem still {s s' : Sys} (h : Flow s.ch c) (hmoves : WaitMoves s s')
    (hstill : s.ch.Still s'.ch) (hbuffer : (s'.ch.chan c).buffer = (s.ch.chan c).buffer) :
    Flow s'.ch c :=
  h.moves hmoves (hstill.sent c) (hstill.delivered c) hbuffer

end Flow

/-- A waiter behind another in a queue parked later. -/
theorem Flow.before_tail {κ : Chans} {c : ChanId} {op : Direction} {w y : WaiterId}
    {dead rest : List WaiterId} (h : Flow κ c) (hqueue : κ.queue c op = dead ++ w :: rest)
    (hy : y ∈ rest) : w.Before y := by
  have horder := h.order op
  rw [hqueue] at horder
  exact (List.pairwise_cons.mp (List.pairwise_append.mp horder).2.1).1 y hy

/-- Completing a waiter ends every other waiter of its select. -/
theorem Chans.dead_after {κ μ : Chans} {w y : WaiterId} {status : SelectStatus} {k : CallId}
    (hkind : ∀ x, (μ.waiter x).kind = (κ.waiter x).kind)
    (hstate : ∀ x, (μ.waiter x).state = (κ.waiter x).state)
    (hw : (κ.waiter w).kind = .select ∧ (κ.waiter w).state = some k)
    (hy : (κ.waiter y).kind = .select ∧ (κ.waiter y).state = some k) :
    (μ.completed w status).live y = false := by
  unfold completed markDone
  rw [hkind, hstate, hw.1, hw.2, live_record]
  unfold live
  rw [show ((μ.setSelect k ⟨true, toInt32 (μ.waiter w).caseIndex, status⟩).waiter y).kind =
      .select from (hkind y).trans hy.1,
    show ((μ.setSelect k ⟨true, toInt32 (μ.waiter w).caseIndex, status⟩).waiter y).state =
      some k from (hstate y).trans hy.2]
  simp [setSelect]

/-- A live sender beside a live receiver belongs to the same select, so that completing
either of them ends the other. -/
theorem WaitInv.partner_dead {κ μ : Chans} {tasks : TaskId → Task} {c : ChanId} {r x : WaiterId}
    {status : SelectStatus} (h : WaitInv κ tasks) (hb : Balanced κ c)
    (hr : r ∈ κ.queue c .recv) (hx : x ∈ κ.queue c .send) (hrlive : κ.Keen r)
    (hxlive : κ.Keen x) (hkind : ∀ y, (μ.waiter y).kind = (κ.waiter y).kind)
    (hstate : ∀ y, (μ.waiter y).state = (κ.waiter y).state) :
    (μ.completed r status).live x = false ∧ (μ.completed x status).live r = false := by
  obtain ⟨hrkind, hxkind, hsame⟩ := h.same_select hr hx (hb.pairs r hr x hx hrlive hxlive)
  have hrstate := h.state_eq (by rw [(h.linked.mem.mp hr).1]; simp) hrkind
  have hxstate := hsame.symm.trans hrstate
  exact ⟨Chans.dead_after hkind hstate ⟨hrkind, hrstate⟩ ⟨hxkind, hxstate⟩,
    Chans.dead_after hkind hstate ⟨hxkind, hxstate⟩ ⟨hrkind, hrstate⟩⟩

/-- Completing a waiter leaves the queues. -/
@[simp] theorem Chans.queue_completed (κ : Chans) (c : ChanId) (op : Direction) (w : WaiterId)
    (status : SelectStatus) : (κ.completed w status).queue c op = κ.queue c op := by
  unfold queue
  rw [completed_chan]

/-! ## The attempts -/

/-- The history of the other channels is as before. -/
theorem TrySend.elsewhere {o : Oracle} {s s' : Sys} {c c' : ChanId} {offer : WaiterId}
    {value : Addr} {r : SendResult} (h : TrySend o s c offer value s' r) (hne : c' ≠ c) :
    s'.ch.sent c' = s.ch.sent c' ∧ s'.ch.delivered c' = s.ch.delivered c' := by
  have hne' : c ≠ c' := hne.symm
  cases h with
  | refused h =>
      exact ⟨(Chans.Still.record rfl).sent c', (Chans.Still.record rfl).delivered c'⟩
  | handed hopen hrun hqueue hdead hlive hwake =>
      rw [Chans.sent_append (Chans.handedTo_log _ _ _),
        Chans.delivered_append (Chans.handedTo_log _ _ _)]
      simp [Event.sentOn, Event.deliveredOn, hne']
  | buffered hopen hrun hdead hroom =>
      have hlog : (((s.ch.dropHeads c .recv (s.ch.queue c .recv) []).bufferPush c
          (s.ch.valueAt c value)).record (.buffered c offer (s.ch.valueAt c value))).log =
          s.ch.log ++ [.buffered c offer (s.ch.valueAt c value)] := rfl
      rw [Chans.sent_append hlog, Chans.delivered_append hlog]
      simp [Event.sentOn, Event.deliveredOn, hne']
  | blocked hopen hrun hdead hfull => exact ⟨rfl, rfl⟩

/-- **A send keeps the order.** -/
theorem TrySend.flow {o : Oracle} {s s' : Sys} {c : ChanId} {offer : WaiterId} {value : Addr}
    {r : SendResult} (h : TrySend o s c offer value s' r) (hwait : WaitInv s.ch s.tasks)
    (hb : Balanced s.ch c) (hkeen : ∀ op, ∀ w ∈ s.ch.queue c op, s.ch.live w = true → s.ch.Keen w)
    (hoffer : offer.call < s.ch.clock) (hflow : ∀ c', Flow s.ch c') :
    ∀ c', Flow s'.ch c' := by
  intro c'
  have hmoves := h.moves
  have hclock := hmoves.keeps.2.2.1
  by_cases hc : c' = c
  · subst hc
    cases h with
    | refused h => exact (hflow c').still hmoves (.record rfl) rfl
    | @handed hopen hrun dead rest x hqueue hdead hlive s1 hwake =>
        have hx : x ∈ s.ch.queue c' .recv := by rw [hqueue]; simp
        have hlog := @Chans.handedTo_log s.ch c' x offer value dead rest
        refine (hflow c').extend (S := [(offer, s.ch.valueAt c' value)])
          (D := [(x, s.ch.valueAt c' value)]) ?_ ?_ ?_ ?_ hclock (hmoves.queue c')
          (fun _ => hmoves.live_before) ?_ ?_
        · rw [Chans.sent_append hlog]
          simp [Event.sentOn]
        · rw [Chans.delivered_append hlog]
          simp [Event.deliveredOn]
        · rw [Channel.buffer_of_bare (Chans.handedTo_bare _ _ _ _ _ _ _ _),
            hb.receivers x hx (hkeen _ x hx hlive)]
          simp
        · have hxcall := hwait.queue_call hx
          simp only [List.cons_append, List.nil_append, List.mem_cons, List.not_mem_nil, or_false]
          rintro p (rfl | rfl)
          · exact Nat.lt_of_lt_of_le hoffer hclock
          · exact Nat.lt_of_lt_of_le hxcall hclock
        · intro y hy hl
          have hdeadnow : (s.ch.handedTo c' offer x value dead rest).live y = false := by
            have hy' := (hmoves.queue c' .send).subset hy
            unfold Chans.handedTo
            refine And.left (hwait.partner_dead hb hx hy' (hkeen _ x hx hlive)
              (hkeen _ y hy' (hmoves.live_before hl)) ?_ ?_)
            · exact fun _ => s.ch.dropHeads_kind c' .recv _ (dead ++ [x]) rest
            · exact fun _ => s.ch.dropHeads_state c' .recv _ (dead ++ [x]) rest
          exact absurd (hl.symm.trans hdeadnow) (by simp)
        · intro y hy _ p hp
          have hyrest : y ∈ rest := by simpa [Chans.handedTo] using hy
          rw [List.mem_singleton.mp hp]
          exact (hflow c').before_tail hqueue hyrest
    | buffered hopen hrun hdead hroom =>
        refine (hflow c').extend (S := [(offer, s.ch.valueAt c' value)]) (D := []) ?_ ?_ ?_ ?_
          hclock (hmoves.queue c') (fun _ => hmoves.live_before) ?_ (by simp)
        · rw [Chans.sent_append (κ := s.ch) (l := [.buffered c' offer (s.ch.valueAt c' value)]) rfl]
          simp [Event.sentOn]
        · rw [Chans.delivered_append (κ := s.ch)
            (l := [.buffered c' offer (s.ch.valueAt c' value)]) rfl]
          simp [Event.deliveredOn]
        · show _ = _ ++ ((Chans.bufferPush _ _ _).chan c').buffer
          rw [Chans.bufferPush_chan]
          simp
        · simpa using Nat.lt_of_lt_of_le hoffer hclock
        · intro y hy hl
          have hy' := (hmoves.queue c' .send).subset hy
          have hfull := hb.senders y hy' (hkeen _ y hy' (hmoves.live_before hl))
          omega
    | blocked hopen hrun hdead hfull => exact (hflow c').moves hmoves rfl rfl (by simp)
  · obtain ⟨hsent, hdelivered⟩ := h.elsewhere hc
    exact (hflow c').moves hmoves hsent hdelivered (by rw [h.onlyAt c' hc])

/-- A receive attempt moves no value of another channel. -/
theorem TryRecv.elsewhere {o : Oracle} {s s' : Sys} {c c' : ChanId} {offer : WaiterId}
    {out : Addr} {r : RecvResult} (h : TryRecv o s c offer out s' r) (hne : c' ≠ c) :
    s'.ch.sent c' = s.ch.sent c' ∧ s'.ch.delivered c' = s.ch.delivered c' := by
  have hne' : c ≠ c' := hne.symm
  have hadds : ∀ {κ : Chans} {l : List Event}, κ.log = s.ch.log ++ l →
      (∀ e ∈ l, e.sentOn c' = none ∧ e.deliveredOn c' = none) →
      κ.sent c' = s.ch.sent c' ∧ κ.delivered c' = s.ch.delivered c' := by
    intro κ l hlog hall
    rw [Chans.sent_append hlog, Chans.delivered_append hlog,
      List.filterMap_eq_nil_iff.mpr fun e he => (hall e he).1,
      List.filterMap_eq_nil_iff.mpr fun e he => (hall e he).2]
    simp
  cases h with
  | taken hbuffer hskip =>
      exact hadds rfl (by simp [Event.sentOn, Event.deliveredOn, hne'])
  | drained hbuffer hopen hdead =>
      exact hadds rfl (by simp [Event.sentOn, Event.deliveredOn, hne'])
  | @refilled v rest hbuffer hopen hroom dead tail x hqueue hdead hlive s1 hwake =>
      have hlog := @Chans.bufferedFrom_log (s.ch.tookBuffered c offer out v rest) c x dead tail
      rw [Chans.tookBuffered_log, List.append_assoc] at hlog
      exact hadds hlog (by simp [Event.sentOn, Event.deliveredOn, hne'])
  | direct hbuffer hqueue hdead hlive hwake =>
      exact hadds (Chans.takenFrom_log _ _ _) (by simp [Event.sentOn, Event.deliveredOn, hne'])
  | refused hbuffer hdead h => exact hadds rfl (by simp [Event.sentOn, Event.deliveredOn])
  | blocked hbuffer hdead hopen hrun => exact ⟨rfl, rfl⟩

/-- **A receive keeps the order.** -/
theorem TryRecv.flow {o : Oracle} {s s' : Sys} {c : ChanId} {offer : WaiterId} {out : Addr}
    {r : RecvResult} (h : TryRecv o s c offer out s' r) (hwait : WaitInv s.ch s.tasks)
    (hb : Balanced s.ch c) (hkeen : ∀ op, ∀ w ∈ s.ch.queue c op, s.ch.live w = true → s.ch.Keen w)
    (hoffer : offer.call < s.ch.clock) (hflow : ∀ c', Flow s.ch c') :
    ∀ c', Flow s'.ch c' := by
  intro c'
  have hmoves := h.moves
  have hclock := hmoves.keeps.2.2.1
  by_cases hc : c' = c
  · subst hc
    have hnone : ∀ v rest, (s.ch.chan c').buffer = v :: rest →
        ∀ y, y ∈ s'.ch.queue c' .recv → s'.ch.live y = true → False := by
      intro v rest hbuffer y hy hl
      have hy' := (hmoves.queue c' .recv).subset hy
      have hempty := hb.receivers y hy' (hkeen _ y hy' (hmoves.live_before hl))
      rw [hbuffer] at hempty
      exact absurd hempty (by simp)
    -- the oldest value leaves the buffer, and no sender moves up
    have hpop : ∀ v rest, (s.ch.chan c').buffer = v :: rest →
        s'.ch.log = s.ch.log ++ [.taken c' offer out v] → (s'.ch.chan c').buffer = rest →
        Flow s'.ch c' := by
      intro v rest hbuffer hlog hbuffer'
      refine (hflow c').extend (S := []) (D := [(offer, v)]) ?_ ?_ ?_ ?_
        hclock (hmoves.queue c') (fun _ => hmoves.live_before) (by simp) ?_
      · rw [Chans.sent_append hlog]
        simp [Event.sentOn]
      · rw [Chans.delivered_append hlog]
        simp [Event.deliveredOn]
      · rw [hbuffer', hbuffer]
        simp
      · simpa using Nat.lt_of_lt_of_le hoffer hclock
      · exact fun y hy hl => (hnone v rest hbuffer y hy hl).elim
    cases h with
    | @taken v rest hbuffer hskip =>
        exact hpop v rest hbuffer rfl (by rw [Chans.tookBuffered_chan])
    | @drained v rest hbuffer hopen hdead =>
        exact hpop v rest hbuffer rfl (by rw [Chans.dropHeads_buffer, Chans.tookBuffered_chan])
    | @refilled v rest hbuffer hopen hroom dead tail x hqueue hdead hlive s1 hwake =>
        have hx : x ∈ s.ch.queue c' .send := by rw [hqueue]; simp
        have hlog := @Chans.bufferedFrom_log (s.ch.tookBuffered c' offer out v rest) c' x dead tail
        rw [Chans.tookBuffered_log, List.append_assoc] at hlog
        refine (hflow c').extend
          (S := [(x, (s.ch.tookBuffered c' offer out v rest).valueAt c'
            ((s.ch.tookBuffered c' offer out v rest).waiter x).valueSlot)])
          (D := [(offer, v)]) ?_ ?_ ?_ ?_ hclock (hmoves.queue c') (fun _ => hmoves.live_before)
          ?_ ?_
        · rw [Chans.sent_append hlog]
          simp [List.filterMap_cons, Event.sentOn]
        · rw [Chans.delivered_append hlog]
          simp [Event.deliveredOn]
        · rw [Chans.bufferedFrom_chan, Chans.tookBuffered_chan, hbuffer]
          simp
        · have hxcall := hwait.queue_call hx
          simp only [List.cons_append, List.nil_append, List.mem_cons, List.not_mem_nil, or_false]
          rintro p (rfl | rfl)
          · exact Nat.lt_of_lt_of_le hxcall hclock
          · exact Nat.lt_of_lt_of_le hoffer hclock
        · intro y hy _ p hp
          have hyrest : y ∈ tail := by simpa [Chans.bufferedFrom] using hy
          rw [List.mem_singleton.mp hp]
          exact (hflow c').before_tail hqueue hyrest
        · exact fun y hy hl => (hnone v rest hbuffer y hy hl).elim
    | @direct hbuffer dead tail x hqueue hdead hlive s1 hwake =>
        have hx : x ∈ s.ch.queue c' .send := by rw [hqueue]; simp
        have hlog := @Chans.takenFrom_log s.ch c' x offer out dead tail
        refine (hflow c').extend (S := [(x, s.ch.valueAt c' (s.ch.waiter x).valueSlot)])
          (D := [(offer, s.ch.valueAt c' (s.ch.waiter x).valueSlot)]) ?_ ?_ ?_ ?_ hclock
          (hmoves.queue c') (fun _ => hmoves.live_before) ?_ ?_
        · rw [Chans.sent_append hlog]
          simp [Event.sentOn]
        · rw [Chans.delivered_append hlog]
          simp [Event.deliveredOn]
        · rw [Channel.buffer_of_bare (Chans.takenFrom_bare _ _ _ _ _ _ _ _), hbuffer]
          simp
        · have hxcall := hwait.queue_call hx
          simp only [List.cons_append, List.nil_append, List.mem_cons, List.not_mem_nil, or_false]
          rintro p (rfl | rfl)
          · exact Nat.lt_of_lt_of_le hxcall hclock
          · exact Nat.lt_of_lt_of_le hoffer hclock
        · intro y hy _ p hp
          have hyrest : y ∈ tail := by simpa [Chans.takenFrom] using hy
          rw [List.mem_singleton.mp hp]
          exact (hflow c').before_tail hqueue hyrest
        · intro y hy hl
          have hdeadnow : (s.ch.takenFrom c' offer x out dead tail).live y = false := by
            have hy' := (hmoves.queue c' .recv).subset hy
            unfold Chans.takenFrom
            refine And.right (hwait.partner_dead hb hy' hx
              (hkeen _ y hy' (hmoves.live_before hl)) (hkeen _ x hx hlive) ?_ ?_)
            · exact fun _ => s.ch.dropHeads_kind c' .send _ (dead ++ [x]) tail
            · exact fun _ => s.ch.dropHeads_state c' .send _ (dead ++ [x]) tail
          exact absurd (hl.symm.trans hdeadnow) (by simp)
    | refused hbuffer hdead h =>
        exact (hflow c').still hmoves (.record rfl) (by simp [Chans.record])
    | blocked hbuffer hdead hopen hrun => exact (hflow c').moves hmoves rfl rfl (by simp)
  · obtain ⟨hsent, hdelivered⟩ := h.elsewhere hc
    exact (hflow c').moves hmoves hsent hdelivered (by rw [h.onlyAt c' hc])

/-- **The account, an attempt.** The attempt of a case keeps the account of every channel. -/
theorem TryCase.flow {o : Oracle} {s s' : Sys} {offer : WaiterId} {cs : SelectCase}
    {fired : Option SelectStatus} (h : TryCase o s offer cs s' fired)
    (hwait : WaitInv s.ch s.tasks) (hb : ∀ c, Balanced s.ch c)
    (hkeen : ∀ c op, ∀ w ∈ s.ch.queue c op, s.ch.live w = true → s.ch.Keen w)
    (hoffer : offer.call < s.ch.clock) (hflow : ∀ c, Flow s.ch c) : ∀ c, Flow s'.ch c := by
  cases h with
  | untried huntried => exact hflow
  | send hchan hop h => exact h.flow hwait (hb _) (hkeen _) hoffer hflow
  | recv hchan hop h => exact h.flow hwait (hb _) (hkeen _) hoffer hflow

/-! ## Closing and parking -/

/-- Closing a channel keeps the account of every channel. -/
theorem channelCloseLocked_flow {o : Oracle} {s s' : Sys} {c : ChanId}
    (h : channelCloseLocked o s c = .ok s') (hflow : ∀ c', Flow s.ch c') :
    ∀ c', Flow s'.ch c' := fun c' =>
  (hflow c').still (channelCloseLocked_moves h) (channelCloseLocked_still h)
    (channelCloseLocked_contents h c').1

/-- The waiters of a select stand in the order of its cases. -/
theorem caseWaiters_order (call : CallId) (c : ChanId) (op : Direction) :
    ∀ (cases : List SelectCase) (i : Nat),
      (caseWaiters call c op i cases).Pairwise WaiterId.Before := by
  intro cases
  induction cases with
  | nil => exact fun _ => List.Pairwise.nil
  | cons cs rest ih =>
      intro i
      rw [caseWaiters]
      split
      · refine List.pairwise_cons.mpr ⟨fun w hw => ?_, ih (i + 1)⟩
        obtain ⟨hcall, j, _, hidx, _⟩ := (mem_caseWaiters rest (i + 1)).mp hw
        exact .inr ⟨hcall.symm, by show i < w.idx; omega⟩
      · exact ih (i + 1)

/-- The waiters `new` of the call `k` join a queue at its end. -/
theorem Flow.park {κ κ' : Chans} {c : ChanId} {k : CallId} (h : Flow κ c)
    (new : Direction → List WaiterId) (hpast : ∀ p, p ∈ κ.sent c ∨ p ∈ κ.delivered c → p.1.call < k)
    (hold : ∀ op, ∀ w ∈ κ.queue c op, w.call < k)
    (hnew : ∀ op, (new op).Pairwise WaiterId.Before ∧ ∀ w ∈ new op, w.call = k)
    (hqueue : ∀ op, κ'.queue c op = κ.queue c op ++ new op)
    (hlive : ∀ op, ∀ w ∈ κ.queue c op, κ'.live w = true → κ.live w = true)
    (hlog : κ'.log = κ.log) (hbuffer : (κ'.chan c).buffer = (κ.chan c).buffer)
    (hclock : κ.clock ≤ κ'.clock) : Flow κ' c := by
  have hsent : κ'.sent c = κ.sent c := by unfold Chans.sent; rw [hlog]
  have hdelivered : κ'.delivered c = κ.delivered c := by unfold Chans.delivered; rw [hlog]
  refine ⟨?_, fun p hp => ?_, fun op => ?_, fun w hw hl => ?_, fun w hw hl => ?_⟩
  · rw [hsent, hdelivered, hbuffer]
    exact h.values
  · rw [hsent, hdelivered] at hp
    exact Nat.lt_of_lt_of_le (h.past p hp) hclock
  · rw [hqueue, List.pairwise_append]
    refine ⟨h.order op, (hnew op).1, fun v hv w hw => .inl ?_⟩
    rw [(hnew op).2 w hw]
    exact hold op v hv
  · rw [hsent]
    rw [hqueue] at hw
    rcases List.mem_append.mp hw with hw | hw
    · exact h.senders w hw (hlive _ w hw hl)
    · intro p hp
      refine .inl ?_
      rw [(hnew _).2 w hw]
      exact hpast p (.inl hp)
  · rw [hdelivered]
    rw [hqueue] at hw
    rcases List.mem_append.mp hw with hw | hw
    · exact h.receivers w hw (hlive _ w hw hl)
    · intro p hp
      refine .inl ?_
      rw [(hnew _).2 w hw]
      exact hpast p (.inr hp)

/-- Parking a send or a receive keeps the account of every channel. -/
theorem parkOnChannel_flow {o : Oracle} {s s1 : Sys} {w : WorkerId} {t : TaskId} {op : Direction}
    {c : ChanId} {slot : Addr} (hwait : WaitInv s.ch s.tasks)
    (htry : TryCase o s.ticked ⟨s.ch.clock, 0⟩ ⟨some c, op, slot⟩ s1 none)
    (hflow : ∀ c', Flow s.ch c') :
    ∀ c', Flow (parkOnChannel s1 w t op s.ch.clock c slot).ch c' := by
  intro c'
  rw [(@parkOnChannel_eq s1 w t op s.ch.clock c slot htry.runs_of_blocked).1]
  have hmoves : WaitMoves s s1 := (WaitMoves.quiet (.tick _)).trans htry.moves
  have hlog : s1.ch.log = s.ch.log := htry.log_of_blocked
  have hbuffer : (s1.ch.chan c').buffer = (s.ch.chan c').buffer :=
    Channel.buffer_of_bare ((htry.blocks rfl op.op_ne_other).2 c')
  have hsent : s1.ch.sent c' = s.ch.sent c' := by unfold Chans.sent; rw [hlog]
  have hdelivered : s1.ch.delivered c' = s.ch.delivered c' := by
    unfold Chans.delivered; rw [hlog]
  have hold : ∀ op', ∀ x ∈ s1.ch.queue c' op', x.call < s.ch.clock :=
    fun op' x hx => hwait.queue_call ((hmoves.queue c' op').subset hx)
  have honly := Chans.OnlyQueues.park s1.ch c ⟨s.ch.clock, 0⟩
    { kind := .regular, op := op, task := t, valueSlot := slot }
  refine ((hflow c').moves hmoves hsent hdelivered hbuffer).park (k := s.ch.clock)
    (fun op' => if c' = c ∧ op' = op then [⟨s.ch.clock, 0⟩] else []) ?_ hold ?_ ?_ ?_
    rfl (honly.buffer c') (Nat.le_refl _)
  · rw [hsent, hdelivered]
    exact (hflow c').past
  · intro op'
    split
    · simp
    · simp
  · intro op'
    rw [Chans.queue_park, op.direction_op]
    split
    · next hcase => rw [hcase.1, hcase.2]
    · simp
  · intro op' x hx
    refine Chans.live_of_park ?_
    rintro rfl
    exact Nat.lt_irrefl _ (hold op' _ hx)

/-- Registering a select keeps the account of every channel. -/
theorem selectRegister_flow {s : Sys} {t : TaskId} {cases : List SelectCase}
    {gone : WaiterId → Bool} (hwait : WaitInv s.ch s.tasks) (hflow : ∀ c, Flow s.ch c) :
    ∀ c, Flow (selectRegister t s.ch.clock 0 cases
      ((s.ch.tick.without gone).setSelect s.ch.clock {})) c := by
  intro c
  have honly := selectRegister_only (t := t) (k := s.ch.clock) cases 0
    ((s.ch.tick.without gone).setSelect s.ch.clock {})
  have hsub : ∀ op, ((s.ch.tick.without gone).queue c op).Sublist (s.ch.queue c op) := by
    intro op
    rw [Chans.queue_without]
    exact List.filter_sublist
  have hfiltered : Flow (s.ch.tick.without gone) c :=
    (hflow c).quiet rfl rfl rfl (Nat.le_succ _) hsub fun x hl => by
      rwa [Chans.live_without] at hl
  refine hfiltered.park (k := s.ch.clock) (fun op => caseWaiters s.ch.clock c op 0 cases)
    (hflow c).past (fun op x hx => hwait.queue_call ((hsub op).subset hx))
    (fun op => ⟨caseWaiters_order _ _ _ _ _, fun x hx => ((mem_caseWaiters cases 0).mp hx).1⟩)
    (fun op => selectRegister_queue c op cases 0 _) (fun op x hx hl => ?_) honly.log
    (honly.buffer c) (Nat.le_of_eq honly.clock.symm)
  rw [Chans.live_without]
  exact hwait.live_of_register ((hsub op).subset hx) hl

/-! ## Whole runs -/

/-- **The account, step.** Every form of a channel step keeps the account of every channel. -/
theorem ChanForm.flow {P : List SelectCase → Prop} {s s' : Sys} (hform : ChanForm P s s')
    (hwait : WaitInv s.ch s.tasks) (hb : ∀ c, Balanced s.ch c)
    (hkeen : ∀ c op, ∀ w ∈ s.ch.queue c op, s.ch.live w = true → s.ch.Keen w)
    (hfresh : s.ch.chan s.ch.nextChan = {}) (hflow : ∀ c, Flow s.ch c) : ∀ c, Flow s'.ch c := by
  cases hform with
  | write a bs =>
      exact fun c => (hflow c).quiet rfl rfl rfl (Nat.le_refl _) (fun _ => .refl _) fun _ => id
  | create elemSize capacity allocOk =>
      unfold croutineChannelCreate
      split
      · exact hflow
      · intro c
        refine (hflow c).quiet rfl rfl ?_ (Nat.le_refl _) (fun op => ?_) fun _ => id
        · by_cases hc : c = s.ch.nextChan
          · subst hc
            simp [Chans.setChan, hfresh]
          · simp [Chans.setChan, hc]
        · show (Chans.queue (Chans.setChan _ _ _) c op).Sublist _
          rw [Chans.queue_setChan]
          split
          · cases op <;> exact List.nil_sublist _
          · exact .refl _
  | destroy hc =>
      unfold croutineChannelDestroy
      split
      · exact fun c => (hflow c).quiet rfl rfl rfl (Nat.le_refl _) (fun _ => .refl _) fun _ => id
      · exact hflow
  | @attempt o i cs s1 fired hreg htry gone hdead e he =>
      have hticked : ∀ c, Flow s.ticked.ch c := fun c =>
        (hflow c).quiet rfl rfl rfl (Nat.le_succ _) (fun _ => .refl _) fun _ => id
      have hbticked : ∀ c, Balanced s.ticked.ch c := fun c =>
        (hb c).shrink rfl rfl fun _ _ hx hl => ⟨hx, hl⟩
      have h1 := htry.flow hwait.ticked hbticked hkeen (Nat.lt_succ_self _) hticked
      have hstill : s1.ch.Still ((s1.ch.without gone).report e) :=
        ⟨e.toList, rfl, fun x hx => Event.still_of_returned (he x (Option.mem_toList.mp hx))⟩
      intro c
      refine (h1 c).quiet (hstill.sent c) (hstill.delivered c) rfl (Nat.le_refl _) (fun op => ?_)
        fun x hl => ?_
      · show ((s1.ch.without gone).queue c op).Sublist _
        rw [Chans.queue_without]
        exact List.filter_sublist
      · have hl' : (s1.ch.without gone).live x = true := hl
        rwa [Chans.live_without] at hl'
  | parkSingle hc htry hpc hframe => exact parkOnChannel_flow hwait htry hflow
  | @parkSelect o cases w t hP hreg hsome gone hdead hall hpc hframe =>
      have hpark := @selectRegister_flow s t cases gone hwait hflow
      unfold workerParkCurrentOnChannelLocked
      split
      · exact hpark
      · exact hpark
  | close hc hclose => exact channelCloseLocked_flow hclose hflow
  | @shutdown o θ s1 life hclose =>
      have h1 : ∀ c, Flow s1.ch c := Res.foldlM_induct (I := fun x => ∀ c, Flow x.ch c)
        (fun _ _ _ hI hc => channelCloseLocked_flow hc hI) _ hflow hclose
      exact h1
  | @returnSingle w t op call c' parked hpc hframe =>
      have hstill := Chans.Still.record (κ := s.ch) (Event.still_of_returned
        (singleReturned_returnedCall op call c' (parked && (s.tasks t).channelWakeSuccess)))
      exact fun c => (hflow c).quiet (hstill.sent c) (hstill.delivered c) rfl (Nat.le_refl _)
        (fun _ => .refl _) fun _ => id
  | @returnSelect w t call cases parked hpc hframe index status =>
      have hscrub := (Scrubbed.scrubSelectWaiters hwait.linked call cases.length).1
      have hstill : s.ch.Still ((scrubSelectWaiters call cases.length s.ch).record
          (.selectReturned call cases index status)) :=
        (Chans.Still.of_eq hscrub.only.log).trans (.record rfl)
      refine fun c => (hflow c).quiet (hstill.sent c) (hstill.delivered c) (hscrub.only.buffer c)
        (Nat.le_of_eq hscrub.only.clock.symm) (hscrub.queue c) fun x hl => ?_
      have hl' : (scrubSelectWaiters call cases.length s.ch).live x = true := hl
      rwa [hscrub.live] at hl'

/-- Every channel is in order in every state of every run whose selects try all of their
cases. -/
theorem ThoroughRun.flow {backend : Backend} {s : Sys} (h : ThoroughRun backend s) (c : ChanId) :
    Flow s.ch c := by
  refine Machine.ReachVia.invariant (I := fun x => ∀ c, Flow x.ch c) ?_ ?_ h c
  · intro x hx
    obtain ⟨wakeFd, workers, runCapacity, ioCapacity, _, _, rfl⟩ := hx
    refine fun c => ⟨rfl, ?_, fun op => ?_, fun w hw => ?_, fun w hw => ?_⟩
    · rintro p (hp | hp) <;> exact absurd hp List.not_mem_nil
    · cases op <;> exact List.Pairwise.nil
    · exact absurd hw List.not_mem_nil
    · exact absurd hw List.not_mem_nil
  · intro x a x' hreach hflow ha hstep
    have hrun : ThoroughRun backend x := hreach
    rcases chanForm_or_unchanged hreach (Action.selects_select ha) hstep with hc | hu
    · exact hc.flow (WaitInv.reach hreach) hrun.narrow.balanced (fun _ _ _ => hrun.keen)
        (chan_fresh hreach (Nat.le_refl _)) hflow
    · rw [hu.ch]
      exact hflow

/-- **Values leave a channel in the order they were sent, and waiters in the order they
parked.**  No send that has completed came after a live parked sender, and no receiver that
was served came after a live parked one. -/
theorem channel_fifo {backend : Backend} {s : Sys} (h : ThoroughRun backend s) (c : ChanId) :
    (s.ch.sent c).map Prod.snd = (s.ch.delivered c).map Prod.snd ++ (s.ch.chan c).buffer ∧
    (∀ op, (s.ch.queue c op).Pairwise WaiterId.Before) ∧
    (∀ w ∈ s.ch.queue c .send, s.ch.live w = true → ∀ p ∈ s.ch.sent c, p.1.Before w) ∧
    (∀ w ∈ s.ch.queue c .recv, s.ch.live w = true → ∀ p ∈ s.ch.delivered c, p.1.Before w) :=
  ⟨(h.flow c).values, (h.flow c).order, (h.flow c).senders, (h.flow c).receivers⟩

/-- An external thread fills the buffer and the main task waits to send. -/
def sendsWaits : List Action :=
  oneChannel ++ [.channelTrySend (.external 0) 0 0 .calm, .channelSend (.worker 0) 0 0 .calm] ++
    handOver 0

theorem channel_fifo_sends_waits :
    ∃ s, ThoroughRun .epoll s ∧ s.ch.queue 0 .send = [⟨1, 0⟩] ∧
      (s.ch.sent 0).map Prod.snd = (s.ch.delivered 0).map Prod.snd ++ [[0]] ∧
      ∀ p ∈ s.ch.sent 0, p.1.Before ⟨1, 0⟩ := by
  have hrun : ThoroughRun .epoll ((runtime .epoll).after (small 1) sendsWaits) :=
    .after (small_init 1 (by decide)) (by decide) (by decide +kernel)
  obtain ⟨hvalues, _, hsenders, _⟩ := channel_fifo hrun 0
  refine ⟨_, hrun, by decide +kernel, hvalues.trans ?_, ?_⟩
  · exact congrArg (_ ++ ·) (by decide +kernel)
  · exact hsenders ⟨1, 0⟩ (by decide +kernel) (by decide +kernel)

/-- A select of `2 ^ 32 + 1` cases waits to receive behind a buffered value, and the next
value sent is delivered before it. -/
theorem wide_select_overtakes :
    ∃ s, (runtime .epoll).Reach s ∧ (s.ch.sent 0).map Prod.snd = [[0], [7]] ∧
      (s.ch.delivered 0).map Prod.snd ++ (s.ch.chan 0).buffer = [[7], [0]] := by
  obtain ⟨W, cases, hreach⟩ := reach_wideSelect
    (oneChannel ++ [.channelTrySend (.external 0) 0 0 .calm])
    [.switchOut 0, .release 0, .userWrite (.external 0) 1 [7],
      .channelTrySend (.external 0) 0 1 .calm]
    0 .recv 0 (by decide +kernel) (by decide +kernel) (fun _ _ => rfl)
  exact ⟨_, hreach, rfl, rfl⟩

end Croutine
