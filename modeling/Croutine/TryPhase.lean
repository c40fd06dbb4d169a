import Mathlib.Data.List.Perm.Basic
import Croutine.WaitInv

/-!
# The try phase of a select

The shuffled order is a permutation of the case indices, so the phase tries every case
once.  A case that does not fire only pops dead waiters, and no attempt notices whether
dead waiters are linked: `Chans.without` takes a set of waiters out of all queues, and
every attempt commutes with taking out dead ones.  The phase therefore has the effect of
a single attempt, or of none.
-/

namespace Croutine

/-! ## The order -/

/-- A swap permutes an array. -/
theorem swapIfInBounds_perm (idx : Array Nat) (i j : Nat) :
    (idx.swapIfInBounds i j).toList.Perm idx.toList := by
  rw [Array.swapIfInBounds_def]
  by_cases hbounds : i < idx.size ∧ j < idx.size
  · rw [dif_pos hbounds.1, dif_pos hbounds.2]
    exact (Array.swap_perm hbounds.1 hbounds.2).toList
  · rw [not_and_or] at hbounds
    split_ifs with hi hj
    · exact absurd hj (hbounds.resolve_left (not_not.mpr hi))
    · exact List.Perm.refl _
    · exact List.Perm.refl _

/-- The shuffle of `croutine_select` permutes its indices. -/
theorem shuffleIndices_perm (seed : UInt64) :
    ∀ (n : Nat) (st : UInt64) (idx : Array Nat),
      (shuffleIndices seed n st idx).toList.Perm idx.toList := by
  intro n
  induction n with
  | zero => intro st idx; exact List.Perm.refl _
  | succ i ih =>
      intro st idx
      rw [shuffleIndices]
      split
      · exact List.Perm.refl _
      · exact (ih _ _).trans (swapIfInBounds_perm idx _ _)

/-- Indices of 32 bits are not cut. -/
theorem source_eq {n : Nat} (hn : n ≤ 2 ^ 32) :
    (List.range n).map (· % 2 ^ 32) = List.range n := by
  rw [List.map_congr_left (g := id), List.map_id]
  intro i hi
  exact Nat.mod_eq_of_lt (Nat.lt_of_lt_of_le (List.mem_range.mp hi) hn)

/-- Every index comes up exactly once, unless there are more cases than a `uint32_t`
can count. -/
theorem selectOrder_perm (choice : SelectChoice) {n : Nat} (hn : n ≤ 2 ^ 32) :
    (selectOrder choice n).Perm (List.range n) := by
  unfold selectOrder
  dsimp only
  rw [source_eq hn]
  split
  · exact shuffleIndices_perm _ _ _ _
  · exact List.Perm.refl _

/-- Every index that comes up is one of a `uint32_t`. -/
theorem selectOrder_lt {choice : SelectChoice} {n i : Nat} (h : i ∈ selectOrder choice n) :
    i < 2 ^ 32 := by
  have hsource : i ∈ (List.range n).map (· % 2 ^ 32) := by
    unfold selectOrder at h
    dsimp only at h
    split at h
    · exact (shuffleIndices_perm _ _ _ _).mem_iff.mp h
    · exact h
  obtain ⟨j, _, rfl⟩ := List.mem_map.mp hsource
  exact Nat.mod_lt j (by decide)

/-- `shuffle_indices`, stopping at an access outside of the array. -/
def shuffleIndicesChecked (seed : UInt64) : Nat → UInt64 → Array Nat → Option (Array Nat)
  | 0, _, idx => some idx
  | i + 1, st, idx =>
    if i = 0 then some idx
    else
      let x := selectRngNext seed st
      if h : i < idx.size ∧ x.toNat % (i + 1) < idx.size then
        shuffleIndicesChecked seed i x (idx.swap i (x.toNat % (i + 1)) h.1 h.2)
      else none

/-- The shuffle stays inside its array. -/
theorem shuffleIndicesChecked_eq (seed : UInt64) :
    ∀ (n : Nat) (st : UInt64) (idx : Array Nat), n ≤ idx.size →
      shuffleIndicesChecked seed n st idx = some (shuffleIndices seed n st idx) := by
  intro n
  induction n with
  | zero => intro st idx _; rfl
  | succ i ih =>
      intro st idx hsize
      rw [shuffleIndicesChecked, shuffleIndices]
      split
      · rfl
      · have hj : (selectRngNext seed st).toNat % (i + 1) < i + 1 := Nat.mod_lt _ (by omega)
        have hbounds : i < idx.size ∧ (selectRngNext seed st).toNat % (i + 1) < idx.size :=
          ⟨by omega, by omega⟩
        dsimp only
        rw [dif_pos hbounds, ih _ _ (by rw [Array.size_swap]; omega)]
        unfold Array.swapIfInBounds
        rw [dif_pos hbounds.1, dif_pos hbounds.2]

/-! ## Taking dead waiters out of the queues -/

def Channel.without (ch : Channel) (gone : WaiterId → Bool) : Channel :=
  { ch with
    sendWaiters := ch.sendWaiters.filter (!gone ·)
    recvWaiters := ch.recvWaiters.filter (!gone ·) }

namespace Chans

/-- The waiters in `gone` are linked nowhere any more. -/
def without (κ : Chans) (gone : WaiterId → Bool) : Chans :=
  { κ with
    chan := fun c => (κ.chan c).without gone
    waiter := fun w => if gone w then { κ.waiter w with channel := none } else κ.waiter w }

variable {κ : Chans} {gone : WaiterId → Bool} {c c' : ChanId} {op op' : Direction} {w : WaiterId}

/-- The queues without the waiters that are gone. -/
theorem queue_without : (κ.without gone).queue c op = (κ.queue c op).filter (!gone ·) := by
  cases op <;> rfl

/-- Without nobody everything stays. -/
theorem without_none (h : ∀ w, gone w = false) : κ.without gone = κ := by
  unfold without Channel.without
  simp [h]

@[simp] theorem without_kind : ((κ.without gone).waiter w).kind = (κ.waiter w).kind := by
  unfold without; dsimp only; split <;> rfl

@[simp] theorem without_state : ((κ.without gone).waiter w).state = (κ.waiter w).state := by
  unfold without; dsimp only; split <;> rfl

@[simp] theorem without_op : ((κ.without gone).waiter w).op = (κ.waiter w).op := by
  unfold without; dsimp only; split <;> rfl

@[simp] theorem without_task : ((κ.without gone).waiter w).task = (κ.waiter w).task := by
  unfold without; dsimp only; split <;> rfl

@[simp] theorem without_valueSlot :
    ((κ.without gone).waiter w).valueSlot = (κ.waiter w).valueSlot := by
  unfold without; dsimp only; split <;> rfl

@[simp] theorem without_caseIndex :
    ((κ.without gone).waiter w).caseIndex = (κ.waiter w).caseIndex := by
  unfold without; dsimp only; split <;> rfl

/-- Who stays is live or dead as before. -/
@[simp] theorem live_without : (κ.without gone).live w = κ.live w :=
  live_congr without_kind without_state fun _ _ => rfl

@[simp] theorem valueAt_without (src : Addr) : (κ.without gone).valueAt c src = κ.valueAt c src :=
  rfl

/-- A select ends alike with and without the waiters that are gone. -/
theorem markDone_without (status : SelectStatus) :
    (κ.without gone).markDone w status = (κ.markDone w status).without gone := by
  unfold markDone
  rw [without_kind, without_state, without_caseIndex]
  split <;> rfl

/-- Waiters that are gone are gone from what a pop leaves. -/
theorem dropHeads_without (l rest : List WaiterId) :
    (κ.without gone).dropHeads c op (l.filter (!gone ·)) (rest.filter (!gone ·)) =
      (κ.dropHeads c op l rest).without gone := by
  have hchan : Function.update (κ.without gone).chan c
        (((κ.without gone).chan c).setQueue op (rest.filter (!gone ·))) =
      ((κ.dropHeads c op l rest).without gone).chan := by
    funext x
    by_cases hx : x = c
    · subst hx
      cases op <;> simp [without, Channel.without, dropHeads, Channel.setQueue]
    · simp [without, dropHeads, hx]
  have hwaiter : (fun x => if x ∈ l.filter (!gone ·) then
        { (κ.without gone).waiter x with channel := none } else (κ.without gone).waiter x) =
      ((κ.dropHeads c op l rest).without gone).waiter := by
    funext x
    by_cases hgone : gone x = true <;> by_cases hl : x ∈ l <;>
      simp [without, dropHeads, hgone, hl]
  unfold dropHeads at hchan hwaiter ⊢
  rw [hchan, hwaiter]
  rfl

/-- A waiter that is taken out anyway may be popped before. -/
theorem dropHead_without {rest : List WaiterId} (hqueue : κ.queue c op = w :: rest)
    (hw : gone w = true) : (κ.dropHeads c op [w] rest).without gone = κ.without gone := by
  have hrest : rest.filter (!gone ·) = (κ.without gone).queue c op := by
    rw [queue_without, hqueue, List.filter_cons_of_neg (by simpa using hw)]
  rw [← dropHeads_without, List.filter_cons_of_neg (by simpa using hw), List.filter_nil]
  exact dropHeads_nil _ c op _ hrest.symm

/-- Popping a live waiter does not notice dead ones. -/
theorem popLive_without (c : ChanId) (op : Direction) (gone : WaiterId → Bool) :
    ∀ (q : List WaiterId) {κ : Chans}, κ.queue c op = q →
      (∀ w, gone w = true → κ.live w = false) →
      popLive c op (q.filter (!gone ·)) (κ.without gone) =
        ((popLive c op q κ).1.without gone, (popLive c op q κ).2) := by
  intro q
  induction q with
  | nil => intro κ _ _; rfl
  | cons w rest ih =>
      intro κ hqueue hdead
      have hnext : (κ.dropHeads c op [w] rest).queue c op = rest := by simp
      have hdead' : ∀ x, gone x = true → (κ.dropHeads c op [w] rest).live x = false := by
        intro x hx
        rw [dropHeads_live]
        exact hdead x hx
      rw [popLive, dropHead_eq_dropHeads, dropHeads_live]
      by_cases hw : gone w = true
      · rw [List.filter_cons_of_neg (by simpa using hw), hdead w hw, if_neg (by simp),
          ← ih hnext hdead', dropHead_without hqueue hw]
      · have hw' : gone w = false := by simpa using hw
        have hdrop : (κ.without gone).dropHeads c op [w] (rest.filter (!gone ·)) =
            (κ.dropHeads c op [w] rest).without gone := by
          rw [← dropHeads_without, List.filter_cons_of_pos (by simpa using hw'), List.filter_nil]
        rw [List.filter_cons_of_pos (by simpa using hw'), popLive, dropHead_eq_dropHeads, hdrop,
          live_without, dropHeads_live]
        split
        · rfl
        · exact ih hnext hdead'

/-- **The pop finds the same live waiter** when dead ones have been taken out before. -/
theorem popLiveWaiterLocked_without (hdead : ∀ w, gone w = true → κ.live w = false) :
    (κ.without gone).popLiveWaiterLocked c op =
      ((κ.popLiveWaiterLocked c op).1.without gone, (κ.popLiveWaiterLocked c op).2) := by
  unfold popLiveWaiterLocked
  rw [queue_without]
  exact popLive_without c op gone _ rfl hdead

end Chans

def Sys.without (s : Sys) (gone : WaiterId → Bool) : Sys :=
  { s with ch := s.ch.without gone }

section Commute

variable {o : Oracle} {s : Sys} {gone : WaiterId → Bool} {c : ChanId}

/-- Waking a task leaves the channels alone. -/
theorem workerWakeTaskLocked_keeps_ch {s1 : Sys} {t : TaskId} {success : Bool}
    (h : workerWakeTaskLocked o s t success = some s1) : s1.ch = s.ch := by
  obtain ⟨_, cap, _, rfl⟩ := workerWakeTaskLocked_some h
  rfl

/-- A wake is the same without the waiters that are gone. -/
theorem wakeWaiter_without (w : WaiterId) (success : Bool) (message : String) :
    wakeWaiter o (s.without gone) w success message =
      (wakeWaiter o s w success message).map (·.without gone) := by
  unfold wakeWaiter Sys.without
  rw [workerWakeTaskLocked_ch, Chans.without_task]
  cases hwake : workerWakeTaskLocked o s (s.ch.waiter w).task success with
  | none => rfl
  | some s1 =>
      have hch := workerWakeTaskLocked_keeps_ch hwake
      simp only [Option.map_some, Except.map, Sys.mapCh, Chans.without_task, ← hch]
      rfl

/-- A completion is the same without the waiters that are gone. -/
theorem completeWaiterLocked_without (w : WaiterId) (status : SelectStatus) :
    completeWaiterLocked o (s.without gone) w status =
      (completeWaiterLocked o s w status).map (·.without gone) := by
  have hmark : (s.without gone).mapCh (·.markDone w status) =
      (s.mapCh (·.markDone w status)).without gone :=
    congrArg (fun κ => { s with ch := κ }) (Chans.markDone_without status)
  unfold completeWaiterLocked
  rw [hmark]
  exact wakeWaiter_without w true _

/-- The same, when the channels were updated in between. -/
theorem completeWaiterLocked_without_at (κ : Chans) (w : WaiterId) (status : SelectStatus) :
    completeWaiterLocked o { s with ch := κ.without gone } w status =
      (completeWaiterLocked o { s with ch := κ } w status).map (·.without gone) :=
  @completeWaiterLocked_without o { s with ch := κ } gone w status

/-- An attempt does not notice dead waiters. -/
theorem wakeWaitingReceiverLocked_without (hdead : ∀ w, gone w = true → s.ch.live w = false)
    (offer : WaiterId) (value : Addr) :
    wakeWaitingReceiverLocked o (s.without gone) c offer value =
      (wakeWaitingReceiverLocked o s c offer value).map fun p => (p.1.without gone, p.2) := by
  unfold wakeWaitingReceiverLocked
  rw [show (s.without gone).ch.popLiveWaiterLocked c .recv = _ from
    Chans.popLiveWaiterLocked_without hdead]
  cases s.ch.popLiveWaiterLocked c .recv with
  | mk κ found =>
      cases found with
      | none => rfl
      | some receiver =>
          dsimp only
          rw [Chans.valueAt_without, Chans.without_valueSlot]
          refine Eq.trans (congrArg (· >>= _) (completeWaiterLocked_without_at
            ((κ.copyValue (κ.waiter receiver).valueSlot (κ.valueAt c value)).record
              (.handoff c offer receiver (κ.waiter receiver).valueSlot (κ.valueAt c value)))
            receiver .value)) ?_
          exact Res.map_bind_pair _ _ _

/-- A direct handover is the same without dead waiters. -/
theorem wakeWaitingSenderDirectLocked_without
    (hdead : ∀ w, gone w = true → s.ch.live w = false) (offer : WaiterId) (out : Addr) :
    wakeWaitingSenderDirectLocked o (s.without gone) c offer out =
      (wakeWaitingSenderDirectLocked o s c offer out).map fun p => (p.1.without gone, p.2) := by
  unfold wakeWaitingSenderDirectLocked
  rw [show (s.without gone).ch.popLiveWaiterLocked c .send = _ from
    Chans.popLiveWaiterLocked_without hdead]
  cases s.ch.popLiveWaiterLocked c .send with
  | mk κ found =>
      cases found with
      | none => rfl
      | some sender =>
          dsimp only
          rw [Chans.without_valueSlot, Chans.valueAt_without]
          refine Eq.trans (congrArg (· >>= _) (completeWaiterLocked_without_at
            ((κ.copyValue out (κ.valueAt c (κ.waiter sender).valueSlot)).record
              (.handoff c sender offer out (κ.valueAt c (κ.waiter sender).valueSlot)))
            sender .sent)) ?_
          exact Res.map_bind_pair _ _ _

/-- A channel that is overwritten without the waiters that are gone. -/
theorem setChan_without (κ : Chans) (ch : Channel) :
    (κ.without gone).setChan c (ch.without gone) = (κ.setChan c ch).without gone := by
  have hchan : Function.update (κ.without gone).chan c (ch.without gone) =
      fun x => (Function.update κ.chan c ch x).without gone := by
    funext x
    by_cases hx : x = c
    · subst hx; simp
    · simp [hx, Chans.without]
  exact congrArg (fun f => { κ.without gone with chan := f }) hchan

/-- A value enters the buffer alike. -/
theorem bufferPush_without (κ : Chans) (v : Bytes) :
    (κ.without gone).bufferPush c v = (κ.bufferPush c v).without gone :=
  setChan_without κ { κ.chan c with buffer := (κ.chan c).buffer ++ [v] }

/-- A value leaves the buffer alike. -/
theorem bufferPop_without (κ : Chans) (v : Bytes) (rest : List Bytes) (out : Addr) :
    (κ.without gone).bufferPop c v rest out = (κ.bufferPop c v rest out).without gone :=
  congrArg (·.copyValue out v) (setChan_without κ { κ.chan c with buffer := rest })

/-- A sender moves up alike without dead waiters. -/
theorem bufferOneWaitingSenderLocked_without
    (hdead : ∀ w, gone w = true → s.ch.live w = false) :
    bufferOneWaitingSenderLocked o (s.without gone) c =
      (bufferOneWaitingSenderLocked o s c).map (·.without gone) := by
  unfold bufferOneWaitingSenderLocked
  rw [show (s.without gone).ch.popLiveWaiterLocked c .send = _ from
    Chans.popLiveWaiterLocked_without hdead]
  by_cases hskip : (s.ch.chan c).capacity = 0 ∨
      (s.ch.chan c).buffer.length ≥ (s.ch.chan c).capacity
  · rw [if_pos hskip, if_pos (show ((s.without gone).ch.chan c).capacity = 0 ∨
      ((s.without gone).ch.chan c).buffer.length ≥ ((s.without gone).ch.chan c).capacity
      from hskip)]
    rfl
  · rw [if_neg hskip, if_neg (show ¬(((s.without gone).ch.chan c).capacity = 0 ∨
      ((s.without gone).ch.chan c).buffer.length ≥ ((s.without gone).ch.chan c).capacity)
      from hskip)]
    cases s.ch.popLiveWaiterLocked c .send with
    | mk κ found =>
        cases found with
        | none => rfl
        | some sender =>
            dsimp only
            rw [Chans.without_valueSlot, Chans.valueAt_without, bufferPush_without]
            exact completeWaiterLocked_without_at
              ((κ.bufferPush c (κ.valueAt c (κ.waiter sender).valueSlot)).record
                (.buffered c sender (κ.valueAt c (κ.waiter sender).valueSlot)))
              sender .sent

/-- A send attempt is the same without dead waiters. -/
theorem trySendLocked_without (hdead : ∀ w, gone w = true → s.ch.live w = false)
    (offer : WaiterId) (value : Addr) :
    trySendLocked o (s.without gone) c offer value =
      (trySendLocked o s c offer value).map fun p => (p.1.without gone, p.2) := by
  unfold trySendLocked
  rw [wakeWaitingReceiverLocked_without hdead]
  by_cases hclosed : ((s.ch.chan c).closed || s.shutdownRequested) = true
  · rw [if_pos hclosed, if_pos (show (((s.without gone).ch.chan c).closed ||
      (s.without gone).shutdownRequested) = true from hclosed)]
    rfl
  · rw [if_neg hclosed, if_neg (show ¬(((s.without gone).ch.chan c).closed ||
      (s.without gone).shutdownRequested) = true from hclosed)]
    cases wakeWaitingReceiverLocked o s c offer value with
    | error e => rfl
    | ok p =>
        obtain ⟨s1, woke⟩ := p
        cases woke with
        | true => rfl
        | false =>
            let room := (s1.ch.chan c).capacity > 0 ∧
              (s1.ch.chan c).buffer.length < (s1.ch.chan c).capacity
            let buffered : Sys := s1.mapCh fun κ => (κ.bufferPush c (s1.ch.valueAt c value)).record
              (.buffered c offer (s1.ch.valueAt c value))
            have hpush : (s1.without gone).mapCh (fun κ =>
                (κ.bufferPush c (s1.ch.valueAt c value)).record
                  (.buffered c offer (s1.ch.valueAt c value))) = buffered.without gone :=
              congrArg (fun κ : Chans => { s1 with
                ch := κ.record (.buffered c offer (s1.ch.valueAt c value)) })
                (bufferPush_without s1.ch _)
            show (if room then _ else Except.ok (s1.without gone, SendResult.wouldBlock)) =
              Except.map _ (if room then _ else Except.ok (s1, SendResult.wouldBlock))
            split
            · exact congrArg (fun x => Except.ok (x, SendResult.ok)) hpush
            · rfl

/-- A receive attempt is the same without dead waiters. -/
theorem tryRecvLocked_without (hdead : ∀ w, gone w = true → s.ch.live w = false)
    (offer : WaiterId) (out : Addr) :
    tryRecvLocked o (s.without gone) c offer out =
      (tryRecvLocked o s c offer out).map fun p => (p.1.without gone, p.2) := by
  unfold tryRecvLocked
  rw [wakeWaitingSenderDirectLocked_without hdead]
  rw [show ((s.without gone).ch.chan c).buffer = (s.ch.chan c).buffer from rfl]
  cases (s.ch.chan c).buffer with
  | cons v rest =>
      dsimp only
      let took : Sys := s.mapCh fun κ => (κ.bufferPop c v rest out).record (.taken c offer out v)
      have htook : (s.without gone).mapCh (fun κ =>
          (κ.bufferPop c v rest out).record (.taken c offer out v)) = took.without gone :=
        congrArg (fun κ : Chans => { s with ch := κ.record (.taken c offer out v) })
          (bufferPop_without s.ch v rest out)
      rw [htook]
      have hone := @bufferOneWaitingSenderLocked_without o took gone c hdead
      show (if (took.ch.chan c).closed = true then _ else
          bufferOneWaitingSenderLocked o (took.without gone) c >>= fun x =>
            pure (x, RecvResult.value)) =
        Except.map _ (if (took.ch.chan c).closed = true then _ else
          bufferOneWaitingSenderLocked o took c >>= fun x => pure (x, RecvResult.value))
      split
      · rfl
      · rw [hone]
        exact Res.map_bind_pair _ _ _
  | nil =>
      dsimp only
      cases wakeWaitingSenderDirectLocked o s c offer out with
      | error e => rfl
      | ok p =>
          obtain ⟨s1, woke⟩ := p
          cases woke with
          | true => rfl
          | false =>
              show (if ((s1.ch.chan c).closed || s1.shutdownRequested) = true then _ else
                  Except.ok (s1.without gone, RecvResult.empty)) =
                Except.map _ (if ((s1.ch.chan c).closed || s1.shutdownRequested) = true then _
                  else Except.ok (s1, RecvResult.empty))
              split
              · rfl
              · rfl

/-- The attempt of a case is the same without dead waiters. -/
theorem trySelectCaseLocked_without (hdead : ∀ w, gone w = true → s.ch.live w = false)
    (offer : WaiterId) (cs : SelectCase) :
    trySelectCaseLocked o (s.without gone) offer cs =
      (trySelectCaseLocked o s offer cs).map fun p => (p.1.without gone, p.2) := by
  unfold trySelectCaseLocked
  cases cs.channel with
  | none => rfl
  | some c =>
      cases cs.op with
      | send =>
          dsimp only
          rw [trySendLocked_without hdead]
          cases trySendLocked o s c offer cs.value with
          | error e => rfl
          | ok p => obtain ⟨s1, r⟩ := p; cases r <;> rfl
      | recv =>
          dsimp only
          rw [tryRecvLocked_without hdead]
          cases tryRecvLocked o s c offer cs.value with
          | error e => rfl
          | ok p => obtain ⟨s1, r⟩ := p; cases r <;> rfl
      | other => rfl

end Commute

/-! ## A case that does not fire -/

namespace Chans

variable {κ : Chans} {gone more : WaiterId → Bool} {c : ChanId} {op : Direction}

/-- Taking out twice is taking out both sets. -/
theorem without_without :
    (κ.without gone).without more = κ.without fun w => gone w || more w := by
  have hchan : (fun c => ((κ.chan c).without gone).without more) =
      fun c => (κ.chan c).without fun w => gone w || more w := by
    funext c
    simp only [Channel.without, List.filter_filter, Bool.not_or, Bool.and_comm]
  have hwaiter : (fun w => if more w then { (if gone w then { κ.waiter w with channel := none }
        else κ.waiter w) with channel := none }
      else if gone w then { κ.waiter w with channel := none } else κ.waiter w) =
      fun w => if gone w || more w then { κ.waiter w with channel := none } else κ.waiter w := by
    funext w
    cases gone w <;> cases more w <;> simp
  unfold without
  rw [hchan, hwaiter]

/-- Popping all waiters of one queue takes them out. -/
theorem dropHeads_eq_without (h : κ.Linked) :
    κ.dropHeads c op (κ.queue c op) [] = κ.without fun w => decide (w ∈ κ.queue c op) := by
  -- the other queues do not have these waiters
  have hqueue : ∀ c' op', (κ.queue c' op').filter (fun w => !decide (w ∈ κ.queue c op)) =
      if c' = c ∧ op' = op then [] else κ.queue c' op' := by
    intro c' op'
    split
    · next hcase =>
      rw [hcase.1, hcase.2, List.filter_eq_nil_iff]
      intro w hw
      simp [hw]
    · next hcase =>
      rw [List.filter_eq_self]
      intro w hw
      have hnot : w ∉ κ.queue c op := by
        intro hmem
        obtain ⟨hc', hop'⟩ := h.mem.mp hw
        obtain ⟨hc, hop⟩ := h.mem.mp hmem
        exact hcase ⟨Option.some.inj (hc'.symm.trans hc), hop'.symm.trans hop⟩
      simp [hnot]
  have hchan : Function.update κ.chan c ((κ.chan c).setQueue op []) =
      fun x => (κ.chan x).without fun w => decide (w ∈ κ.queue c op) := by
    funext x
    have hsend := hqueue x .send
    have hrecv := hqueue x .recv
    unfold Channel.without
    rw [show (κ.chan x).sendWaiters = κ.queue x .send from rfl, hsend,
      show (κ.chan x).recvWaiters = κ.queue x .recv from rfl, hrecv]
    by_cases hx : x = c
    · subst hx
      cases op <;> simp [Channel.setQueue, queue, Channel.queue]
    · simp [hx, queue, Channel.queue]
  have hwaiter : (fun w => if w ∈ κ.queue c op then { κ.waiter w with channel := none }
      else κ.waiter w) = (κ.without fun w => decide (w ∈ κ.queue c op)).waiter := by
    funext w
    simp [without]
  unfold dropHeads without at *
  rw [hchan, hwaiter]

end Chans

/-- An operation on the channel finds no live partner, and no room or no value. -/
def Chans.Blocks (κ : Chans) (c : ChanId) : Direction → Prop
  | .send => (∀ r ∈ κ.queue c .recv, κ.live r = false) ∧
      (κ.chan c).capacity ≤ (κ.chan c).buffer.length
  | .recv => (∀ x ∈ κ.queue c .send, κ.live x = false) ∧ (κ.chan c).buffer = []

/-- The direction an operation looks for a waiter in. -/
def Direction.partner : Direction → Direction
  | .send => .recv
  | .recv => .send

/-- Where an operation blocks, no partner is live. -/
theorem Chans.Blocks.partners {κ : Chans} {c : ChanId} {op : Direction} (h : κ.Blocks c op) :
    ∀ w ∈ κ.queue c op.partner, κ.live w = false := by
  cases op <;> exact h.1

/-- **An attempt that does not fire** has nothing to try, or finds that the operation blocks
on an open channel before shutdown, and drops the dead waiters it looked at. -/
theorem TryCase.blocked_cases {o : Oracle} {s s' : Sys} {offer : WaiterId} {cs : SelectCase}
    (h : TryCase o s offer cs s' none) :
    (cs.Untried ∧ s' = s) ∨
      ∃ c, cs.channel = some c ∧ (s.ch.chan c).closed = false ∧ s.shutdownRequested = false ∧
        s.ch.Blocks c cs.op.direction ∧
        s' = { s with
          ch := s.ch.dropHeads c cs.op.direction.partner
            (s.ch.queue c cs.op.direction.partner) [] } := by
  generalize hfired : (none : Option SelectStatus) = fired at h
  cases h with
  | untried huntried => exact .inl ⟨huntried, rfl⟩
  | @send c hchan hop s' r h =>
      refine .inr ⟨c, hchan, ?_⟩
      rw [hop]
      cases h with
      | blocked hopen hrun hdead hfull => exact ⟨hopen, hrun, ⟨hdead, hfull⟩, rfl⟩
      | refused h => simp [sendStatus] at hfired
      | handed hopen hrun hqueue hdead hlive hwake => simp [sendStatus] at hfired
      | buffered hopen hrun hdead hroom => simp [sendStatus] at hfired
  | @recv c hchan hop s' r h =>
      refine .inr ⟨c, hchan, ?_⟩
      rw [hop]
      cases h with
      | blocked hbuffer hdead hopen hrun => exact ⟨hopen, hrun, ⟨hdead, hbuffer⟩, rfl⟩
      | taken hbuffer hskip => simp [recvStatus] at hfired
      | drained hbuffer hopen hdead => simp [recvStatus] at hfired
      | refilled hbuffer hopen hroom hqueue hdead hlive hwake => simp [recvStatus] at hfired
      | direct hbuffer hqueue hdead hlive hwake => simp [recvStatus] at hfired
      | refused hbuffer hdead h => simp [recvStatus] at hfired

/-- A case that does not fire only takes dead waiters out of one queue. -/
theorem trySelectCaseLocked_blocked {o : Oracle} {s s' : Sys} {offer : WaiterId}
    {cs : SelectCase} (hlinked : s.ch.Linked)
    (h : trySelectCaseLocked o s offer cs = .ok (s', none)) :
    ∃ gone, (∀ w, gone w = true → s.ch.live w = false) ∧ s' = s.without gone := by
  rcases (trySelectCaseLocked_ok h).blocked_cases with ⟨_, rfl⟩ | ⟨c, _, _, _, hblocks, rfl⟩
  · refine ⟨fun _ => false, by simp, ?_⟩
    unfold Sys.without
    rw [Chans.without_none fun _ => rfl]
  · refine ⟨fun w => decide (w ∈ s.ch.queue c cs.op.direction.partner),
      fun w hw => hblocks.partners w (by simpa using hw), ?_⟩
    unfold Sys.without
    rw [Chans.dropHeads_eq_without hlinked]

/-! ## The whole phase -/

section Phase

variable {o : Oracle} {call : CallId} {cases : List SelectCase} {s : Sys}

/-- Either no case of the order fires, and only dead waiters were taken out, or the phase
ends with the attempt on one case, up to dead waiters that were taken out. -/
inductive PhaseOutcome (o : Oracle) (call : CallId) (cases : List SelectCase) (s : Sys)
    (order : List Nat) : Res (Sys × Option (Nat × SelectStatus)) → Prop
  | blocked {gone : WaiterId → Bool} (hdead : ∀ w, gone w = true → s.ch.live w = false)
      (hall : ∀ i ∈ order, ∀ cs, cases[i]? = some cs →
        ∃ s1, trySelectCaseLocked o s ⟨call, i⟩ cs = .ok (s1, none)) :
      PhaseOutcome o call cases s order (.ok (s.without gone, none))
  | ended {gone : WaiterId → Bool} (hdead : ∀ w, gone w = true → s.ch.live w = false)
      {i : Nat} {cs : SelectCase} (hi : i ∈ order) (hcs : cases[i]? = some cs)
      (hends : ∀ s1, trySelectCaseLocked o s ⟨call, i⟩ cs ≠ .ok (s1, none)) :
      PhaseOutcome o call cases s order
        ((trySelectCaseLocked o s ⟨call, i⟩ cs).map fun p => (p.1.without gone, p.2.map (i, ·)))

/-- A case that does not fire leaves the outcome to the others. -/
theorem PhaseOutcome.skip {i : Nat} {rest : List Nat} {x : Res (Sys × Option (Nat × SelectStatus))}
    (h : PhaseOutcome o call cases s rest x)
    (hblocked : ∀ cs, cases[i]? = some cs →
      ∃ s1, trySelectCaseLocked o s ⟨call, i⟩ cs = .ok (s1, none)) :
    PhaseOutcome o call cases s (i :: rest) x := by
  cases h with
  | blocked hdead hall =>
      refine .blocked hdead fun j hj cs hcs => ?_
      rcases List.mem_cons.mp hj with rfl | hj
      · exact hblocked cs hcs
      · exact hall j hj cs hcs
  | ended hdead hi hcs hends => exact .ended hdead (List.mem_cons_of_mem _ hi) hcs hends

/-- **The try phase, one case after another.**  Every attempt is that on the state the phase
began with, without some dead waiters. -/
theorem selectTryCases_outcome (hlinked : s.ch.Linked) :
    ∀ (order : List Nat) {gone : WaiterId → Bool}, (∀ w, gone w = true → s.ch.live w = false) →
      PhaseOutcome o call cases s order
        (selectTryCases o call cases order (s.without gone)) := by
  intro order
  induction order with
  | nil =>
      intro gone hgone
      exact .blocked hgone (by simp)
  | cons i rest ih =>
      intro gone hgone
      rw [selectTryCases]
      cases hcase : cases[i]? with
      | none => exact (ih hgone).skip (by simp [hcase])
      | some cs =>
          dsimp only
          rw [trySelectCaseLocked_without hgone]
          cases halone : trySelectCaseLocked o s ⟨call, i⟩ cs with
          | error e =>
              have hends := @PhaseOutcome.ended o call cases s (i :: rest) gone hgone i cs
                List.mem_cons_self hcase (by rw [halone]; simp)
              rw [halone] at hends
              exact hends
          | ok p =>
              obtain ⟨s1, fired⟩ := p
              cases fired with
              | some status =>
                  have hends := @PhaseOutcome.ended o call cases s (i :: rest) gone hgone i cs
                    List.mem_cons_self hcase (by rw [halone]; simp)
                  rw [halone] at hends
                  exact hends
              | none =>
                  obtain ⟨first, hfirst, rfl⟩ := trySelectCaseLocked_blocked hlinked halone
                  have hboth : ∀ w, (first w || gone w) = true → s.ch.live w = false := by
                    intro w hw
                    rcases Bool.or_eq_true _ _ ▸ hw with hw | hw
                    · exact hfirst w hw
                    · exact hgone w hw
                  have hrest := ih hboth
                  rw [show s.without (fun w => first w || gone w) =
                    (s.without first).without gone from
                    congrArg (fun κ => { s with ch := κ }) Chans.without_without.symm] at hrest
                  refine hrest.skip fun cs' hcs' => ?_
                  rw [hcase] at hcs'
                  cases hcs'
                  exact ⟨_, halone⟩

/-- The phase from the state at lock acquisition, with no waiter taken out before. -/
theorem selectTryCases_start (hlinked : s.ch.Linked) (order : List Nat) :
    PhaseOutcome o call cases s order (selectTryCases o call cases order s) := by
  have hout := @selectTryCases_outcome o call cases s hlinked order (fun _ => false) (by simp)
  have hnone : s.without (fun _ => false) = s :=
    congrArg (fun κ => { s with ch := κ }) (Chans.without_none fun _ => rfl)
  rwa [hnone] at hout

/-- A try phase that fires nothing has only taken dead waiters out. -/
theorem selectTryCases_none {order : List Nat} {s' : Sys} (hlinked : s.ch.Linked)
    (h : selectTryCases o call cases order s = .ok (s', none)) :
    ∃ gone, (∀ w, gone w = true → s.ch.live w = false) ∧ s' = s.without gone ∧
      ∀ i ∈ order, ∀ cs, cases[i]? = some cs →
        ∃ s1, trySelectCaseLocked o s ⟨call, i⟩ cs = .ok (s1, none) := by
  have hout := @selectTryCases_start o call cases s hlinked order
  rw [h] at hout
  generalize hx : (Except.ok (s', none) : Res _) = x at hout
  cases hout with
  | @blocked gone hdead hall =>
      obtain ⟨rfl, _⟩ := Prod.mk.inj (Except.ok.inj hx)
      exact ⟨gone, hdead, rfl, hall⟩
  | @ended gone hdead i cs hi hcs hends =>
      obtain ⟨⟨s1, fired⟩, hp, hres⟩ := Res.map_ok.mp hx.symm
      obtain ⟨_, hfired⟩ := Prod.mk.inj hres
      obtain rfl : fired = none := Option.map_eq_none_iff.mp hfired
      exact absurd hp (hends s1)

/-- A try phase that fires a case does what the attempt of that case does. -/
theorem selectTryCases_some {order : List Nat} {s' : Sys} {i : Nat} {status : SelectStatus}
    (hlinked : s.ch.Linked)
    (h : selectTryCases o call cases order s = .ok (s', some (i, status))) :
    ∃ cs s1 gone, i ∈ order ∧ cases[i]? = some cs ∧ (∀ w, gone w = true → s.ch.live w = false) ∧
      trySelectCaseLocked o s ⟨call, i⟩ cs = .ok (s1, some status) ∧ s' = s1.without gone := by
  have hout := @selectTryCases_start o call cases s hlinked order
  rw [h] at hout
  generalize hx : (Except.ok (s', some (i, status)) : Res _) = x at hout
  cases hout with
  | blocked hdead hall => exact absurd (Prod.mk.inj (Except.ok.inj hx)).2 (by simp)
  | @ended gone hdead j cs hj hcs hends =>
      obtain ⟨⟨s1, fired⟩, hp, hres⟩ := Res.map_ok.mp hx.symm
      obtain ⟨hs', hfired⟩ := Prod.mk.inj hres
      obtain ⟨st, rfl, hpair⟩ := Option.map_eq_some_iff.mp hfired
      obtain ⟨rfl, rfl⟩ := Prod.mk.inj hpair
      exact ⟨cs, s1, gone, hj, hcs, hdead, hp, hs'.symm⟩

/-- A case is ready when its channel is not `NULL` and the corresponding single attempt
returns something other than would-block or empty.  A case of another operation never is. -/
def SelectCase.Ready (o : Oracle) (s : Sys) (offer : WaiterId) (cs : SelectCase) : Prop :=
  ∃ c, cs.channel = some c ∧
    match cs.op with
    | .send => ∃ s1 r, trySendLocked o s c offer cs.value = .ok (s1, r) ∧ r ≠ .wouldBlock
    | .recv => ∃ s1 r, tryRecvLocked o s c offer cs.value = .ok (s1, r) ∧ r ≠ .empty
    | .other => False

/-- A case is ready when its attempt fires. -/
theorem SelectCase.ready_iff {offer : WaiterId} {cs : SelectCase} :
    cs.Ready o s offer ↔ ∃ s1 status, trySelectCaseLocked o s offer cs = .ok (s1, some status) := by
  unfold SelectCase.Ready trySelectCaseLocked
  cases cs.channel with
  | none => simp
  | some c =>
      simp only [Option.some.injEq, exists_eq_left']
      cases cs.op with
      | send =>
          cases trySendLocked o s c offer cs.value with
          | error e => simp [bind, Except.bind]
          | ok p => obtain ⟨s1, r⟩ := p; cases r <;> simp [bind, Except.bind, pure, Except.pure]
      | recv =>
          cases tryRecvLocked o s c offer cs.value with
          | error e => simp [bind, Except.bind]
          | ok p => obtain ⟨s1, r⟩ := p; cases r <;> simp [bind, Except.bind, pure, Except.pure]
      | other => simp

end Phase

/-- **The try phase of a select** visits every case once and within bounds, fires a case
exactly when one is ready, has the effect of that one attempt up to dead waiters, and
leaves flags, buffers and live waiters alone when no case fires.  It returns unless the
single attempt on some case would stop the program. -/
theorem select_try_phase {backend : Backend} {s : Sys} (hreach : (runtime backend).Reach s)
    (o : Oracle) (choice : SelectChoice) (cases : List SelectCase)
    (hn : cases.length < 2 ^ 31) :
    ((selectOrder choice cases.length).Perm (List.range cases.length) ∧
      shuffleIndicesChecked choice.seed cases.length choice.rng
          ((List.range cases.length).map (· % 2 ^ 32)).toArray =
        some (shuffleIndices choice.seed cases.length choice.rng
          ((List.range cases.length).map (· % 2 ^ 32)).toArray) ∧
      ∀ i ∈ selectOrder choice cases.length, i < cases.length) ∧
    (∀ s' fired, selectTryCases o s.ch.clock cases (selectOrder choice cases.length) s.ticked =
        .ok (s', fired) →
      (fired.isSome = true ↔
        ∃ i cs, cases[i]? = some cs ∧ SelectCase.Ready o s.ticked ⟨s.ch.clock, i⟩ cs) ∧
      (∀ i status, fired = some (i, status) →
        ∃ cs s1 gone, cases[i]? = some cs ∧ (∀ w, gone w = true → s.ch.live w = false) ∧
          trySelectCaseLocked o s.ticked ⟨s.ch.clock, i⟩ cs = .ok (s1, some status) ∧
          s' = s1.without gone) ∧
      (fired = none →
        (∃ gone, (∀ w, gone w = true → s.ch.live w = false) ∧ s' = s.ticked.without gone) ∧
        ∀ c, (s'.ch.chan c).closed = (s.ch.chan c).closed ∧
          (s'.ch.chan c).buffer = (s.ch.chan c).buffer ∧
          ∀ op, (s'.ch.queue c op).filter s'.ch.live = (s.ch.queue c op).filter s.ch.live)) ∧
    ((∀ i cs, cases[i]? = some cs →
        ∃ p, trySelectCaseLocked o s.ticked ⟨s.ch.clock, i⟩ cs = .ok p) →
      ∃ p, selectTryCases o s.ch.clock cases (selectOrder choice cases.length) s.ticked =
        .ok p) := by
  have hperm := selectOrder_perm choice (n := cases.length) (by omega)
  have hlinked : s.ticked.ch.Linked := (WaitInv.reach hreach).ticked.linked
  refine ⟨⟨hperm, ?_, ?_⟩, ?_, ?_⟩
  · exact shuffleIndicesChecked_eq _ _ _ _ (by simp)
  · exact fun i hi => List.mem_range.mp (hperm.mem_iff.mp hi)
  · intro s' fired hres
    cases fired with
    | none =>
        obtain ⟨gone, hdead, rfl, hall⟩ := selectTryCases_none hlinked hres
        refine ⟨⟨by simp, ?_⟩, by simp, fun _ => ⟨⟨gone, hdead, rfl⟩, fun c => ⟨rfl, rfl, ?_⟩⟩⟩
        · rintro ⟨i, cs, hcs, hready⟩
          have hi : i ∈ selectOrder choice cases.length :=
            hperm.mem_iff.mpr (List.mem_range.mpr (List.getElem?_eq_some_iff.mp hcs).1)
          obtain ⟨s1, hblocked⟩ := hall i hi cs hcs
          obtain ⟨s2, status, hfires⟩ := SelectCase.ready_iff.mp hready
          rw [hblocked] at hfires
          simp at hfires
        · intro op
          -- what was taken out is not live
          show ((s.ticked.ch.without gone).queue c op).filter (s.ticked.ch.without gone).live = _
          rw [Chans.queue_without, List.filter_filter]
          refine List.filter_congr fun w _ => ?_
          rw [Chans.live_without]
          show (s.ch.live w && !gone w) = s.ch.live w
          cases hg : gone w with
          | false => exact Bool.and_true _
          | true => rw [show s.ch.live w = false from hdead w hg]; rfl
    | some p =>
        obtain ⟨i, status⟩ := p
        obtain ⟨cs, s1, gone, _, hcs, hdead, hone, rfl⟩ := selectTryCases_some hlinked hres
        refine ⟨⟨fun _ => ⟨i, cs, hcs, ?_⟩, by simp⟩, ?_, by simp⟩
        · exact SelectCase.ready_iff.mpr ⟨s1, status, hone⟩
        · intro j st hj
          cases hj
          exact ⟨cs, s1, gone, hcs, hdead, hone, rfl⟩
  · intro hreturns
    have hout := @selectTryCases_start o s.ch.clock cases s.ticked hlinked
      (selectOrder choice cases.length)
    generalize selectTryCases o s.ch.clock cases (selectOrder choice cases.length) s.ticked = x
      at hout ⊢
    cases hout with
    | blocked hdead hall => exact ⟨_, rfl⟩
    | @ended gone hdead i cs hi hcs hends =>
        obtain ⟨p, hp⟩ := hreturns i cs hcs
        rw [hp]
        exact ⟨_, rfl⟩

/-- The main task runs, and there are an empty channel of capacity one and one without a
buffer. -/
def twoChannels : List Action :=
  startUp 1 ++ dispatchOn 0 ++
    [.channelCreate (.external 0) 1 1 true, .channelCreate (.external 0) 1 0 true]

/-- Nobody sends on the second channel, so the select sends on the first. -/
theorem select_try_phase_sends :
    ∃ s s', (runtime .epoll).Reach s ∧
      selectTryCases .calm s.ch.clock [⟨some 1, .recv, 0⟩, ⟨some 0, .send, 0⟩]
        (selectOrder ⟨1, 0, true, true⟩ 2) s.ticked = .ok (s', some (1, .sent)) ∧
      ∃ s1 gone, trySelectCaseLocked .calm s.ticked ⟨s.ch.clock, 1⟩ ⟨some 0, .send, 0⟩ =
        .ok (s1, some .sent) ∧ s' = s1.without gone := by
  have hreach : (runtime .epoll).Reach ((runtime .epoll).after (small 1) twoChannels) :=
    Machine.reach_after (small_init 1 (by decide)) (by decide +kernel)
  obtain ⟨_, hphase, _⟩ := select_try_phase hreach .calm ⟨1, 0, true, true⟩
    [⟨some 1, .recv, 0⟩, ⟨some 0, .send, 0⟩] (by decide)
  have hfires : (selectTryCases .calm ((runtime .epoll).after (small 1) twoChannels).ch.clock
      [⟨some 1, .recv, 0⟩, ⟨some 0, .send, 0⟩] (selectOrder ⟨1, 0, true, true⟩ 2)
      ((runtime .epoll).after (small 1) twoChannels).ticked).map Prod.snd =
        .ok (some (1, .sent)) := by
    decide +kernel
  obtain ⟨⟨s', fired⟩, hres, hfired⟩ := Res.map_ok.mp hfires
  obtain rfl : fired = some (1, .sent) := hfired
  obtain ⟨cs, s1, gone, hcs, _, hone, hs'⟩ := (hphase s' _ hres).2.1 1 .sent rfl
  cases hcs
  exact ⟨_, s', hreach, hres, s1, gone, hone, hs'⟩

end Croutine
