import Croutine.Lib.Custody
import Croutine.WaitMoves

/-!
# Wait queues and the waiters in them

A waiter is linked in the queue that its `channel` and `op` fields name, once, and in
no other.  `Linked` says this of a channel state; popping, pushing and unlinking a
waiter keep it.  The second half says what the registration of a select adds to the
queues and what its scrub takes away.
-/

namespace Croutine

namespace Chans

/-- The queue a waiter is linked in. -/
def spot (κ : Chans) (w : WaiterId) : Option (ChanId × Direction) :=
  (κ.waiter w).channel.map fun c => (c, (κ.waiter w).op.direction)

/-- Every queue has exactly the waiters that name it, each once. -/
def Linked (κ : Chans) : Prop :=
  ∀ c op, Custody.Lists (κ.queue c op) κ.spot (some (c, op))

/-- Nothing but queues and waiters differs. -/
structure OnlyQueues (κ κ' : Chans) : Prop where
  buffer : ∀ c, (κ'.chan c).buffer = (κ.chan c).buffer
  closed : ∀ c, (κ'.chan c).closed = (κ.chan c).closed
  capacity : ∀ c, (κ'.chan c).capacity = (κ.chan c).capacity
  elemSize : ∀ c, (κ'.chan c).elemSize = (κ.chan c).elemSize
  registry : κ'.registry = κ.registry
  nextChan : κ'.nextChan = κ.nextChan
  select : κ'.select = κ.select
  clock : κ'.clock = κ.clock
  log : κ'.log = κ.log

end Chans

open Chans

variable {κ κ' : Chans} {c : ChanId} {op : Direction} {w : WaiterId} {rest : List WaiterId}

/-- Where a waiter is linked is its channel and the direction of its operation. -/
theorem Chans.spot_eq_some : κ.spot w = some (c, op) ↔
    (κ.waiter w).channel = some c ∧ (κ.waiter w).op.direction = op := by
  unfold spot
  cases (κ.waiter w).channel with
  | none => simp
  | some x => simp [Prod.ext_iff]

/-- A waiter that parks joins one queue at its end. -/
theorem Chans.queue_park (x : Waiter) (c' : ChanId) (op' : Direction) :
    (κ.park c w x).queue c' op' =
      if c' = c ∧ op' = x.op.direction then κ.queue c x.op.direction ++ [w]
      else κ.queue c' op' := by
  rw [park, waitQueuePushTail, queue_setQueue]
  rfl

/-- A waiter that parks is laid out with its channel. -/
theorem Chans.waiter_park (x : Waiter) :
    (κ.park c w x).waiter = Function.update κ.waiter w { x with channel := some c } := by
  simp [park, waitQueuePushTail, setLink, setQueue, setChan]

namespace Chans.OnlyQueues

variable (κ)

theorem refl : OnlyQueues κ κ :=
  ⟨fun _ => rfl, fun _ => rfl, fun _ => rfl, fun _ => rfl, rfl, rfl, rfl, rfl, rfl⟩

theorem trans {κ κ' κ'' : Chans} (h : OnlyQueues κ κ') (h' : OnlyQueues κ' κ'') :
    OnlyQueues κ κ'' where
  buffer c := (h'.buffer c).trans (h.buffer c)
  closed c := (h'.closed c).trans (h.closed c)
  capacity c := (h'.capacity c).trans (h.capacity c)
  elemSize c := (h'.elemSize c).trans (h.elemSize c)
  registry := h'.registry.trans h.registry
  nextChan := h'.nextChan.trans h.nextChan
  select := h'.select.trans h.select
  clock := h'.clock.trans h.clock
  log := h'.log.trans h.log

/-- Laying out a waiter. -/
theorem layOut (w : WaiterId) (x : Waiter) :
    OnlyQueues κ { κ with waiter := Function.update κ.waiter w x } :=
  ⟨fun _ => rfl, fun _ => rfl, fun _ => rfl, fun _ => rfl, rfl, rfl, rfl, rfl, rfl⟩

/-- Overwriting a queue. -/
theorem setQueue (c : ChanId) (op : Direction) (q : List WaiterId) :
    OnlyQueues κ (κ.setQueue c op q) := by
  refine ⟨fun c' => ?_, fun c' => ?_, fun c' => ?_, fun c' => ?_, rfl, rfl, rfl, rfl, rfl⟩ <;>
    by_cases h : c' = c <;> simp [Chans.setQueue, setChan, h]

/-- Parking a waiter. -/
theorem park (c : ChanId) (w : WaiterId) (x : Waiter) : OnlyQueues κ (κ.park c w x) :=
  ((layOut κ w x).trans (layOut _ w _)).trans (setQueue _ c x.op.direction _)

/-- Unlinking a waiter. -/
theorem unlink (c : ChanId) (op : Direction) (w : WaiterId) :
    OnlyQueues κ (κ.waitQueueUnlink c op w) :=
  (setQueue κ c op _).trans (layOut _ w _)

end Chans.OnlyQueues

namespace Chans.Linked

/-- **A waiter is in the queue that its own fields name, and in no other.** -/
theorem mem (h : κ.Linked) : w ∈ κ.queue c op ↔
    (κ.waiter w).channel = some c ∧ (κ.waiter w).op.direction = op := by
  rw [(h c op).mem w, spot_eq_some]

/-- The links after a change of anything else. -/
theorem congr (h : κ.Linked) (hqueue : ∀ c op, κ'.queue c op = κ.queue c op)
    (hwaiter : κ'.waiter = κ.waiter) : κ'.Linked := by
  intro c op
  have hspot : κ'.spot = κ.spot := by
    funext x
    unfold spot
    rw [hwaiter]
  rw [hqueue, hspot]
  exact h c op

/-- A waiter leaves its queue. -/
theorem leave (h : κ.Linked) {q : List WaiterId} (hspot : κ'.spot = Function.update κ.spot w none)
    (hqueue : ∀ c' op', κ'.queue c' op' = if c' = c ∧ op' = op then q else κ.queue c' op')
    (hperm : (κ.queue c op).Perm (w :: q)) : κ'.Linked := by
  have hw : κ.spot w = some (c, op) :=
    ((h c op).mem w).mp (hperm.mem_iff.mpr List.mem_cons_self)
  intro c' op'
  rw [hqueue, hspot]
  by_cases hcase : c' = c ∧ op' = op
  · rw [if_pos hcase, hcase.1, hcase.2]
    exact (h c op).remove hperm (by simp)
  · rw [if_neg hcase]
    refine (h c' op').move ?_ (by simp)
    rw [hw]
    intro heq
    cases heq
    exact hcase ⟨rfl, rfl⟩

/-- Taking out the head of a queue keeps the links right. -/
theorem dropHead (h : κ.Linked) (hqueue : κ.queue c op = w :: rest) :
    (κ.dropHeads c op [w] rest).Linked := by
  refine h.leave (w := w) ?_ (fun c' op' => κ.queue_dropHeads c c' op op' [w] rest)
    (by rw [hqueue])
  funext x
  unfold spot
  rw [waiter_dropHeads]
  by_cases hx : x = w
  · subst hx; simp
  · simp [hx]

/-- Unlinking a waiter from the middle of a queue keeps the links right. -/
theorem unlink (h : κ.Linked) (hw : (κ.waiter w).channel = some c) :
    (κ.waitQueueUnlink c (κ.waiter w).op.direction w).Linked := by
  have hmem : w ∈ κ.queue c (κ.waiter w).op.direction := h.mem.mpr ⟨hw, rfl⟩
  refine h.leave (w := w) ?_ (fun c' op' => ?_) (List.perm_cons_erase hmem)
  · funext x
    by_cases hx : x = w
    · subst hx
      simp [spot, waitQueueUnlink, setLink, setQueue, setChan]
    · simp [spot, waitQueueUnlink, setLink, setQueue, setChan, hx]
  · rw [waitQueueUnlink, queue_setLink, queue_setQueue]

/-- An unlinked waiter is laid out and linked. -/
theorem park (h : κ.Linked) (hw : (κ.waiter w).channel = none) (x : Waiter) :
    (κ.park c w x).Linked := by
  have hspot : (κ.park c w x).spot = Function.update κ.spot w (some (c, x.op.direction)) := by
    funext y
    unfold spot
    rw [waiter_park]
    by_cases hy : y = w
    · subst hy; simp
    · simp [hy]
  have hnone : ∀ p, κ.spot w ≠ some p := by
    intro p
    simp [spot, hw]
  intro c' op'
  rw [queue_park, hspot]
  by_cases hcase : c' = c ∧ op' = x.op.direction
  · rw [if_pos hcase, hcase.1, hcase.2]
    exact (h c x.op.direction).insert (hnone _) (List.perm_append_singleton w _)
  · rw [if_neg hcase]
    refine (h c' op').move (hnone _) fun heq => ?_
    cases heq
    exact hcase ⟨rfl, rfl⟩

/-- An unlinked waiter is laid out and stays unlinked. -/
theorem layOut (h : κ.Linked) (hw : (κ.waiter w).channel = none) {x : Waiter}
    (hx : x.channel = none) : Linked { κ with waiter := Function.update κ.waiter w x } := by
  intro c op
  have hspot : Chans.spot { κ with waiter := Function.update κ.waiter w x } = κ.spot := by
    funext y
    unfold spot
    by_cases hy : y = w
    · subst hy; simp [hw, hx]
    · simp [hy]
  rw [hspot]
  exact h c op

end Chans.Linked

/-! ## The waiters of a select -/

/-- The waiters that a select links in one queue, for its cases from index `i` on. -/
def caseWaiters (call : CallId) (c : ChanId) (op : Direction) : Nat → List SelectCase →
    List WaiterId
  | _, [] => []
  | i, cs :: rest =>
    if cs.channel = some c ∧ cs.op.direction = op then
      ⟨call, i⟩ :: caseWaiters call c op (i + 1) rest
    else caseWaiters call c op (i + 1) rest

/-- The waiters of a select in one queue are those of its cases on that channel and direction.
-/
theorem mem_caseWaiters {call : CallId} {c : ChanId} {op : Direction} {w : WaiterId} :
    ∀ (cases : List SelectCase) (i : Nat), w ∈ caseWaiters call c op i cases ↔
      w.call = call ∧ ∃ j cs, w.idx = i + j ∧ cases[j]? = some cs ∧ cs.channel = some c ∧
        cs.op.direction = op := by
  intro cases
  induction cases with
  | nil => intro i; simp [caseWaiters]
  | cons head rest ih =>
      intro i
      have hsplit : (∃ j cs, w.idx = i + j ∧ (head :: rest)[j]? = some cs ∧
          cs.channel = some c ∧ cs.op.direction = op) ↔
          (w.idx = i ∧ head.channel = some c ∧ head.op.direction = op) ∨
          ∃ j cs, w.idx = i + 1 + j ∧ rest[j]? = some cs ∧ cs.channel = some c ∧
            cs.op.direction = op := by
        constructor
        · rintro ⟨j, cs, hidx, hget, hcs⟩
          cases j with
          | zero => cases hget; exact .inl ⟨hidx, hcs⟩
          | succ j => exact .inr ⟨j, cs, by omega, hget, hcs⟩
        · rintro (⟨hidx, hcs⟩ | ⟨j, cs, hidx, hget, hcs⟩)
          · exact ⟨0, head, hidx, rfl, hcs⟩
          · exact ⟨j + 1, cs, by omega, hget, hcs⟩
      rw [hsplit, caseWaiters]
      obtain ⟨k, n⟩ := w
      by_cases hhead : head.channel = some c ∧ head.op.direction = op
      · have hidx : (n = i ∧ head.channel = some c ∧ head.op.direction = op) ↔ n = i :=
          and_iff_left hhead
        rw [if_pos hhead, List.mem_cons, ih, WaiterId.mk.injEq, ← and_or_left, hidx]
      · have hidx : ¬(n = i ∧ head.channel = some c ∧ head.op.direction = op) := fun h => hhead h.2
        rw [if_neg hhead, ih, or_iff_right hidx]

section Register

variable {t : TaskId} {call : CallId}

/-- A select joins each queue at its end, with its cases in order. -/
theorem selectRegister_queue (c : ChanId) (op : Direction) :
    ∀ (cases : List SelectCase) (i : Nat) (κ : Chans),
      (selectRegister t call i cases κ).queue c op =
        κ.queue c op ++ caseWaiters call c op i cases := by
  intro cases
  induction cases with
  | nil => intro i κ; simp [selectRegister, caseWaiters]
  | cons cs rest ih =>
      intro i κ
      rw [selectRegister, ih, caseWaiters]
      cases hchan : cs.channel with
      | none => simp; rfl
      | some c' =>
          dsimp only
          rw [queue_park]
          by_cases hcase : c = c' ∧ op = cs.op.direction
          · obtain ⟨rfl, rfl⟩ := hcase
            simp [selectWaiter]
          · have hne : ¬(some c' = some c ∧ cs.op.direction = op) := by
              rintro ⟨hc, hop⟩
              exact hcase ⟨(Option.some.inj hc).symm, hop.symm⟩
            have hcase' : ¬(c = c' ∧ op = (selectWaiter t call i cs).op.direction) := hcase
            rw [if_neg hcase', if_neg hne]

/-- The waiters of other calls are as before. -/
theorem selectRegister_waiter_other {w : WaiterId} (hw : w.call ≠ call) :
    ∀ (cases : List SelectCase) (i : Nat) (κ : Chans),
      (selectRegister t call i cases κ).waiter w = κ.waiter w := by
  intro cases
  induction cases with
  | nil => intro i κ; rfl
  | cons cs rest ih =>
      intro i κ
      have hne : w ≠ ⟨call, i⟩ := fun heq => hw (by rw [heq])
      rw [selectRegister, ih]
      cases cs.channel with
      | none => simp [hne]
      | some c => simp [waiter_park, hne]

/-- Cases before the index are laid out already. -/
theorem selectRegister_waiter_below {j : Nat} :
    ∀ (cases : List SelectCase) (i : Nat) (κ : Chans), j < i →
      (selectRegister t call i cases κ).waiter ⟨call, j⟩ = κ.waiter ⟨call, j⟩ := by
  intro cases
  induction cases with
  | nil => intro i κ _; rfl
  | cons cs rest ih =>
      intro i κ hj
      have hne : (⟨call, j⟩ : WaiterId) ≠ ⟨call, i⟩ := by
        simp only [ne_eq, WaiterId.mk.injEq, not_and]
        intro _
        omega
      rw [selectRegister, ih _ _ (by omega)]
      cases cs.channel with
      | none => simp [hne]
      | some c => simp [waiter_park, hne]

/-- Waiters beyond the last case are as before. -/
theorem selectRegister_waiter_beyond {j : Nat} :
    ∀ (cases : List SelectCase) (i : Nat) (κ : Chans), i + cases.length ≤ j →
      (selectRegister t call i cases κ).waiter ⟨call, j⟩ = κ.waiter ⟨call, j⟩ := by
  intro cases
  induction cases with
  | nil => intro i κ _; rfl
  | cons cs rest ih =>
      intro i κ hj
      rw [List.length_cons] at hj
      have hne : (⟨call, j⟩ : WaiterId) ≠ ⟨call, i⟩ := by
        simp only [ne_eq, WaiterId.mk.injEq, not_and]
        intro _
        omega
      rw [selectRegister, ih _ _ (by omega)]
      cases cs.channel with
      | none => simp [hne]
      | some c => simp [waiter_park, hne]

/-- The waiter of a case after registration. -/
def caseWaiter (t : TaskId) (call : CallId) (i : Nat) (cs : SelectCase) : Waiter :=
  { selectWaiter t call i cs with channel := cs.channel }

/-- The waiter of a case is laid out for it and linked in its channel's queue. -/
theorem selectRegister_waiter_case {k : CallId} {j : Nat} {cs : SelectCase} :
    ∀ (cases : List SelectCase) (i : Nat) (κ : Chans), cases[j]? = some cs →
      (selectRegister t k i cases κ).waiter ⟨k, i + j⟩ = caseWaiter t k (i + j) cs := by
  intro cases
  induction cases generalizing j with
  | nil => intro i κ hget; simp at hget
  | cons head rest ih =>
      intro i κ hget
      cases j with
      | zero =>
          cases hget
          rw [selectRegister, Nat.add_zero, selectRegister_waiter_below _ (i + 1) _ (by omega)]
          cases hchan : cs.channel with
          | none => simp [caseWaiter, selectWaiter, hchan]
          | some c => simp [waiter_park, caseWaiter, selectWaiter, hchan]
      | succ j =>
          have hstep := @ih j (i + 1)
          rw [selectRegister]
          have hidx : i + (j + 1) = i + 1 + j := by omega
          rw [hidx]
          exact hstep _ hget

/-- Registering a select keeps the links right. -/
theorem Chans.Linked.selectRegister :
    ∀ (cases : List SelectCase) (i : Nat) {κ : Chans}, κ.Linked →
      (∀ j, i ≤ j → (κ.waiter ⟨call, j⟩).channel = none) →
      (Croutine.selectRegister t call i cases κ).Linked := by
  intro cases
  induction cases with
  | nil => intro i κ h _; exact h
  | cons cs rest ih =>
      intro i κ h hfree
      have hne : ∀ j, i + 1 ≤ j → (⟨call, j⟩ : WaiterId) ≠ ⟨call, i⟩ := by
        intro j hj
        simp only [ne_eq, WaiterId.mk.injEq, not_and]
        intro _
        omega
      rw [Croutine.selectRegister]
      cases hchan : cs.channel with
      | none =>
          refine ih (i + 1) (h.layOut (hfree i (Nat.le_refl i)) rfl) fun j hj => ?_
          dsimp only
          rw [Function.update_of_ne (hne j hj)]
          exact hfree j (by omega)
      | some c =>
          refine ih (i + 1) (h.park (hfree i (Nat.le_refl i)) _) fun j hj => ?_
          dsimp only
          rw [waiter_park, Function.update_of_ne (hne j hj)]
          exact hfree j (by omega)

/-- Registering a select changes queues and waiters only. -/
theorem selectRegister_only {k : CallId} :
    ∀ (cases : List SelectCase) (i : Nat) (κ : Chans),
      OnlyQueues κ (selectRegister t k i cases κ) := by
  intro cases
  induction cases with
  | nil => intro i κ; exact .refl κ
  | cons cs rest ih =>
      intro i κ
      rw [selectRegister]
      cases cs.channel with
      | none => exact (OnlyQueues.layOut κ _ _).trans (ih _ _)
      | some c => exact (OnlyQueues.park κ c _ _).trans (ih _ _)

end Register

/-! ## Unlinking what is left of a select -/

/-- What a scrub of the waiters of `call` does: it unlinks some of them. -/
structure Scrubbed (call : CallId) (κ κ' : Chans) : Prop where
  linked : κ'.Linked
  only : OnlyQueues κ κ'
  queue : ∀ c op, (κ'.queue c op).Sublist (κ.queue c op)
  waiter : ∀ w, κ'.waiter w = κ.waiter w ∨
    w.call = call ∧ κ'.waiter w = { κ.waiter w with channel := none }

namespace Scrubbed

variable {call : CallId}

theorem refl (h : κ.Linked) : Scrubbed call κ κ :=
  ⟨h, .refl κ, fun _ _ => List.Sublist.refl _, fun _ => .inl rfl⟩

theorem trans {κ κ' κ'' : Chans} (h : Scrubbed call κ κ') (h' : Scrubbed call κ' κ'') :
    Scrubbed call κ κ'' := by
  refine ⟨h'.linked, h.only.trans h'.only, fun c op => (h'.queue c op).trans (h.queue c op), ?_⟩
  intro w
  rcases h.waiter w with heq | ⟨hw, heq⟩ <;> rcases h'.waiter w with heq' | ⟨hw', heq'⟩
  · exact .inl (heq'.trans heq)
  · exact .inr ⟨hw', by rw [heq', heq]⟩
  · exact .inr ⟨hw, heq'.trans heq⟩
  · exact .inr ⟨hw, by rw [heq', heq]⟩

/-- Unlinking one waiter of the call. -/
theorem unlink (h : κ.Linked) {w : WaiterId} (hcall : w.call = call) {c : ChanId}
    (hw : (κ.waiter w).channel = some c) :
    Scrubbed call κ (κ.waitQueueUnlink c (κ.waiter w).op.direction w) := by
  refine ⟨h.unlink hw, OnlyQueues.unlink κ c _ w, ?_, ?_⟩
  · intro c' op'
    rw [waitQueueUnlink, queue_setLink, queue_setQueue]
    split
    · next hcase => rw [hcase.1, hcase.2]; exact List.erase_sublist
    · exact List.Sublist.refl _
  · intro x
    by_cases hx : x = w
    · subst hx
      exact .inr ⟨hcall, by simp [waitQueueUnlink, setLink, setQueue, setChan]⟩
    · exact .inl (by simp [waitQueueUnlink, setLink, setQueue, setChan, hx])

/-- Scrubbing makes no waiter live or dead. -/
theorem live (h : Scrubbed call κ κ') (w : WaiterId) : κ'.live w = κ.live w := by
  refine Chans.live_congr ?_ ?_ fun k _ => by rw [h.only.select]
  · rcases h.waiter w with heq | ⟨_, heq⟩ <;> rw [heq]
  · rcases h.waiter w with heq | ⟨_, heq⟩ <;> rw [heq]

/-- Scrubbing leaves the operations of waiters alone. -/
theorem waiter_op (h : Scrubbed call κ κ') (w : WaiterId) : (κ'.waiter w).op = (κ.waiter w).op := by
  rcases h.waiter w with heq | ⟨_, heq⟩ <;> rw [heq]

/-- Scrubbing leaves the tasks of waiters alone. -/
theorem waiter_task (h : Scrubbed call κ κ') (w : WaiterId) :
    (κ'.waiter w).task = (κ.waiter w).task := by
  rcases h.waiter w with heq | ⟨_, heq⟩ <;> rw [heq]

/-- Scrubbing links nobody. -/
theorem waiter_none (h : Scrubbed call κ κ') {w : WaiterId} (hw : (κ.waiter w).channel = none) :
    (κ'.waiter w).channel = none := by
  rcases h.waiter w with heq | ⟨_, heq⟩ <;> rw [heq]
  exact hw

/-- One round of `scrub_select_waiters`. -/
theorem round (h : κ.Linked) (call : CallId) (i : Nat) :
    Scrubbed call κ (scrubWaiter call κ i) ∧
      ((scrubWaiter call κ i).waiter ⟨call, i⟩).channel = none := by
  unfold scrubWaiter
  split
  · next hnone => exact ⟨.refl h, hnone⟩
  · next c hc => exact ⟨unlink h rfl hc, by simp [waitQueueUnlink, setLink]⟩

/-- The loop of `scrub_select_waiters` unlinks every waiter it visits. -/
theorem loop : ∀ (l : List Nat) {κ : Chans}, κ.Linked →
    Scrubbed call κ (l.foldl (scrubWaiter call) κ) ∧
      ∀ i ∈ l, ((l.foldl (scrubWaiter call) κ).waiter ⟨call, i⟩).channel = none := by
  intro l
  induction l with
  | nil => intro κ h; exact ⟨.refl h, by simp⟩
  | cons i rest ih =>
      intro κ h
      obtain ⟨hround, hfirst⟩ := round h call i
      obtain ⟨hrest, hnone⟩ := ih hround.linked
      rw [List.foldl_cons]
      refine ⟨hround.trans hrest, fun j hj => ?_⟩
      rcases List.mem_cons.mp hj with rfl | hj
      · exact hrest.waiter_none hfirst
      · exact hnone j hj

/-- After the scrub no waiter of the select is linked. -/
theorem scrubSelectWaiters (h : κ.Linked) (call : CallId) (n : Nat) :
    Scrubbed call κ (Croutine.scrubSelectWaiters call n κ) ∧
      ∀ i < n, ((Croutine.scrubSelectWaiters call n κ).waiter ⟨call, i⟩).channel = none := by
  obtain ⟨hscrub, hnone⟩ := @loop call (List.range n) κ h
  exact ⟨hscrub, fun i hi => hnone i (List.mem_range.mpr hi)⟩

end Scrubbed

end Croutine
