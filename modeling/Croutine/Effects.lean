import Croutine.History

/-!
# What a call did to the channels

An offer that completes had one effect: its value was accepted, it received a value, or it
completed as closed.  `Chans.effectsOf` reads the effects of one call off the log.  Seen
from a call that is parked, an operation of another call is a sequence of deals: nothing
happens to it, one of its dead waiters is popped, or one of its live waiters is popped, has
its effect, and its task is woken with the outcome.

`Told` is what follows for whole runs: a call that is still undecided had no effect, and one
that is decided had exactly one, which its task will find in the flag or in the select state
that it reads after it was resumed.
-/

namespace Croutine

/-- What the completion of an offer did. -/
inductive Effect where
  | sent (c : ChanId) (v : Bytes)
  | received (c : ChanId) (slot : Addr) (v : Bytes)
  /-- `flag` is the channel's `closed` field then. -/
  | closed (c : ChanId) (flag : Bool)
  deriving DecidableEq

namespace Effect

def status : Effect → SelectStatus
  | .sent _ _ => .sent
  | .received _ _ _ => .value
  | .closed _ _ => .closed

/-- An effect that an offer to `op` on `c` with the value slot `slot` can have. -/
def Fits (c : ChanId) (op : Direction) (slot : Addr) : Effect → Prop
  | .sent c' _ => c' = c ∧ op = .send
  | .received c' slot' _ => c' = c ∧ op = .recv ∧ slot' = slot
  | .closed c' _ => c' = c

end Effect

/-- The offers that an event completes, with their effects. -/
def Event.effects : Event → List (WaiterId × Effect)
  | .handoff c sender receiver slot v => [(sender, .sent c v), (receiver, .received c slot v)]
  | .buffered c sender v => [(sender, .sent c v)]
  | .taken c receiver slot v => [(receiver, .received c slot v)]
  | .closed c offer flag => [(offer, .closed c flag)]
  | _ => []

/-- A report has no effect. -/
theorem Event.effects_of_returned {e : Event} {k : CallId} (h : e.returnedCall = some k) :
    e.effects = [] := by
  cases e <;> first | rfl | simp [returnedCall] at h

namespace Chans

/-- The effects so far, in the order of the critical sections that had them. -/
def effects (κ : Chans) : List (WaiterId × Effect) := κ.log.flatMap Event.effects

/-- The effects of the offers of one call. -/
def effectsOf (κ : Chans) (k : CallId) : List (WaiterId × Effect) :=
  κ.effects.filter fun p => p.1.call = k

variable {κ κ' : Chans} {k : CallId} {l : List Event}

/-- What is added to the log says which effects were added. -/
theorem effects_append (h : κ'.log = κ.log ++ l) :
    κ'.effects = κ.effects ++ l.flatMap Event.effects := by
  unfold effects
  rw [h, List.flatMap_append]

/-- The log alone says what the effects are. -/
theorem effects_of_log (h : κ'.log = κ.log) : κ'.effects = κ.effects := by
  unfold effects
  rw [h]

/-- What is added to the log says which effects of a call were added. -/
theorem effectsOf_append (h : κ'.log = κ.log ++ l) (k : CallId) : κ'.effectsOf k =
    κ.effectsOf k ++ (l.flatMap Event.effects).filter fun p => p.1.call = k := by
  unfold effectsOf
  rw [effects_append h, List.filter_append]

/-- The log alone says what the effects of a call are. -/
theorem effectsOf_of_log (h : κ'.log = κ.log) (k : CallId) : κ'.effectsOf k = κ.effectsOf k := by
  unfold effectsOf
  rw [effects_of_log h]

/-- The effects of a call are those of its offers. -/
theorem mem_effectsOf {p : WaiterId × Effect} :
    p ∈ κ.effectsOf k ↔ p ∈ κ.effects ∧ p.1.call = k := by
  simp [effectsOf]

end Chans

/-! ## Deals -/

/-- What an operation of the call `k` does to the other calls. -/
inductive Deal (k : CallId) (s : Sys) : Sys → Prop
  | quiet {κ : Chans} (h : SameWaits s.ch κ) (heff : ∀ j ≠ k, κ.effectsOf j = s.ch.effectsOf j) :
      Deal k s { s with ch := κ }
  | dead {c : ChanId} {op : Direction} {w : WaiterId} {rest : List WaiterId}
      (hqueue : s.ch.queue c op = w :: rest) (hdead : s.ch.Dead w) :
      Deal k s { s with ch := s.ch.dropHeads c op [w] rest }
  /-- A select is always woken with success, and learns from its state that it was closed. -/
  | wake {o : Oracle} {c : ChanId} {op : Direction} {w : WaiterId} {rest : List WaiterId}
      {success : Bool} {e : Effect} {κ : Chans} {s1 : Sys}
      (hqueue : s.ch.queue c op = w :: rest) (hlive : s.ch.live w = true)
      (hwake : workerWakeTaskLocked o s (s.ch.waiter w).task success = some s1)
      (hκ : SameWaits s.ch κ)
      (heff : ∀ j ≠ k, κ.effectsOf j = s.ch.effectsOf j ++ if w.call = j then [(w, e)] else [])
      (hfits : e.Fits c op (s.ch.waiter w).valueSlot)
      (hsuccess : success = true ↔ (s.ch.waiter w).kind = .select ∨ e.status ≠ .closed) :
      Deal k s { s1 with ch := κ.popWoken c op w rest success e.status }

abbrev Deals (k : CallId) : Sys → Sys → Prop := Relation.ReflTransGen (Deal k)

/-- As moves of waiters, deals are the moves of `WaitMove`. -/
theorem Deal.moves {k : CallId} {s s' : Sys} (h : Deal k s s') : WaitMoves s s' := by
  cases h with
  | quiet h heff => exact WaitMoves.quiet h
  | dead hqueue hdead => exact .single (.dead hqueue hdead)
  | @wake o c op w rest success e κ s1 hqueue hlive hwake hκ heff hfits hsuccess =>
      refine (WaitMoves.quiet hκ).trans (WaitMoves.wakeAt (o := o) ?_ ?_ ?_)
      · rw [hκ.queue]; exact hqueue
      · rw [hκ.live]; exact hlive
      · rw [hκ.waiter]; exact hwake

namespace Deals

variable {k : CallId} {o : Oracle} {s s1 s' : Sys} {c : ChanId} {op : Direction} {w : WaiterId}
  {dead rest : List WaiterId} {success : Bool} {e : Effect}

/-- **Deal rule.**  What every deal keeps is kept by the operations of the call. -/
theorem invariant {I : Sys → Prop} (h : Deals k s s') (hdeal : ∀ x x', I x → Deal k x x' → I x')
    (hs : I s) : I s' := by
  induction h with
  | refl => exact hs
  | tail _ hstep ih => exact hdeal _ _ ih hstep

/-- A change of the channels that moves no waiter and has no effect on other calls. -/
theorem quiet {κ : Chans} (h : SameWaits s.ch κ)
    (heff : ∀ j ≠ k, κ.effectsOf j = s.ch.effectsOf j) : Deals k s { s with ch := κ } :=
  .single (.quiet h heff)

/-- An event that completes offers of the call itself. -/
theorem own {κ : Chans} {ev : Event} (h : SameWaits s.ch κ) (hlog : κ.log = s.ch.log ++ [ev])
    (hown : ∀ p ∈ ev.effects, p.1.call = k) : Deals k s { s with ch := κ } := by
  refine quiet h fun j hj => ?_
  rw [Chans.effectsOf_append hlog, List.filter_eq_nil_iff.mpr, List.append_nil]
  intro p hp
  simp only [List.flatMap_cons, List.flatMap_nil, List.append_nil] at hp
  rw [hown p hp]
  simpa using hj.symm

/-- Dead waiters are popped from the head of a queue. -/
theorem deads (hqueue : s.ch.queue c op = dead ++ rest) (hdead : ∀ x ∈ dead, s.ch.live x = false) :
    Deals k s { s with ch := s.ch.dropHeads c op dead rest } := by
  induction dead generalizing s with
  | nil => rw [s.ch.dropHeads_nil c op rest hqueue]
  | cons x dead ih =>
      have hx : s.ch.Dead x := Chans.dead_of_not_live (hdead x List.mem_cons_self)
      have hfirst : Deals k s { s with ch := s.ch.dropHeads c op [x] (dead ++ rest) } :=
        .single (.dead hqueue hx)
      have hrest := @ih { s with ch := s.ch.dropHeads c op [x] (dead ++ rest) }
        (by simp) fun y hy => by simpa using hdead y (List.mem_cons_of_mem _ hy)
      rw [Chans.dropHeads_dropHeads] at hrest
      exact hfirst.trans hrest

/-- Every waiter of a queue is dead and popped. -/
theorem drained (hdead : ∀ x ∈ s.ch.queue c op, s.ch.live x = false) :
    Deals k s { s with ch := s.ch.dropHeads c op (s.ch.queue c op) [] } :=
  deads (by simp) hdead

/-- The first live waiter of a queue has its effect, after the dead ones before it were
popped and values moved as `κ` says. -/
theorem popped {μ κ : Chans} (hqueue : μ.queue c op = dead ++ w :: rest)
    (hdead : ∀ x ∈ dead, μ.live x = false) (hlive : μ.live w = true)
    (hwake : workerWakeTaskLocked o s (μ.waiter w).task success = some s1)
    (hκ : SameWaits (μ.dropHeads c op dead (w :: rest)) κ)
    (heff : ∀ j ≠ k, κ.effectsOf j = μ.effectsOf j ++ if w.call = j then [(w, e)] else [])
    (hfits : e.Fits c op (μ.waiter w).valueSlot)
    (hsuccess : success = true ↔ (μ.waiter w).kind = .select ∨ e.status ≠ .closed) :
    Deals k { s with ch := μ } { s1 with ch := κ.popWoken c op w rest success e.status } := by
  have hdrop : Deals k { s with ch := μ } { s with ch := μ.dropHeads c op dead (w :: rest) } :=
    deads (s := { s with ch := μ }) hqueue hdead
  have hwake' : workerWakeTaskLocked o { s with ch := μ.dropHeads c op dead (w :: rest) }
      (μ.waiter w).task success = some { s1 with ch := μ.dropHeads c op dead (w :: rest) } := by
    rw [workerWakeTaskLocked_ch, hwake]
    rfl
  refine hdrop.tail (@Deal.wake k { s with ch := μ.dropHeads c op dead (w :: rest) } o c op w rest
    success e κ { s1 with ch := μ.dropHeads c op dead (w :: rest) } ?_ ?_ ?_ hκ heff ?_ ?_)
  · simp
  · simpa using hlive
  · rw [Chans.dropHeads_task]; exact hwake'
  · simpa using hfits
  · simpa using hsuccess

end Deals

section Operations

variable {k : CallId} {i : Nat} {o : Oracle} {s s' : Sys} {c : ChanId}

/-- A send attempt deals with the other calls through their waiters only. -/
theorem TrySend.deals {value : Addr} {r : SendResult} (h : TrySend o s c ⟨k, i⟩ value s' r) :
    Deals k s s' := by
  cases h with
  | refused h => exact Deals.own (.record _ rfl rfl) rfl (by simp [Event.effects])
  | @handed hopen hrun dead rest r hqueue hdead hlive s1 hwake =>
      rw [Chans.handedTo_eq]
      refine Deals.popped (μ := s.ch) (e := .received c (s.ch.waiter r).valueSlot
        (s.ch.valueAt c value)) hqueue hdead hlive hwake
        ((SameWaits.copyValue _ _ _).trans (.record _ rfl rfl)) (fun j hj => ?_) ⟨rfl, rfl, rfl⟩
        (by simp [Effect.status])
      rw [Chans.effectsOf_append (κ := s.ch) rfl]
      simp [Event.effects, List.filter_cons, hj.symm]
  | buffered hopen hrun hdead hroom =>
      refine (Deals.drained hdead).trans (Deals.own ?_ rfl (by simp [Event.effects]))
      exact (SameWaits.bufferPush _ _ _).trans (.record _ rfl rfl)
  | blocked hopen hrun hdead hfull => exact Deals.drained hdead

/-- A receive attempt deals with the other calls through their waiters only. -/
theorem TryRecv.deals {out : Addr} {r : RecvResult} (h : TryRecv o s c ⟨k, i⟩ out s' r) :
    Deals k s s' := by
  have htook : ∀ v rest, SameWaits s.ch (s.ch.tookBuffered c ⟨k, i⟩ out v rest) :=
    fun v rest => (SameWaits.bufferPop _ _ _ _ _).trans (.record _ rfl rfl)
  have hfirst : ∀ v rest, Deals k s { s with ch := s.ch.tookBuffered c ⟨k, i⟩ out v rest } :=
    fun v rest => Deals.own (htook v rest) rfl (by simp [Event.effects])
  cases h with
  | taken hbuffer hskip => exact hfirst _ _
  | @drained v rest hbuffer hopen hdead =>
      have hqueue := (htook v rest).queue c .send
      have hdrop := @Deals.drained k { s with ch := s.ch.tookBuffered c ⟨k, i⟩ out v rest }
        c .send (by rw [hqueue]; exact hdead)
      rw [hqueue] at hdrop
      exact (hfirst v rest).trans hdrop
  | @refilled v rest hbuffer hopen hroom dead tail x hqueue hdead hlive s1 hwake =>
      have hqueue' := ((htook v rest).queue c .send).trans hqueue
      rw [Chans.bufferedFrom_eq]
      refine (hfirst v rest).trans (Deals.popped (μ := s.ch.tookBuffered c ⟨k, i⟩ out v rest)
        (e := .sent c ((s.ch.tookBuffered c ⟨k, i⟩ out v rest).valueAt c
          (s.ch.waiter x).valueSlot)) hqueue' hdead hlive hwake
        ((SameWaits.bufferPush _ _ _).trans (.record _ rfl rfl)) (fun j hj => ?_) ⟨rfl, rfl⟩
        (by simp [Effect.status]))
      rw [Chans.effectsOf_append (κ := s.ch.tookBuffered c ⟨k, i⟩ out v rest) rfl]
      simp [Event.effects, List.filter_cons]
      rfl
  | @direct hbuffer dead tail x hqueue hdead hlive s1 hwake =>
      rw [Chans.takenFrom_eq]
      refine Deals.popped (μ := s.ch)
        (e := .sent c (s.ch.valueAt c (s.ch.waiter x).valueSlot)) hqueue hdead hlive hwake
        ((SameWaits.copyValue _ _ _).trans (.record _ rfl rfl)) (fun j hj => ?_) ⟨rfl, rfl⟩
        (by simp [Effect.status])
      rw [Chans.effectsOf_append (κ := s.ch) rfl]
      simp [Event.effects, List.filter_cons, hj.symm]
  | refused hbuffer hdead h =>
      exact (Deals.drained hdead).trans
        (Deals.own (.record _ rfl rfl) rfl (by simp [Event.effects]))
  | blocked hbuffer hdead hopen hrun => exact Deals.drained hdead

/-- The attempt of a case deals with the other calls through their waiters only. -/
theorem TryCase.deals {cs : SelectCase} {fired : Option SelectStatus}
    (h : TryCase o s ⟨k, i⟩ cs s' fired) : Deals k s s' := by
  cases h with
  | untried huntried => exact .refl
  | send hchan hop h => exact h.deals
  | recv hchan hop h => exact h.deals

/-- A close deals with every call; `k` is one that has no waiter. -/
theorem CloseRound.deals {op : Direction} {w : WaiterId} {rest : List WaiterId}
    (h : CloseRound o c op w rest s s') (hqueue : s.ch.queue c op = w :: rest) :
    Deals k s s' := by
  have hlog : ∀ j ≠ k, (s.ch.record (.closed c w (s.ch.chan c).closed)).effectsOf j =
      s.ch.effectsOf j ++ if w.call = j then [(w, .closed c (s.ch.chan c).closed)] else [] := by
    intro j _
    rw [Chans.effectsOf_append (κ := s.ch) rfl]
    simp [Event.effects, List.filter_cons]
  cases h with
  | skipped hkind hskip => exact .single (.dead hqueue (Chans.dead_of_skip hkind hskip))
  | selected hkind hlive hwake =>
      rw [Chans.closedSelect_eq]
      exact .single (.wake (e := .closed c _) hqueue hlive hwake (.record _ rfl rfl) hlog rfl
        (by simp [hkind]))
  | regular hkind hwake =>
      rw [Chans.closedRegular_eq _ _ _ _ _ hkind]
      exact .single (.wake (e := .closed c _) hqueue (Chans.live_of_regular hkind) hwake
        (.record _ rfl rfl) hlog rfl (by simp [hkind, Effect.status]))

/-- Waking a queue as closed is a series of deals. -/
theorem wakeAllAsClosedLocked_deals {op : Direction}
    (h : wakeAllAsClosedLocked o s c op = .ok s') : Deals k s s' := by
  refine (wakeAllAsClosed_induct (I := fun q x => Deals k s x ∧ x.ch.queue c op = q) ?_ _
    ⟨.refl, rfl⟩ h).1
  intro w rest x x' hx hround
  exact ⟨hx.1.trans (hround.deals hx.2), hround.queue⟩

/-- A close is a series of deals. -/
theorem channelCloseLocked_deals (h : channelCloseLocked o s c = .ok s') : Deals k s s' := by
  rcases channelCloseLocked_ok h with ⟨_, rfl⟩ | ⟨_, s1, hsend, hrecv⟩
  · exact .refl
  · have hmark : Deals k s { s with ch := s.ch.markClosed c } :=
      Deals.quiet (.markClosed _ _) fun _ _ => rfl
    exact (hmark.trans (wakeAllAsClosedLocked_deals hsend)).trans
      (wakeAllAsClosedLocked_deals hrecv)

/-- The closes of a shutdown are a series of deals. -/
theorem shutdownAll_deals (h : croutineChannelShutdownAllLocked o s = .ok s') : Deals k s s' :=
  Res.foldlM_induct (I := fun x => Deals k s x)
    (fun _ _ _ hI hclose => hI.trans (channelCloseLocked_deals hclose)) _ .refl h

end Operations

/-- Unlinking a woken waiter has no effect. -/
theorem Chans.popWoken_effectsOf {κ : Chans} {c : ChanId} {op : Direction} {w : WaiterId}
    {rest : List WaiterId} {success : Bool} {status : SelectStatus} (j : CallId) :
    (κ.popWoken c op w rest success status).effectsOf j = κ.effectsOf j := by
  rw [effectsOf_append log_popWoken]
  simp [Event.effects]

/-- A call of which no waiter is linked gets no effect from the others. -/
theorem Deals.frozen {k j : CallId} {s s' : Sys} (h : Deals k s s') (hj : j ≠ k)
    (hnone : ∀ c op, ∀ w ∈ s.ch.queue c op, w.call ≠ j) :
    s'.ch.effectsOf j = s.ch.effectsOf j := by
  refine (h.invariant (I := fun x => WaitMoves s x ∧ x.ch.effectsOf j = s.ch.effectsOf j) ?_
    ⟨.refl, rfl⟩).2
  intro x x' ⟨hmoves, heq⟩ hdeal
  refine ⟨hmoves.trans hdeal.moves, ?_⟩
  cases hdeal with
  | quiet hsame heff => exact (heff j hj).trans heq
  | dead hqueue hdead => exact heq
  | @wake o c op w rest success e κ s1 hqueue hlive hwake hκ heff hfits hsuccess =>
      have hw : w ∈ s.ch.queue c op :=
        (hmoves.queue c op).subset (hqueue ▸ List.mem_cons_self)
      show (κ.popWoken c op w rest success e.status).effectsOf j = _
      rw [Chans.popWoken_effectsOf, heff j hj, if_neg (hnone c op w hw), List.append_nil]
      exact heq

/-! ## Outcomes -/

/-- A call that is undecided had no effect.  A call that is decided had one, and its task
will find it in `channel_wake_success` or in the select state. -/
structure Task.Told (κ : Chans) (τ : Task) : Prop where
  asleep : ∀ op k c p, τ.frame = .single op k c p → τ.state = .waitingChannel →
    κ.effectsOf k = []
  single : ∀ op k c p, τ.frame = .single op k c p → τ.state ≠ .waitingChannel →
    τ.hasStack = true → ∃ e : Effect, κ.effectsOf k = [(⟨k, 0⟩, e)] ∧
      e.Fits c op (κ.waiter ⟨k, 0⟩).valueSlot ∧
      (τ.channelWakeSuccess = true ↔ e.status ≠ .closed)
  undone : ∀ k cases p, τ.frame = .select k cases p → (κ.select k).done = false →
    κ.effectsOf k = []
  done : ∀ k cases p, τ.frame = .select k cases p → (κ.select k).done = true →
    ∃ i cs c, ∃ e : Effect, cases[i]? = some cs ∧ cs.channel = some c ∧
      κ.effectsOf k = [(⟨k, i⟩, e)] ∧ e.Fits c cs.op.direction cs.value ∧
      κ.select k = ⟨true, toInt32 (i % 2 ^ 32), e.status⟩ ∧
      (τ.hasStack = true → τ.channelWakeSuccess = true)

namespace Task.Told

variable {κ κ' : Chans} {τ τ' : Task} {k : CallId}

/-- A task outside channel calls. -/
theorem of_no_call (h : τ.frame.call = none) : τ.Told κ := by
  constructor
  all_goals
    intros
    simp_all [Frame.call]

/-- Only the effects, the select and the value slot of the task's call matter. -/
theorem congr (h : τ.Told κ) (hsame : ∀ j, τ.frame.call = some j →
    κ'.effectsOf j = κ.effectsOf j ∧ κ'.select j = κ.select j ∧
      (κ'.waiter ⟨j, 0⟩).valueSlot = (κ.waiter ⟨j, 0⟩).valueSlot) : τ.Told κ' := by
  refine ⟨fun op j c p hu => ?_, fun op j c p hu => ?_, fun j cases p hu => ?_,
    fun j cases p hu => ?_⟩ <;> obtain ⟨heff, hselect, hslot⟩ := hsame j (by rw [hu]; rfl)
  · rw [heff]
    exact h.asleep op j c p hu
  · rw [heff, hslot]
    exact h.single op j c p hu
  · rw [heff, hselect]
    exact h.undone j cases p hu
  · rw [heff, hselect]
    exact h.done j cases p hu

/-- A step that keeps the task's wake keeps what it is told. -/
theorem keeps (h : τ.Told κ) (hframe : τ'.frame = τ.frame)
    (hstate : τ'.state = .waitingChannel ↔ τ.state = .waitingChannel)
    (hwake : τ.KeepsWake τ') : τ'.Told κ := by
  refine ⟨fun op j c p hu hst => ?_, fun op j c p hu hst hstack => ?_,
    fun j cases p hu => ?_, fun j cases p hu hdone => ?_⟩ <;> rw [hframe] at hu
  · exact h.asleep op j c p hu (hstate.mp hst)
  · obtain ⟨hold, hsame⟩ := hwake (by rw [hu]; simp [Frame.call]) hstack
    rw [hsame]
    exact h.single op j c p hu (fun habs => hst (hstate.mpr habs)) hold
  · exact h.undone j cases p hu
  · obtain ⟨i, cs, c, e, hcs, hc, heff, hfits, hsel, hsuccess⟩ := h.done j cases p hu hdone
    refine ⟨i, cs, c, e, hcs, hc, heff, hfits, hsel, fun hstack => ?_⟩
    obtain ⟨hold, hsame⟩ := hwake (by rw [hu]; simp [Frame.call]) hstack
    rw [hsame]
    exact hsuccess hold

/-- A task that has just entered the call `k`. -/
theorem enter (hcall : τ.frame.call = some k) (hnone : κ.effectsOf k = [])
    (hsingle : ∀ op c p, τ.frame = .single op k c p → τ.state = .waitingChannel)
    (hselect : ∀ cases p, τ.frame = .select k cases p → (κ.select k).done = false) :
    τ.Told κ := by
  have hk : ∀ {f : Frame} {j}, τ.frame = f → f.call = some j → j = k := by
    intro f j hf hj
    rw [hf, hj] at hcall
    exact Option.some.inj hcall
  refine ⟨fun op j c p hu _ => ?_, fun op j c p hu hst => ?_, fun j cases p hu _ => ?_,
    fun j cases p hu hdone => ?_⟩ <;> obtain rfl := hk hu rfl
  · exact hnone
  · exact absurd (hsingle op c p hu) hst
  · exact hnone
  · exact absurd ((hselect cases p hu).symm.trans hdone) (by simp)

end Task.Told

/-- Every task will learn what its call did. -/
def Told (κ : Chans) (tasks : TaskId → Task) : Prop := ∀ t, (tasks t).Told κ

namespace Told

variable {κ κ' : Chans} {tasks tasks' : TaskId → Task} {t : TaskId} {k : CallId} {s s' : Sys}

/-- A step that keeps every task's wake keeps what the tasks are told. -/
theorem keeps (h : Told κ tasks) (hk : KeepsChan tasks tasks') : Told κ tasks' := by
  intro t
  rcases hk.frame t with heq | ⟨hnew, _⟩
  · exact (h t).keeps heq (hk.state t) (hk.wake t)
  · exact .of_no_call hnew

/-- Only the effects, the select state and the slot of each call under way matter. -/
theorem congr (h : Told κ tasks) (hsame : ∀ t j, (tasks t).frame.call = some j →
    κ'.effectsOf j = κ.effectsOf j ∧ κ'.select j = κ.select j ∧
      (κ'.waiter ⟨j, 0⟩).valueSlot = (κ.waiter ⟨j, 0⟩).valueSlot) : Told κ' tasks :=
  fun t => (h t).congr (hsame t)

/-- One task is written, with a frame that agrees with the effects. -/
theorem update {τ : Task} (h : Told κ tasks) (hτ : τ.Told κ) :
    Told κ (Function.update tasks t τ) :=
  (Function.forall_update_iff tasks fun _ x => x.Told κ).mpr ⟨hτ, fun u _ => h u⟩

/-- The task of a live waiter that had its effect and was woken. -/
theorem woken {w : WaiterId} {c : ChanId} {op : Direction} {rest : List WaiterId} {success : Bool}
    {e : Effect} {τ : Task} (h : Told κ tasks) (hwait : WaitInv κ tasks)
    (hw : w ∈ κ.queue c op) (hlive : κ.live w = true)
    (hwaits : (tasks (κ.waiter w).task).state = .waitingChannel) (hκ : SameWaits κ κ')
    (heff : κ'.effectsOf w.call = κ.effectsOf w.call ++ [(w, e)])
    (hfits : e.Fits c op (κ.waiter w).valueSlot)
    (hsuccess : τ.channelWakeSuccess = true ↔ (κ.waiter w).kind = .select ∨ e.status ≠ .closed)
    (hframe : τ.frame = (tasks (κ.waiter w).task).frame) (hawake : τ.state ≠ .waitingChannel) :
    τ.Told (κ'.popWoken c op w rest success e.status) := by
  obtain ⟨hchan, hop⟩ := hwait.linked.mem.mp hw
  have howns := hwait.owner w (by rw [hchan]; simp)
  rw [← hframe] at howns
  cases hf : τ.frame with
  | user | ioWait => rw [hf] at howns; exact howns.elim
  | single op' j c' p =>
      rw [hf] at howns
      obtain ⟨rfl, hkind, hop', hchan'⟩ := howns
      obtain rfl : c' = c := Option.some.inj (hchan'.symm.trans hchan)
      obtain rfl : op' = op := by rw [← hop, hop', Direction.direction_op]
      have hnone : κ.effectsOf j = [] :=
        (h (κ.waiter ⟨j, 0⟩).task).asleep op' j c' p (hframe.symm.trans hf) hwaits
      refine ⟨fun _ _ _ _ _ habs => absurd habs hawake, fun op2 j2 c2 p2 hf2 _ _ => ?_,
        fun _ _ _ habs => ?_, fun _ _ _ habs => ?_⟩
      · rw [hf] at hf2
        cases hf2
        refine ⟨e, ?_, ?_, ?_⟩
        · rw [Chans.popWoken_effectsOf, heff, hnone, List.nil_append]
        · rw [Chans.waiter_popWoken, if_pos rfl, hκ.waiter]
          exact hfits
        · rw [hsuccess, hkind]
          simp
      · rw [hf] at habs; cases habs
      · rw [hf] at habs; cases habs
  | select j cases p =>
      rw [hf] at howns
      obtain ⟨rfl, hkind, hstate, hidx, cs, hcs, hchan', hop', hslot⟩ := howns
      have hnone : κ.effectsOf w.call = [] := by
        refine (h (κ.waiter w).task).undone w.call cases p (hframe.symm.trans hf) ?_
        unfold Chans.live at hlive
        rw [hkind, hstate] at hlive
        simpa using hlive
      have hsel := @Chans.select_popWoken_self κ' c op w rest success e.status w.call
        (by rw [hκ.waiter]; exact hkind) (by rw [hκ.waiter]; exact hstate)
      refine ⟨fun _ _ _ _ habs => ?_, fun _ _ _ _ habs => ?_, fun j2 cases2 p2 hf2 hundone => ?_,
        fun j2 cases2 p2 hf2 _ => ?_⟩
      · rw [hf] at habs; cases habs
      · rw [hf] at habs; cases habs
      · rw [hf] at hf2
        cases hf2
        rw [hsel] at hundone
        exact absurd hundone (by simp)
      · rw [hf] at hf2
        cases hf2
        refine ⟨w.idx, cs, c, e, hcs, hchan'.symm.trans hchan, ?_, ?_, ?_, fun _ => ?_⟩
        · rw [Chans.popWoken_effectsOf, heff, hnone, List.nil_append]
        · rw [← hop', ← hslot, hop]
          exact hfits
        · rw [hsel, hκ.waiter, hidx]
        · exact hsuccess.mpr (.inl hkind)

/-- **Telling, one deal.** A deal of a call that no task is inside of keeps what the tasks are
told. -/
theorem deal (h : Told s.ch s.tasks) (hwait : WaitInv s.ch s.tasks)
    (hk : ∀ t, (s.tasks t).frame.call ≠ some k) (hdeal : Deal k s s') :
    Told s'.ch s'.tasks := by
  have hne : ∀ {t j}, (s.tasks t).frame.call = some j → j ≠ k := by
    rintro t j hj rfl
    exact hk t hj
  cases hdeal with
  | quiet hsame heff =>
      exact fun t => (h t).congr fun j hj =>
        ⟨heff j (hne hj), by rw [hsame.select], by rw [hsame.waiter]⟩
  | dead hqueue hdead =>
      exact fun t => (h t).congr fun j _ => ⟨rfl, rfl, by simp⟩
  | @wake o c op w rest success e κ s1 hqueue hlive hwake hκ heff hfits hsuccess =>
      have hlink := hwait.linked_head hqueue
      have hcall := hwait.owner_call hlink
      have hwoke := workerWakeTaskLocked_task hwake
      intro v
      show (s1.tasks v).Told _
      by_cases hv : v = (s.ch.waiter w).task
      · subst hv
        have heffw := heff w.call (hne hcall)
        rw [if_pos rfl] at heffw
        refine h.woken hwait (hqueue ▸ List.mem_cons_self) hlive hwoke.waited hκ heffw hfits ?_
          (hwoke.frame _) (by rw [hwoke.awake]; simp)
        obtain ⟨_, cap, _, rfl⟩ := workerWakeTaskLocked_some hwake
        simpa using hsuccess
      · rw [hwoke.other v hv]
        refine (h v).congr fun j hj => ?_
        have hwj : w.call ≠ j := by
          rintro rfl
          exact hv (hwait.unique _ _ _ hj hcall)
        refine ⟨?_, ?_, ?_⟩
        · rw [Chans.popWoken_effectsOf, heff j (hne hj), if_neg hwj, List.append_nil]
        · rw [Chans.select_popWoken_of_ne, hκ.select]
          intro hkind habs
          rw [hκ.waiter] at hkind habs
          rw [hwait.state_eq hlink hkind] at habs
          exact hwj (Option.some.inj habs)
        · rw [Chans.waiter_popWoken]
          split <;> rw [hκ.waiter]

/-- A series of deals keeps what the tasks are told. -/
theorem deals (h : Told s.ch s.tasks) (hwait : WaitInv s.ch s.tasks)
    (hk : ∀ t, (s.tasks t).frame.call ≠ some k) (hdeals : Deals k s s') :
    Told s'.ch s'.tasks := by
  refine (hdeals.invariant (I := fun x => WaitInv x.ch x.tasks ∧
    (∀ t, (x.tasks t).frame.call ≠ some k) ∧ Told x.ch x.tasks) ?_ ⟨hwait, hk, h⟩).2.2
  intro x x' ⟨hw, hx, htold⟩ hdeal
  refine ⟨hw.moves hdeal.moves, fun t => ?_, htold.deal hw hx hdeal⟩
  rw [hdeal.moves.keeps.2.2.2 t]
  exact hx t

end Told

/-! ## Whole runs -/

/-- A call that parks has had no effect, neither on itself nor on others. -/
theorem parkOnChannel_log {s s1 : Sys} {o : Oracle} {c : ChanId} {op : Direction} {slot : Addr}
    {offer : WaiterId} {w : WorkerId} {t : TaskId} {k : CallId}
    (htry : TryCase o s.ticked offer ⟨some c, op, slot⟩ s1 none) :
    (parkOnChannel s1 w t op k c slot).ch.log = s.ch.log := by
  unfold parkOnChannel
  rw [workerParkCurrentOnChannelLocked_ch]
  exact (Chans.OnlyQueues.park _ _ _ _).log.trans htry.log_of_blocked

/-- Registering a select logs nothing. -/
theorem parkSelect_log {κ : Chans} {gone : WaiterId → Bool} {t : TaskId} {k : CallId}
    (cases : List SelectCase) :
    (selectRegister t k 0 cases ((κ.tick.without gone).setSelect k {})).log = κ.log :=
  (selectRegister_only cases 0 _).log

/-- Reporting a result is no effect. -/
theorem Chans.report_effectsOf {κ : Chans} {e : Option Event} {k : CallId}
    (he : ∀ x ∈ e, x.returnedCall = some k) (j : CallId) :
    (κ.report e).effectsOf j = κ.effectsOf j := by
  have hlog : (κ.report e).log = κ.log ++ e.toList := rfl
  rw [effectsOf_append hlog]
  cases e with
  | none => simp
  | some x => simp [Event.effects_of_returned (he x rfl)]

/-- A report has no effect on any call. -/
theorem Chans.record_effectsOf {κ : Chans} {e : Event} {k : CallId}
    (he : e.returnedCall = some k) (j : CallId) : (κ.record e).effectsOf j = κ.effectsOf j :=
  report_effectsOf (e := some e) (by simpa using he) j

section Run

variable {P : List SelectCase → Prop} {s s' : Sys} {k : CallId}

/-- Call numbers are handed out in order. -/
theorem ChanForm.clock (hform : ChanForm P s s') (hwait : WaitInv s.ch s.tasks) :
    s.ch.clock ≤ s'.ch.clock := by
  cases hform with
  | write a bs => exact Nat.le_refl _
  | create elemSize capacity allocOk =>
      unfold croutineChannelCreate
      split <;> exact Nat.le_refl _
  | destroy hc =>
      unfold croutineChannelDestroy
      split <;> exact Nat.le_refl _
  | attempt hreg htry hdead he => exact Nat.le_of_succ_le htry.moves.keeps.2.2.1
  | parkSingle hc htry hpc hframe =>
      unfold parkOnChannel
      rw [workerParkCurrentOnChannelLocked_ch]
      refine Nat.le_trans ?_ (Nat.le_of_eq (Chans.OnlyQueues.park _ _ _ _).clock.symm)
      exact Nat.le_of_succ_le htry.moves.keeps.2.2.1
  | parkSelect hP hreg hsome hdead hall hpc hframe =>
      rw [workerParkCurrentOnChannelLocked_ch]
      refine Nat.le_trans ?_ (Nat.le_of_eq (selectRegister_only _ 0 _).clock.symm)
      exact Nat.le_succ _
  | close hc h => exact (channelCloseLocked_moves h).keeps.2.2.1
  | shutdown h => exact (croutineChannelShutdownAllLocked_moves h).keeps.2.2.1
  | returnSingle hpc hframe => exact Nat.le_refl _
  | @returnSelect w t call cases parked hpc hframe index status =>
      have hscrub := (Scrubbed.scrubSelectWaiters hwait.linked call cases.length).1
      exact Nat.le_of_eq hscrub.only.clock.symm

/-- A step has no effect for a call that nobody is inside of, unless it is the call that
the step makes. -/
theorem ChanForm.frozen (hform : ChanForm P s s') (hwait : WaitInv s.ch s.tasks)
    (hk : k < s.ch.clock ∨ s'.ch.clock ≤ k) (hnobody : ∀ t, (s.tasks t).frame.call ≠ some k) :
    s'.ch.effectsOf k = s.ch.effectsOf k := by
  have hnone : ∀ c op, ∀ w ∈ s.ch.queue c op, w.call ≠ k := by
    rintro c op w hw rfl
    exact hnobody _ (hwait.owner_call (by rw [(hwait.linked.mem.mp hw).1]; simp))
  cases hform with
  | write a bs => rfl
  | create elemSize capacity allocOk =>
      refine Chans.effectsOf_of_log ?_ k
      unfold croutineChannelCreate
      split <;> rfl
  | destroy hc =>
      refine Chans.effectsOf_of_log ?_ k
      unfold croutineChannelDestroy
      split <;> rfl
  | @attempt o i cs s1 fired hreg htry gone hdead e he =>
      have hne : k ≠ s.ch.clock := by
        have hclock : s.ch.clock + 1 ≤ s1.ch.clock := htry.moves.keeps.2.2.1
        rcases hk with hk | hk
        · exact Nat.ne_of_lt hk
        · exact Nat.ne_of_gt (Nat.lt_of_lt_of_le hclock hk)
      rw [Chans.report_effectsOf he]
      exact htry.deals.frozen hne hnone
  | parkSingle hc htry hpc hframe => exact Chans.effectsOf_of_log (parkOnChannel_log htry) k
  | parkSelect hP hreg hsome hdead hall hpc hframe =>
      refine Chans.effectsOf_of_log ?_ k
      rw [workerParkCurrentOnChannelLocked_ch]
      exact parkSelect_log _
  | close hc h => exact (channelCloseLocked_deals (k := k + 1) h).frozen (by simp) hnone
  | shutdown h => exact (shutdownAll_deals (k := k + 1) h).frozen (by simp) hnone
  | returnSingle hpc hframe =>
      exact Chans.record_effectsOf (singleReturned_returnedCall _ _ _ _) k
  | @returnSelect w t call cases parked hpc hframe index status =>
      have hscrub := (Scrubbed.scrubSelectWaiters hwait.linked call cases.length).1
      exact (Chans.record_effectsOf rfl k).trans (Chans.effectsOf_of_log hscrub.only.log k)

namespace Told

theorem ticked (h : Told s.ch s.tasks) : Told s.ticked.ch s.ticked.tasks :=
  h.congr fun _ _ _ => ⟨rfl, rfl, rfl⟩

/-- **Telling, step.** Every form of a channel step keeps what the tasks are told. -/
theorem chanForm (h : Told s.ch s.tasks) (hwait : WaitInv s.ch s.tasks)
    (hfresh : s.ch.effectsOf s.ch.clock = []) (hform : ChanForm P s s') :
    Told s'.ch s'.tasks := by
  have hnobody : ∀ t, (s.tasks t).frame.call ≠ some s.ch.clock :=
    fun t ht => Nat.lt_irrefl _ (hwait.calls t _ ht)
  cases hform with
  | write a bs => exact h.congr fun _ _ _ => ⟨rfl, rfl, rfl⟩
  | create elemSize capacity allocOk =>
      unfold croutineChannelCreate
      split
      · exact h
      · exact h.congr fun _ _ _ => ⟨rfl, rfl, rfl⟩
  | destroy hc =>
      unfold croutineChannelDestroy
      split
      · exact h.congr fun _ _ _ => ⟨rfl, rfl, rfl⟩
      · exact h
  | @attempt o i cs s1 fired hreg htry gone hdead e he =>
      have h1 := h.ticked.deals hwait.ticked hnobody htry.deals
      refine h1.congr fun t j _ => ⟨?_, rfl, by simp [Chans.report]⟩
      exact Chans.report_effectsOf he j
  | @parkSingle o c op slot s1 w t hc htry hpc hframe =>
      have h1 := h.ticked.deals hwait.ticked hnobody htry.deals
      obtain ⟨hch, htasks⟩ := @parkOnChannel_eq s1 w t op s.ch.clock c slot htry.runs_of_blocked
      have honly := Chans.OnlyQueues.park s1.ch c ⟨s.ch.clock, 0⟩
        { kind := .regular, op := op, task := t, valueSlot := slot }
      have hlog := parkOnChannel_log (w := w) (t := t) (k := s.ch.clock) htry
      rw [hch] at hlog
      rw [hch, htasks]
      refine (h1.congr fun u j hu => ⟨?_, by rw [honly.select], ?_⟩).update
        (.enter (k := s.ch.clock) rfl ?_ (fun _ _ _ _ => rfl) (by simp))
      · exact Chans.effectsOf_of_log honly.log j
      · rw [Chans.waiter_park, Function.update_of_ne]
        rintro ⟨⟩
        exact (hwait.fresh htry.moves).2 u hu
      · rw [Chans.effectsOf_of_log hlog]
        exact hfresh
  | @parkSelect o cases w t hP hreg hsome gone hdead hall hpc hframe =>
      have honly := selectRegister_only (t := t) (k := s.ch.clock) cases 0
        ((s.ch.tick.without gone).setSelect s.ch.clock {})
      have hold : Told (selectRegister t s.ch.clock 0 cases
          ((s.ch.tick.without gone).setSelect s.ch.clock {})) s.tasks := by
        refine h.congr fun u j hu => ⟨Chans.effectsOf_of_log (parkSelect_log cases) j, ?_, ?_⟩
        · have hj : j ≠ s.ch.clock := fun heq => hnobody u (heq ▸ hu)
          rw [honly.select]
          simp [Chans.setSelect, hj]
          rfl
        · have hj : j ≠ s.ch.clock := fun heq => hnobody u (heq ▸ hu)
          rw [selectRegister_waiter_other hj]
          simp [Chans.setSelect]
          rfl
      have henter : ∀ {τ : Task} {p : Bool}, τ.frame = .select s.ch.clock cases p →
          τ.Told (selectRegister t s.ch.clock 0 cases
            ((s.ch.tick.without gone).setSelect s.ch.clock {})) := by
        intro τ p hτ
        refine .enter (k := s.ch.clock) (by rw [hτ]; rfl) ?_ (fun _ _ _ habs => ?_) fun _ _ _ => ?_
        · rw [Chans.effectsOf_of_log (parkSelect_log cases)]
          exact hfresh
        · rw [hτ] at habs
          cases habs
        · rw [honly.select]
          simp [Chans.setSelect]
      unfold workerParkCurrentOnChannelLocked
      dsimp only
      split
      · exact hold.update (henter rfl)
      · exact hold.update (henter rfl)
  | close hc h1 => exact h.deals hwait hnobody (channelCloseLocked_deals h1)
  | @shutdown o θ s1 life h1 =>
      have hdeals := shutdownAll_deals (k := s.ch.clock) h1
      have h2 : Told s1.ch s1.tasks :=
        Told.deals (s := { s with shutdownRequested := true }) h hwait hnobody hdeals
      exact h2
  | returnSingle hpc hframe =>
      refine Told.update (h.congr fun u j _ => ⟨?_, rfl, rfl⟩) (.of_no_call rfl)
      exact Chans.record_effectsOf (singleReturned_returnedCall _ _ _ _) j
  | @returnSelect w t call cases parked hpc hframe index status =>
      have hscrub := (Scrubbed.scrubSelectWaiters hwait.linked call cases.length).1
      refine Told.update (h.congr fun u j _ => ⟨?_, ?_, ?_⟩) (.of_no_call rfl)
      · exact (Chans.record_effectsOf rfl j).trans (Chans.effectsOf_of_log hscrub.only.log j)
      · exact congrFun hscrub.only.select j
      · show ((scrubSelectWaiters call cases.length s.ch).waiter ⟨j, 0⟩).valueSlot = _
        rcases hscrub.waiter ⟨j, 0⟩ with heq | ⟨_, heq⟩ <;> rw [heq]

end Told

/-- Calls that were not made have had no effect. -/
theorem effectsOf_fresh {backend : Backend} {allowed : Sys → Action → Prop}
    (h : (runtime backend).ReachVia allowed s) (hk : s.ch.clock ≤ k) : s.ch.effectsOf k = [] := by
  refine Machine.ReachVia.invariant (I := fun x => ∀ j, x.ch.clock ≤ j → x.ch.effectsOf j = [])
    ?_ ?_ h k hk
  · intro x hx j _
    obtain ⟨wakeFd, workers, runCapacity, ioCapacity, _, _, rfl⟩ := hx
    rfl
  · intro x a x' hreach hx _ hstep j hj
    rcases step_form hreach hstep with hc | hu
    · have hclock := hc.clock (WaitInv.reach hreach)
      have hj' : x.ch.clock ≤ j := Nat.le_trans hclock hj
      rw [hc.frozen (WaitInv.reach hreach) (.inr hj) fun t ht =>
        Nat.not_lt.mpr hj' ((WaitInv.reach hreach).calls t j ht)]
      exact hx j hj'
    · rw [hu.ch] at hj ⊢
      exact hx j hj

/-- **Every task will learn what its call did**, in every state of every run. -/
theorem Told.reach {backend : Backend} {allowed : Sys → Action → Prop}
    (h : (runtime backend).ReachVia allowed s) : Told s.ch s.tasks := by
  refine Machine.ReachVia.invariant (I := fun x => Told x.ch x.tasks) ?_ ?_ h
  · intro x hx t
    obtain ⟨wakeFd, workers, runCapacity, ioCapacity, _, _, rfl⟩ := hx
    exact .of_no_call rfl
  · intro x a x' hreach hx _ hstep
    rcases step_form hreach hstep with hc | hu
    · exact hx.chanForm (WaitInv.reach hreach) (effectsOf_fresh hreach (Nat.le_refl _)) hc
    · rw [hu.ch]
      exact hx.keeps hu.tasks

end Run

end Croutine
