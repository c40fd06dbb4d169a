import Croutine.Registry
import Croutine.Reports

/-!
# Results tell the truth

The value that a blocking send, a blocking receive or a select returns is reconstructed
after the task was resumed, from a flag of the task or from the state of the select.  The
results below say that it agrees with what happened on the channels: with the one effect of
the call, whatever other threads did between its park and its return.
-/

namespace Croutine

/-! ## The effect of a call that does not park -/

section Own

variable {k : CallId} {i : Nat} {o : Oracle} {s s' : Sys} {c : ChanId}

/-- What was the case on the channel in the critical section that had the effect: values
are accepted while it is open and no shutdown was requested, and offers complete as closed
when it is closed or shutdown was requested. -/
def Effect.Justified (s s' : Sys) : Effect → Prop
  | .sent c _ => (s.ch.chan c).closed = false ∧ s.shutdownRequested = false
  | .received _ _ _ => True
  | .closed c flag => if flag then (s'.ch.chan c).closed = true else s'.shutdownRequested = true

/-- An offer that is refused by a closed channel or a shutdown is so with cause. -/
theorem Effect.justified_refused {κ : Chans} (h : (s.ch.chan c).closed = true ∨
    s.shutdownRequested = true) (hκ : (κ.chan c).closed = (s.ch.chan c).closed) :
    (Effect.closed c (s.ch.chan c).closed).Justified s { s with ch := κ } := by
  unfold Justified
  dsimp only
  cases hc : (s.ch.chan c).closed with
  | false => simpa [hc] using h
  | true => simpa [hc] using hκ

/-- A send attempt that completes has one effect for its own call, the one it reports. -/
theorem TrySend.own {value : Addr} {r : SendResult} (h : TrySend o s c ⟨k, i⟩ value s' r)
    (hfresh : ∀ c op, ∀ x ∈ s.ch.queue c op, x.call ≠ k) (hr : r ≠ .wouldBlock) :
    ∃ e : Effect, sendStatus r = some e.status ∧ e.Fits c .send value ∧ e.Justified s s' ∧
      s'.ch.effectsOf k = s.ch.effectsOf k ++ [(⟨k, i⟩, e)] := by
  cases h with
  | refused h =>
      refine ⟨.closed c _, rfl, rfl, Effect.justified_refused h rfl, ?_⟩
      rw [Chans.effectsOf_append (κ := s.ch) rfl]
      simp [Event.effects]
  | @handed hopen hrun dead rest r hqueue hdead hlive s1 hwake =>
      refine ⟨.sent c (s.ch.valueAt c value), rfl, ⟨rfl, rfl⟩, ⟨hopen, hrun⟩, ?_⟩
      have hne : r.call ≠ k := hfresh c .recv r (by rw [hqueue]; simp)
      rw [Chans.effectsOf_append (Chans.handedTo_log _ _ _)]
      simp [Event.effects, hne]
  | buffered hopen hrun hdead hroom =>
      refine ⟨.sent c (s.ch.valueAt c value), rfl, ⟨rfl, rfl⟩, ⟨hopen, hrun⟩, ?_⟩
      rw [Chans.effectsOf_append (κ := s.ch) rfl]
      simp [Event.effects]
  | blocked hopen hrun hdead hfull => exact absurd rfl hr

/-- A receive attempt that completes has one effect for its own call, the one it reports. -/
theorem TryRecv.own {out : Addr} {r : RecvResult} (h : TryRecv o s c ⟨k, i⟩ out s' r)
    (hfresh : ∀ c op, ∀ x ∈ s.ch.queue c op, x.call ≠ k) (hr : r ≠ .empty) :
    ∃ e : Effect, recvStatus r = some e.status ∧ e.Fits c .recv out ∧ e.Justified s s' ∧
      s'.ch.effectsOf k = s.ch.effectsOf k ++ [(⟨k, i⟩, e)] := by
  have hnext : ∀ {dead tail : List WaiterId} {x : WaiterId},
      s.ch.queue c .send = dead ++ x :: tail → x.call ≠ k := by
    intro dead tail x hqueue
    exact hfresh c .send x (by rw [hqueue]; simp)
  cases h with
  | @taken v rest hbuffer hskip =>
      refine ⟨.received c out v, rfl, ⟨rfl, rfl, rfl⟩, trivial, ?_⟩
      rw [Chans.effectsOf_append (κ := s.ch) rfl]
      simp [Event.effects]
  | @drained v rest hbuffer hopen hdead =>
      refine ⟨.received c out v, rfl, ⟨rfl, rfl, rfl⟩, trivial, ?_⟩
      rw [Chans.effectsOf_append (κ := s.ch) rfl]
      simp [Event.effects]
  | @refilled v rest hbuffer hopen hroom dead tail x hqueue hdead hlive s1 hwake =>
      refine ⟨.received c out v, rfl, ⟨rfl, rfl, rfl⟩, trivial, ?_⟩
      have hne := hnext hqueue
      rw [Chans.effectsOf_append (Chans.bufferedFrom_log _ _),
        Chans.effectsOf_append (Chans.tookBuffered_log _ _ _)]
      simp [Event.effects, hne]
  | @direct hbuffer dead tail x hqueue hdead hlive s1 hwake =>
      refine ⟨.received c out (s.ch.valueAt c (s.ch.waiter x).valueSlot), rfl, ⟨rfl, rfl, rfl⟩,
        trivial, ?_⟩
      have hne := hnext hqueue
      rw [Chans.effectsOf_append (Chans.takenFrom_log _ _ _)]
      simp [Event.effects, hne]
  | refused hbuffer hdead h =>
      refine ⟨.closed c _, rfl, rfl, Effect.justified_refused h (by simp [Chans.record]), ?_⟩
      rw [Chans.effectsOf_append (κ := s.ch) rfl]
      simp [Event.effects]
  | blocked hbuffer hdead hopen hrun => exact absurd rfl hr

/-- The attempt of a case that fires has one effect for its own call, the one it reports. -/
theorem TryCase.own {cs : SelectCase} {status : SelectStatus}
    (h : TryCase o s ⟨k, i⟩ cs s' (some status))
    (hfresh : ∀ c op, ∀ x ∈ s.ch.queue c op, x.call ≠ k) :
    ∃ c, ∃ e : Effect, cs.channel = some c ∧ status = e.status ∧ e.Fits c cs.op.direction cs.value ∧
      e.Justified s s' ∧ s'.ch.effectsOf k = s.ch.effectsOf k ++ [(⟨k, i⟩, e)] := by
  generalize hf : some status = fired at h
  cases h with
  | untried huntried => exact absurd hf (by simp)
  | @send c hchan hop s' r h =>
      obtain ⟨e, hstatus, hfits, hjust, heff⟩ := h.own hfresh
        (by rintro rfl; exact absurd hf (by simp [sendStatus]))
      rw [← hf, Option.some.injEq] at hstatus
      exact ⟨c, e, hchan, hstatus, by rw [hop]; exact hfits, hjust, heff⟩
  | @recv c hchan hop s' r h =>
      obtain ⟨e, hstatus, hfits, hjust, heff⟩ := h.own hfresh
        (by rintro rfl; exact absurd hf (by simp [recvStatus]))
      rw [← hf, Option.some.injEq] at hstatus
      exact ⟨c, e, hchan, hstatus, by rw [hop]; exact hfits, hjust, heff⟩

end Own

/-! ## The effects of a step -/

/-- The step only adds effects.  They are justified, or are sends of waiters that it found
in a queue. -/
def NewEffects (s s' : Sys) : Prop :=
  ∃ l, s'.ch.effects = s.ch.effects ++ l ∧
    ∀ p ∈ l, p.2.Justified s s' ∨ ∃ c v, p.2 = .sent c v ∧ p.1 ∈ s.ch.queue c .send

section NewEffects

variable {o : Oracle} {s s' : Sys} {c : ChanId}

/-- Nothing was logged. -/
theorem NewEffects.none (h : s'.ch.log = s.ch.log) : NewEffects s s' :=
  ⟨[], by rw [Chans.effects_of_log h, List.append_nil], by simp⟩

/-- A send attempt has justified effects. -/
theorem TrySend.newEffects {offer : WaiterId} {value : Addr} {r : SendResult}
    (h : TrySend o s c offer value s' r) : NewEffects s s' := by
  cases h with
  | refused h =>
      refine ⟨_, Chans.effects_append (κ := s.ch) rfl, fun p hp => ?_⟩
      obtain rfl : p = (offer, .closed c (s.ch.chan c).closed) := by simpa [Event.effects] using hp
      exact .inl (Effect.justified_refused h rfl)
  | handed hopen hrun hqueue hdead hlive hwake =>
      refine ⟨_, Chans.effects_append (Chans.handedTo_log _ _ _), ?_⟩
      simp [Event.effects, Effect.Justified, hopen, hrun]
  | buffered hopen hrun hdead hroom =>
      refine ⟨_, Chans.effects_append (κ := s.ch) rfl, ?_⟩
      simp [Event.effects, Effect.Justified, hopen, hrun]
  | blocked hopen hrun hdead hfull => exact .none rfl

/-- A receive attempt has justified effects, or completes a sender in the queue. -/
theorem TryRecv.newEffects {offer : WaiterId} {out : Addr} {r : RecvResult}
    (h : TryRecv o s c offer out s' r) : NewEffects s s' := by
  cases h with
  | taken hbuffer hskip =>
      refine ⟨_, Chans.effects_append (κ := s.ch) rfl, ?_⟩
      simp [Event.effects, Effect.Justified]
  | drained hbuffer hopen hdead =>
      refine ⟨_, Chans.effects_append (κ := s.ch) rfl, ?_⟩
      simp [Event.effects, Effect.Justified]
  | @refilled v rest hbuffer hopen hroom dead tail x hqueue hdead hlive s1 hwake =>
      refine ⟨_, Chans.effects_append (κ := s.ch) ((Chans.bufferedFrom_log _ _).trans
        (List.append_assoc _ _ _)), ?_⟩
      simp [Event.effects, Effect.Justified, hqueue]
  | direct hbuffer hqueue hdead hlive hwake =>
      refine ⟨_, Chans.effects_append (Chans.takenFrom_log _ _ _), ?_⟩
      simp [Event.effects, Effect.Justified, hqueue]
  | refused hbuffer hdead h =>
      refine ⟨_, Chans.effects_append (κ := s.ch) rfl, fun p hp => ?_⟩
      obtain rfl : p = (offer, .closed c (s.ch.chan c).closed) := by simpa [Event.effects] using hp
      exact .inl (Effect.justified_refused h (by simp [Chans.record]))
  | blocked hbuffer hdead hopen hrun => exact .none rfl

/-- What a drain of the queues of a closed channel adds. -/
theorem CloseRound.effects {op : Direction} {w : WaiterId} {rest : List WaiterId}
    (h : CloseRound o c op w rest s s') (hc : (s.ch.chan c).closed = true) :
    ∃ l, s'.ch.effects = s.ch.effects ++ l ∧ ∀ p ∈ l, p.2 = .closed c true := by
  cases h with
  | skipped hkind hskip =>
      exact ⟨[], (Chans.effects_of_log (κ := s.ch) rfl).trans (List.append_nil _).symm, by simp⟩
  | selected hkind hlive hwake =>
      refine ⟨_, Chans.effects_append (κ := s.ch) ((Chans.completed_log _).trans
        (List.append_assoc _ _ _)), ?_⟩
      simp [Event.effects, hc]
  | regular hkind hwake =>
      refine ⟨_, Chans.effects_append (κ := s.ch) (List.append_assoc _ _ _), ?_⟩
      simp [Event.effects, hc]

/-- Closing completes offers on the channel as closed. -/
theorem channelCloseLocked_effects (h : channelCloseLocked o s c = .ok s') :
    ∃ l, s'.ch.effects = s.ch.effects ++ l ∧ ∀ p ∈ l, p.2 = .closed c true := by
  have hdrain : ∀ {op : Direction} {x x' : Sys}, (x.ch.chan c).closed = true →
      (∃ l, x.ch.effects = s.ch.effects ++ l ∧ ∀ p ∈ l, p.2 = .closed c true) →
      wakeAllAsClosedLocked o x c op = .ok x' → (x'.ch.chan c).closed = true ∧
        ∃ l, x'.ch.effects = s.ch.effects ++ l ∧ ∀ p ∈ l, p.2 = .closed c true := by
    intro op x x' hc hx hwake
    refine wakeAllAsClosed_induct (I := fun _ y => (y.ch.chan c).closed = true ∧
      ∃ l, y.ch.effects = s.ch.effects ++ l ∧ ∀ p ∈ l, p.2 = .closed c true) ?_ _ ⟨hc, hx⟩ hwake
    intro w rest y y' ⟨hflag, l, hl, hall⟩ hround
    obtain ⟨l', hl', hall'⟩ := hround.effects hflag
    refine ⟨(Channel.closed_of_bare (hround.bare c)).trans hflag, l ++ l',
      by rw [hl', hl, List.append_assoc], fun p hp => ?_⟩
    rcases List.mem_append.mp hp with hp | hp
    · exact hall p hp
    · exact hall' p hp
  rcases channelCloseLocked_ok h with ⟨_, rfl⟩ | ⟨_, s1, hsend, hrecv⟩
  · exact ⟨[], by simp, by simp⟩
  · have hmark : (({ s with ch := s.ch.markClosed c } : Sys).ch.chan c).closed = true := by
      simp [Chans.markClosed, Chans.setChan]
    obtain ⟨hflag, hfirst⟩ := hdrain hmark ⟨[], by rw [List.append_nil]; rfl, by simp⟩ hsend
    exact (hdrain hflag hfirst hrecv).2

/-- Shutdown completes offers as closed on channels that it has closed. -/
theorem shutdownAll_effects (h : croutineChannelShutdownAllLocked o s = .ok s') :
    ∃ l, s'.ch.effects = s.ch.effects ++ l ∧
      ∀ p ∈ l, ∃ c, p.2 = .closed c true ∧ (s'.ch.chan c).closed = true := by
  refine Res.foldlM_induct (I := fun x => ∃ l, x.ch.effects = s.ch.effects ++ l ∧
    ∀ p ∈ l, ∃ c, p.2 = .closed c true ∧ (x.ch.chan c).closed = true) ?_ _
    ⟨[], by simp, by simp⟩ h
  intro x c x' ⟨l, hl, hall⟩ hclose
  obtain ⟨l', hl', hall'⟩ := channelCloseLocked_effects hclose
  refine ⟨l ++ l', by rw [hl', hl, List.append_assoc], fun p hp => ?_⟩
  rcases List.mem_append.mp hp with hp | hp
  · obtain ⟨c', hp', hc'⟩ := hall p hp
    exact ⟨c', hp', channelCloseLocked_stays hclose hc'⟩
  · exact ⟨c, hall' p hp, (channelCloseLocked_empties hclose).1⟩

/-- The attempt of a case has justified effects, or completes a sender in the queue. -/
theorem TryCase.newEffects {offer : WaiterId} {cs : SelectCase} {fired : Option SelectStatus}
    (h : TryCase o s offer cs s' fired) : NewEffects s s' := by
  cases h with
  | untried huntried => exact .none rfl
  | send hchan hop h => exact h.newEffects
  | recv hchan hop h => exact h.newEffects

/-- Every form of a channel step has justified effects, or completes senders in a queue. -/
theorem ChanForm.newEffects {P : List SelectCase → Prop} (hform : ChanForm P s s')
    (hwait : WaitInv s.ch s.tasks) : NewEffects s s' := by
  cases hform with
  | write a bs => exact .none rfl
  | create elemSize capacity allocOk =>
      refine .none ?_
      unfold croutineChannelCreate
      split <;> rfl
  | destroy hc =>
      refine .none ?_
      unfold croutineChannelDestroy
      split <;> rfl
  | @attempt o i cs s1 fired hreg htry gone hdead e he =>
      obtain ⟨l, hl, hall⟩ := htry.newEffects
      refine ⟨l, ?_, hall⟩
      have hlog : ((s1.ch.without gone).report e).log = s1.ch.log ++ e.toList := rfl
      rw [Chans.effects_append hlog, hl]
      cases e with
      | none => simp; rfl
      | some x => simp [Event.effects_of_returned (he x rfl)]; rfl
  | parkSingle hc htry hpc hframe => exact .none (parkOnChannel_log htry)
  | parkSelect hP hreg hsome hdead hall hpc hframe =>
      refine .none ?_
      rw [workerParkCurrentOnChannelLocked_ch]
      exact parkSelect_log _
  | close hc h =>
      obtain ⟨l, hl, hall⟩ := channelCloseLocked_effects h
      refine ⟨l, hl, fun p hp => .inl ?_⟩
      rw [hall p hp]
      exact (channelCloseLocked_empties h).1
  | @shutdown o θ s1 life h =>
      obtain ⟨l, hl, hall⟩ := shutdownAll_effects h
      refine ⟨l, hl, fun p hp => .inl ?_⟩
      obtain ⟨c, hp', hc⟩ := hall p hp
      rw [hp']
      exact hc
  | @returnSingle w t op call c parked hpc hframe =>
      refine ⟨_, Chans.effects_append (κ := s.ch) rfl, ?_⟩
      simp [Event.effects_of_returned (singleReturned_returnedCall op call c _)]
  | @returnSelect w t call cases parked hpc hframe index status =>
      have hscrub := (Scrubbed.scrubSelectWaiters hwait.linked call cases.length).1
      refine ⟨_, Chans.effects_append (κ := s.ch) (congrArg (· ++ [_]) hscrub.only.log), ?_⟩
      simp [Event.effects]

end NewEffects

section Run

variable {backend : Backend} {allowed : Sys → Action → Prop} {s s' : Sys} {a : Action}

/-- **New effects, step.** Every step of a run has justified effects, or completes senders in a
queue. -/
theorem step_newEffects (hreach : (runtime backend).ReachVia allowed s)
    (hstep : step s a = .ok s') : NewEffects s s' := by
  rcases step_form hreach hstep with hc | hu
  · exact hc.newEffects (WaitInv.reach hreach)
  · exact .none (by rw [hu.ch])

/-- A channel that is closed stays closed, and a request of shutdown stays. -/
theorem step_stays (hreach : (runtime backend).ReachVia allowed s) (hstep : step s a = .ok s') :
    (∀ c, (s.ch.chan c).closed = true → (s'.ch.chan c).closed = true) ∧
      (s.shutdownRequested = true → s'.shutdownRequested = true) := by
  rcases step_form hreach hstep with hc | hu
  · exact hc.stays (WaitInv.reach hreach) (chan_fresh hreach (Nat.le_refl _))
  · rw [hu.ch, hu.shutdown]
    exact ⟨fun _ => id, id⟩

/-- An offer completes as closed only on a channel that is closed, or when shutdown was
requested. -/
theorem closed_of_effect (h : (runtime backend).ReachVia allowed s) {w : WaiterId} {c : ChanId}
    {flag : Bool} (hw : (w, Effect.closed c flag) ∈ s.ch.effects) :
    if flag then (s.ch.chan c).closed = true else s.shutdownRequested = true := by
  refine Machine.ReachVia.invariant (I := fun x => ∀ w c flag,
    (w, Effect.closed c flag) ∈ x.ch.effects →
      if flag then (x.ch.chan c).closed = true else x.shutdownRequested = true) ?_ ?_ h w c flag hw
  · intro x hx w c flag hw
    obtain ⟨wakeFd, workers, runCapacity, ioCapacity, _, _, rfl⟩ := hx
    exact absurd hw List.not_mem_nil
  · intro x a x' hreach hx _ hstep w c flag hw
    obtain ⟨l, hl, hall⟩ := step_newEffects hreach hstep
    obtain ⟨hclosed, hdown⟩ := step_stays hreach hstep
    rw [hl] at hw
    rcases List.mem_append.mp hw with hw | hw
    · have hold := hx w c flag hw
      cases flag with
      | false => exact hdown hold
      | true => exact hclosed c hold
    · rcases hall _ hw with hjust | ⟨c', v, habs, _⟩
      · exact hjust
      · exact absurd habs (by simp)

/-! ## Selects -/

/-- Call numbers not yet handed out have no waiter. -/
theorem WaitInv.queue_fresh (h : WaitInv s.ch s.tasks) (c : ChanId) (op : Direction) :
    ∀ x ∈ s.ticked.ch.queue c op, x.call ≠ s.ch.clock := by
  intro x hx heq
  have hnone := h.unlinked_of_clock (w := x) (Nat.le_of_eq heq.symm)
  rw [(h.linked.mem.mp hx).1] at hnone
  exact absurd hnone (by simp)

/-- The index that `(int32_t)` keeps. -/
theorem toInt32_of_lt {n : Nat} (h : n < 2 ^ 31) : toInt32 n = n := by
  unfold toInt32 Int.bmod
  dsimp only
  split <;> omega

/-- An index that comes back from `int` unchanged was the index. -/
theorem eq_of_toInt32 {n i : Nat} (hn : n < 2 ^ 32) (h : toInt32 n = i) : n = i := by
  unfold toInt32 Int.bmod at h
  dsimp only at h
  split at h <;> omega

/-- A select that parked and whose task runs again was woken with success and has fired a
case. -/
theorem select_fired (hreach : (runtime backend).ReachVia allowed s) {w : WorkerId} {t : TaskId}
    {k : CallId} {cases : List SelectCase} (hpc : s.wk.pc w = .running t)
    (hframe : (s.tasks t).frame = .select k cases true) (hn : cases.length ≤ 2 ^ 32) :
    (s.tasks t).channelWakeSuccess = true ∧
      ∃ i cs c, ∃ e : Effect, cases[i]? = some cs ∧ cs.channel = some c ∧
        s.ch.effectsOf k = [(⟨k, i⟩, e)] ∧ e.Fits c cs.op.direction cs.value ∧
        s.ch.select k = ⟨true, toInt32 i, e.status⟩ := by
  have hdone : (s.ch.select k).done = true := by
    by_contra hdone
    have hwaits := (OpenInv.reach hreach).asleep t k cases hframe (by simpa using hdone)
    rw [running_runnable hreach hpc] at hwaits
    exact absurd hwaits (by simp)
  obtain ⟨i, cs, c, e, hcs, hc, heff, hfits, hsel, hsuccess⟩ :=
    (Told.reach hreach t).done k cases true hframe hdone
  have hi : i % 2 ^ 32 = i :=
    Nat.mod_eq_of_lt (Nat.lt_of_lt_of_le (List.getElem?_eq_some_iff.mp hcs).1 hn)
  rw [hi] at hsel
  exact ⟨hsuccess (running_hasStack hreach hpc), i, cs, c, e, hcs, hc, heff, hfits, hsel⟩

/-- The one effect of a select was that of the case it returned. -/
def Fired (κ : Chans) (k : CallId) (cases : List SelectCase) (i : Nat)
    (status : Option SelectStatus) : Prop :=
  ∃ cs c, ∃ e : Effect, cases[i]? = some cs ∧ cs.channel = some c ∧
    κ.effectsOf k = [(⟨k, i⟩, e)] ∧ e.Fits c cs.op.direction cs.value ∧ status = some e.status

/-- A select that returns the index of a case had the effect of that case. -/
theorem Report.fired_case {k : CallId} {cases : List SelectCase} {i : Nat}
    {status : Option SelectStatus} (hreach : (runtime backend).ReachVia allowed s)
    (hr : Report s s' (.selectReturned k cases i status)) (hi : i < cases.length)
    (hn : cases.length ≤ 2 ^ 32) : Fired s'.ch k cases i status := by
  have hwait := WaitInv.reach hreach
  generalize hev : Event.selectReturned k cases i status = ev at hr
  cases hr with
  | send htry heff | recv htry heff => cases hev
  | @fired o cases' j cs s1 status' hj hcs htry heff =>
      simp only [Event.selectReturned.injEq] at hev
      obtain ⟨rfl, rfl, hidx, rfl⟩ := hev
      obtain rfl : j = i := eq_of_toInt32 hj hidx.symm
      obtain ⟨c, e, hc, hstatus, hfits, _, hown⟩ := htry.own hwait.queue_fresh
      refine ⟨cs, c, e, hcs, hc, ?_, hfits, by rw [hstatus]⟩
      have hnone : s.ticked.ch.effectsOf s.ch.clock = [] :=
        effectsOf_fresh (s := s) hreach (Nat.le_refl _)
      rw [heff, hown, hnone, List.nil_append]
  | default cases' =>
      simp only [Event.selectReturned.injEq, selectDefaultIndex] at hev
      omega
  | @single w t op call c parked hpc hframe heff =>
      cases op <;> cases hev
  | @select w t call cases' parked hpc hframe heff =>
      obtain ⟨index, status', heq⟩ := selectReport_eq (s.ch.select call) call cases'
        (parked && (s.tasks t).channelWakeSuccess)
      have hsame := hev.trans heq
      simp only [Event.selectReturned.injEq] at hsame
      obtain ⟨rfl, rfl, _⟩ := hsame
      have hp : parked = true := by
        by_contra hp
        obtain rfl : parked = false := by simpa using hp
        simp only [selectReport, Bool.false_and, Bool.not_false, if_true,
          Event.selectReturned.injEq, selectDefaultIndex] at hev
        omega
      subst hp
      obtain ⟨hsuccess, j, cs, c, e, hcs, hc, hold, hfits, hsel⟩ :=
        select_fired hreach hpc hframe hn
      have hj := (List.getElem?_eq_some_iff.mp hcs).1
      rw [hsuccess, hsel] at hev
      unfold selectReport at hev
      simp only [Bool.and_self, Bool.not_true, Bool.false_eq_true, if_false] at hev
      split at hev
      · simp only [Event.selectReturned.injEq, true_and] at hev
        obtain ⟨hidx, rfl⟩ := hev
        obtain rfl : j = i := eq_of_toInt32 (Nat.lt_of_lt_of_le hj hn) hidx.symm
        exact ⟨cs, c, e, hcs, hc, by rw [heff, hold], hfits, rfl⟩
      · next hrange =>
        simp only [Event.selectReturned.injEq, true_and] at hev
        rw [← hev.1] at hrange
        exact absurd ⟨Int.natCast_nonneg i, by exact_mod_cast hi⟩ hrange

end Run

/-- **A select fires one case.**  When a select of at most `2 ^ 32` cases has returned the
index `i` of a case, the one effect of that call, in all of the run so far, is the one of
case `i`: its channel gave it a value, took its value, or completed it as closed because the
channel was closed or shutdown was requested.  No value went from the select to itself.  No
other memory is written for it, since every step that is not user code stores the values
that it logs as delivered. -/
theorem select_fires_one_case {backend : Backend} {s : Sys} (h : (runtime backend).Reach s)
    {k : CallId} {cases : List SelectCase} {i : Nat} {status : Option SelectStatus}
    (hret : Event.selectReturned k cases i status ∈ s.ch.log) (hi : i < cases.length)
    (hn : cases.length ≤ 2 ^ 32) :
    (∃ cs c, ∃ e : Effect, cases[i]? = some cs ∧ cs.channel = some c ∧
      s.ch.effectsOf k = [(⟨k, i⟩, e)] ∧ e.Fits c cs.op.direction cs.value ∧
      status = some e.status ∧
      ∀ flag, e = .closed c flag →
        if flag then (s.ch.chan c).closed = true else s.shutdownRequested = true) ∧
    (∀ c x r slot v, Event.handoff c x r slot v ∈ s.ch.log → ¬(x.call = k ∧ r.call = k)) ∧
    ∀ a s', step s a = .ok s' → (∀ θ dst bs, a ≠ .userWrite θ dst bs) →
      ∃ l, s'.ch.log = s.ch.log ++ l ∧ s'.ch.mem = l.foldl Event.write s.ch.mem := by
  have hfired : Fired s.ch k cases i status := by
    refine Machine.ReachVia.invariant
      (I := fun x => Event.selectReturned k cases i status ∈ x.ch.log →
        Fired x.ch k cases i status) ?_ ?_ h hret
    · intro x hx habs
      obtain ⟨wakeFd, workers, runCapacity, ioCapacity, _, _, rfl⟩ := hx
      exact absurd habs List.not_mem_nil
    · intro x a x' hreach hx _ hstep he
      rcases step_reports hreach hstep he rfl with hold | hr
      · obtain ⟨cs, c, e, hcs, hc, heff, hrest⟩ := hx hold
        have hk : k ∈ x.ch.returnedCalls := List.mem_filterMap.mpr ⟨_, hold, rfl⟩
        exact ⟨cs, c, e, hcs, hc, (effectsOf_returned hreach hstep hk).trans heff, hrest⟩
      · exact hr.fired_case hreach hi hn
  obtain ⟨cs, c, e, hcs, hc, heff, hfits, hstatus⟩ := hfired
  refine ⟨⟨cs, c, e, hcs, hc, heff, hfits, hstatus, ?_⟩, ?_, fun a s' => step_memory h⟩
  · rintro flag rfl
    refine closed_of_effect h (w := ⟨k, i⟩) ?_
    have hmem : (⟨k, i⟩, Effect.closed c flag) ∈ s.ch.effectsOf k := by rw [heff]; simp
    exact (Chans.mem_effectsOf.mp hmem).1
  · rintro c' x r slot v hhand ⟨hx, hr⟩
    have hmem : ∀ p ∈ Event.effects (.handoff c' x r slot v), p ∈ s.ch.effects :=
      fun p hp => List.mem_flatMap.mpr ⟨_, hhand, hp⟩
    have hsent : (x, Effect.sent c' v) ∈ s.ch.effectsOf k :=
      Chans.mem_effectsOf.mpr ⟨hmem _ (by simp [Event.effects]), hx⟩
    have hreceived : (r, Effect.received c' slot v) ∈ s.ch.effectsOf k :=
      Chans.mem_effectsOf.mpr ⟨hmem _ (by simp [Event.effects]), hr⟩
    rw [heff, List.mem_singleton, Prod.mk.injEq] at hsent hreceived
    exact absurd (hsent.2.trans hreceived.2.symm) (by simp)

/-- The main task selects on two channels, and a value is sent on the second. -/
def selectsReceives : List Action :=
  startUp 1 ++ dispatchOn 0 ++
    [.channelCreate (.external 0) 1 0 true, .channelCreate (.external 0) 1 0 true,
      .select (.worker 0) [⟨some 0, .recv, 0⟩, ⟨some 1, .recv, 1⟩] false ⟨1, 0, true, true⟩
        .calm] ++ handOver 0 ++ [.channelTrySend (.external 0) 1 2 .calm] ++ dispatchOn 0 ++
    [.callReturn 0]

theorem select_fires_selects_receives :
    ∃ s, (runtime .epoll).Reach s ∧
      Event.selectReturned 0 [⟨some 0, .recv, 0⟩, ⟨some 1, .recv, 1⟩] 1 (some .value) ∈ s.ch.log ∧
      ∃ e : Effect, s.ch.effectsOf 0 = [(⟨0, 1⟩, e)] ∧ e.Fits 1 .recv 1 := by
  have hreach : (runtime .epoll).Reach ((runtime .epoll).after (small 1) selectsReceives) :=
    Machine.reach_after (small_init 1 (by decide)) (by decide +kernel)
  have hret : Event.selectReturned 0 [⟨some 0, .recv, 0⟩, ⟨some 1, .recv, 1⟩] (1 : Nat)
      (some .value) ∈ ((runtime .epoll).after (small 1) selectsReceives).ch.log := by
    decide +kernel
  obtain ⟨⟨cs, c, e, hcs, hc, heff, hfits, _⟩, _⟩ :=
    select_fires_one_case hreach hret (by decide) (by decide)
  obtain rfl : _ = cs := Option.some.inj hcs
  obtain rfl : _ = c := Option.some.inj hc
  exact ⟨_, hreach, hret, e, heff, hfits⟩

/-- After a request of shutdown a select reports a channel as closed that is not. -/
theorem select_reports_open_closed :
    ∃ s, (runtime .epoll).Reach s ∧
      Event.selectReturned 0 [⟨some 0, .recv, 0⟩] 0 (some .closed) ∈ s.ch.log ∧
      (s.ch.chan 0).closed = false :=
  ⟨(runtime .epoll).after (small 1) [.runtimeInit, .requestShutdown (.external 0) .calm,
      .pollerWake (.external 0), .channelCreate (.external 0) 1 1 true,
      .select (.external 0) [⟨some 0, .recv, 0⟩] false ⟨1, 0, true, true⟩ .calm],
    Machine.reach_after (small_init 1 (by decide)) (by decide +kernel), by decide +kernel,
    by decide +kernel⟩

end Croutine
