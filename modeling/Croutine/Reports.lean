import Croutine.Calls
import Croutine.Effects

/-!
# How calls report their results

A call reports its result once, in the step in which it returns: at once after its attempt,
or when its task runs again after a park.  Between two reports the log only grows by
completed offers and wakes, and user memory changes as these events say.  `Report` lists the
ways in which a call reports, with what the reporting step knows about its outcome.
-/

namespace Croutine

/-- What an event stores in user memory: a delivered value. -/
def Event.write (m : Memory) : Event → Memory
  | .handoff _ _ _ slot v | .taken _ _ slot v => writeBytes m slot v
  | _ => m

namespace Chans

/-- Completed offers and wakes were logged, and user memory changed as they say. -/
def Grows (κ κ' : Chans) : Prop :=
  ∃ l, κ'.log = κ.log ++ l ∧ (∀ e ∈ l, e.returnedCall = none) ∧ κ'.mem = l.foldl Event.write κ.mem

namespace Grows

variable {κ κ' κ'' : Chans}

/-- The log and the memory are as they were. -/
theorem of_eq (hlog : κ'.log = κ.log) (hmem : κ'.mem = κ.mem) : κ.Grows κ' :=
  ⟨[], by rw [hlog, List.append_nil], by simp, hmem⟩

theorem trans (h : κ.Grows κ') (h' : κ'.Grows κ'') : κ.Grows κ'' := by
  obtain ⟨l, hlog, hall, hmem⟩ := h
  obtain ⟨l', hlog', hall', hmem'⟩ := h'
  refine ⟨l ++ l', by rw [hlog', hlog, List.append_assoc], fun e he => ?_, ?_⟩
  · rcases List.mem_append.mp he with he | he
    · exact hall e he
    · exact hall' e he
  · rw [hmem', hmem, List.foldl_append]

/-- Recording an event that reports nothing and writes nothing. -/
theorem record {e : Event} (he : e.returnedCall = none) (hwrite : e.write κ.mem = κ.mem) :
    κ.Grows (κ.record e) :=
  ⟨[e], rfl, by simpa using he, hwrite.symm⟩

/-- A report was in the log before. -/
theorem returned {e : Event} {k : CallId} (h : κ.Grows κ') (he : e ∈ κ'.log)
    (hk : e.returnedCall = some k) : e ∈ κ.log := by
  obtain ⟨l, hlog, hall, _⟩ := h
  rw [hlog] at he
  rcases List.mem_append.mp he with he | he
  · exact he
  · rw [hall e he] at hk
    exact absurd hk (by simp)

end Grows

/-- Ending a select writes no memory. -/
theorem markDone_mem (κ : Chans) (w : WaiterId) (status : SelectStatus) :
    (κ.markDone w status).mem = κ.mem := by
  unfold markDone
  split <;> rfl

end Chans

/-- A send attempt logs what it writes and reports nothing. -/
theorem TrySend.grows {o : Oracle} {s s' : Sys} {c : ChanId} {offer : WaiterId} {value : Addr}
    {r : SendResult} (h : TrySend o s c offer value s' r) : s.ch.Grows s'.ch := by
  cases h with
  | refused h => exact .record rfl rfl
  | handed hopen hrun hqueue hdead hlive hwake =>
      refine ⟨_, Chans.handedTo_log _ _ _, by simp [Event.returnedCall], ?_⟩
      exact Chans.markDone_mem _ _ _
  | buffered hopen hrun hdead hroom =>
      have hdrop : s.ch.Grows (s.ch.dropHeads c .recv (s.ch.queue c .recv) []) := .of_eq rfl rfl
      exact hdrop.trans (.record rfl rfl)
  | blocked hopen hrun hdead hfull => exact .of_eq rfl rfl

/-- A receive attempt logs what it writes and reports nothing. -/
theorem TryRecv.grows {o : Oracle} {s s' : Sys} {c : ChanId} {offer : WaiterId} {out : Addr}
    {r : RecvResult} (h : TryRecv o s c offer out s' r) : s.ch.Grows s'.ch := by
  have htook : ∀ v rest, s.ch.Grows (s.ch.tookBuffered c offer out v rest) :=
    fun v rest => ⟨[.taken c offer out v], rfl, by simp [Event.returnedCall], rfl⟩
  cases h with
  | taken hbuffer hskip => exact htook _ _
  | drained hbuffer hopen hdead => exact (htook _ _).trans (.of_eq rfl rfl)
  | refilled hbuffer hopen hroom hqueue hdead hlive hwake =>
      refine (htook _ _).trans ⟨_, Chans.bufferedFrom_log _ _, by simp [Event.returnedCall], ?_⟩
      exact Chans.markDone_mem _ _ _
  | direct hbuffer hqueue hdead hlive hwake =>
      refine ⟨_, Chans.takenFrom_log _ _ _, by simp [Event.returnedCall], ?_⟩
      exact Chans.markDone_mem _ _ _
  | refused hbuffer hdead h =>
      have hdrop : s.ch.Grows (s.ch.dropHeads c .send (s.ch.queue c .send) []) := .of_eq rfl rfl
      exact hdrop.trans (.record rfl rfl)
  | blocked hbuffer hdead hopen hrun => exact .of_eq rfl rfl

/-- The attempt of a case logs what it writes and reports nothing. -/
theorem TryCase.grows {o : Oracle} {s s' : Sys} {offer : WaiterId} {cs : SelectCase}
    {fired : Option SelectStatus} (h : TryCase o s offer cs s' fired) : s.ch.Grows s'.ch := by
  cases h with
  | untried huntried => exact .of_eq rfl rfl
  | send hchan hop h => exact h.grows
  | recv hchan hop h => exact h.grows

/-- One round of a close logs what it writes and reports nothing. -/
theorem CloseRound.grows {o : Oracle} {c : ChanId} {op : Direction} {w : WaiterId}
    {rest : List WaiterId} {s s' : Sys} (h : CloseRound o c op w rest s s') :
    s.ch.Grows s'.ch := by
  have hdrop : s.ch.Grows ((s.ch.dropHeads c op [w] rest).record
      (.closed c w (s.ch.chan c).closed)) :=
    ⟨[.closed c w (s.ch.chan c).closed], rfl, by simp [Event.returnedCall], rfl⟩
  cases h with
  | skipped hkind hskip => exact .of_eq rfl rfl
  | selected hkind hlive hwake =>
      exact hdrop.trans ⟨_, Chans.completed_log _, by simp [Event.returnedCall],
        Chans.markDone_mem _ _ _⟩
  | regular hkind hwake => exact hdrop.trans (.record rfl rfl)

/-- A close logs what it writes and reports nothing. -/
theorem channelCloseLocked_grows {o : Oracle} {s s' : Sys} {c : ChanId}
    (h : channelCloseLocked o s c = .ok s') : s.ch.Grows s'.ch := by
  have hdrain : ∀ {op : Direction} {x x' : Sys}, wakeAllAsClosedLocked o x c op = .ok x' →
      x.ch.Grows x'.ch := fun {op} {x} {_} hx =>
    wakeAllAsClosed_induct (I := fun _ y => x.ch.Grows y.ch)
      (fun _ _ _ _ hI hround => hI.trans hround.grows) _ (.of_eq rfl rfl) hx
  rcases channelCloseLocked_ok h with ⟨_, rfl⟩ | ⟨_, s1, hsend, hrecv⟩
  · exact .of_eq rfl rfl
  · have hmark : s.ch.Grows (s.ch.markClosed c) := .of_eq rfl rfl
    have hfirst := hdrain hsend
    exact (hmark.trans hfirst).trans (hdrain hrecv)

/-- The closes of a shutdown log what they write and report nothing. -/
theorem shutdownAll_grows {o : Oracle} {s s' : Sys}
    (h : croutineChannelShutdownAllLocked o s = .ok s') : s.ch.Grows s'.ch :=
  Res.foldlM_induct (I := fun x => s.ch.Grows x.ch)
    (fun _ _ _ hI hclose => hI.trans (channelCloseLocked_grows hclose)) _ (.of_eq rfl rfl) h

/-- Registering a select writes no memory. -/
theorem selectRegister_mem {t : TaskId} {k : CallId} :
    ∀ (cases : List SelectCase) (i : Nat) (κ : Chans),
      (selectRegister t k i cases κ).mem = κ.mem := by
  intro cases
  induction cases with
  | nil => intro i κ; rfl
  | cons cs rest ih =>
      intro i κ
      rw [selectRegister, ih]
      cases cs.channel <;> rfl

/-- Taking the waiters of a select out of their queues writes no memory. -/
theorem scrubSelectWaiters_mem (k : CallId) (n : Nat) (κ : Chans) :
    (scrubSelectWaiters k n κ).mem = κ.mem := by
  unfold scrubSelectWaiters
  generalize List.range n = l
  induction l generalizing κ with
  | nil => rfl
  | cons i rest ih =>
      rw [List.foldl_cons, ih]
      unfold scrubWaiter
      split <;> rfl

/-! ## Reports -/

/-- What `croutine_select` reports after the park returned `success`. -/
def selectReport (st : SelectState) (call : CallId) (cases : List SelectCase) (success : Bool) :
    Event :=
  if !success then .selectReturned call cases selectDefaultIndex none
  else if 0 ≤ st.chosenIndex ∧ st.chosenIndex < cases.length then
    .selectReturned call cases st.chosenIndex (some st.chosenStatus)
  else .selectReturned call cases st.chosenIndex none

/-- What a select that was parked reports is the return of its call. -/
theorem selectReport_eq (st : SelectState) (call : CallId) (cases : List SelectCase)
    (success : Bool) : ∃ index status,
      selectReport st call cases success = .selectReturned call cases index status := by
  unfold selectReport
  split
  · exact ⟨_, _, rfl⟩
  · split <;> exact ⟨_, _, rfl⟩

/-- The report of a select names its call. -/
theorem selectReport_returnedCall (st : SelectState) (call : CallId) (cases : List SelectCase)
    (success : Bool) : (selectReport st call cases success).returnedCall = some call := by
  obtain ⟨index, status, heq⟩ := selectReport_eq st call cases success
  rw [heq]
  rfl

/-- A select that was parked scrubs its waiters and reports what its state says. -/
theorem returnFromSelect_report {κ : Chans} (hlinked : κ.Linked) (call : CallId)
    (cases : List SelectCase) (success : Bool) : returnFromSelect κ call cases success =
      (scrubSelectWaiters call cases.length κ).record
        (selectReport (κ.select call) call cases success) := by
  have hscrub := (Scrubbed.scrubSelectWaiters hlinked call cases.length).1
  unfold returnFromSelect selectReport
  dsimp only
  rw [hscrub.only.select]
  split
  · rfl
  · split <;> rfl

/-- The result that a call reports in the step from `s` to `s'`. -/
inductive Report (s s' : Sys) : Event → Prop
  | send {o : Oracle} {c : ChanId} {value : Addr} {s1 : Sys} {r : SendResult}
      (htry : TrySend o s.ticked c ⟨s.ch.clock, 0⟩ value s1 r)
      (heff : ∀ j, s'.ch.effectsOf j = s1.ch.effectsOf j) :
      Report s s' (.sendReturned s.ch.clock c (if r = .ok then .ok else .closed))
  | recv {o : Oracle} {c : ChanId} {out : Addr} {s1 : Sys} {r : RecvResult}
      (htry : TryRecv o s.ticked c ⟨s.ch.clock, 0⟩ out s1 r)
      (heff : ∀ j, s'.ch.effectsOf j = s1.ch.effectsOf j) :
      Report s s' (.recvReturned s.ch.clock c r)
  | fired {o : Oracle} {cases : List SelectCase} {i : Nat} {cs : SelectCase} {s1 : Sys}
      {status : SelectStatus} (hi : i < 2 ^ 32) (hcs : cases[i]? = some cs)
      (htry : TryCase o s.ticked ⟨s.ch.clock, i⟩ cs s1 (some status))
      (heff : ∀ j, s'.ch.effectsOf j = s1.ch.effectsOf j) :
      Report s s' (.selectReturned s.ch.clock cases (toInt32 i) (some status))
  | default (cases : List SelectCase) :
      Report s s' (.selectReturned s.ch.clock cases selectDefaultIndex none)
  | single {w : WorkerId} {t : TaskId} {op : Direction} {call : CallId} {c : ChanId}
      {parked : Bool} (hpc : s.wk.pc w = .running t)
      (hframe : (s.tasks t).frame = .single op call c parked)
      (heff : ∀ j, s'.ch.effectsOf j = s.ch.effectsOf j) :
      Report s s' (singleReturned op call c (parked && (s.tasks t).channelWakeSuccess))
  | select {w : WorkerId} {t : TaskId} {call : CallId} {cases : List SelectCase} {parked : Bool}
      (hpc : s.wk.pc w = .running t) (hframe : (s.tasks t).frame = .select call cases parked)
      (heff : ∀ j, s'.ch.effectsOf j = s.ch.effectsOf j) :
      Report s s' (selectReport (s.ch.select call) call cases
        (parked && (s.tasks t).channelWakeSuccess))

/-- What a step adds to the log: completed offers and wakes, and then a report at most. -/
def Logged (s s' : Sys) : Prop :=
  ∃ κ, s.ch.Grows κ ∧ s'.ch.mem = κ.mem ∧
    (s'.ch.log = κ.log ∨ ∃ e, Report s s' e ∧ s'.ch.log = κ.log ++ [e])

/-- Growth is logged, with no report in it. -/
theorem Chans.Grows.logged {s s' : Sys} (h : s.ch.Grows s'.ch) : Logged s s' :=
  ⟨s'.ch, h, rfl, .inl rfl⟩

/-- A channel step writes memory by itself only as the user's own write. -/
theorem ChanStep.logged {P : List SelectCase → Prop} {s s' : Sys} {a : Action}
    (hwait : WaitInv s.ch s.tasks)
    (hrunning : ∀ w t, s.wk.pc w = .running t → (s.tasks t).state = .runnable)
    (hstep : ChanStep P s a s') :
    (∃ θ dst bs, a = .userWrite θ dst bs ∧ s'.ch = s.ch.copyValue dst bs) ∨ Logged s s' := by
  have htick : s.ch.Grows s.ticked.ch := .of_eq rfl rfl
  have hlinked : s.ticked.ch.Linked := hwait.ticked.linked
  cases hstep with
  | userWrite a bs => exact .inl ⟨_, _, _, rfl, rfl⟩
  | create hlock elemSize capacity allocOk =>
      refine .inr (Chans.Grows.logged ?_)
      unfold croutineChannelCreate
      split <;> exact .of_eq rfl rfl
  | destroy hlock hc =>
      refine .inr (Chans.Grows.logged ?_)
      unfold croutineChannelDestroy
      split <;> exact .of_eq rfl rfl
  | trySend hlock hc htry => exact .inr (htick.trans htry.grows).logged
  | sendReturn hlock hc htry htask =>
      exact .inr ⟨_, htick.trans htry.grows, rfl,
        .inr ⟨_, .send htry (Chans.record_effectsOf rfl), rfl⟩⟩
  | @sendPark hlock o c value s1 w t hc htry hpc hframe =>
      refine .inr ⟨s1.ch, htick.trans htry.grows, ?_, .inl ?_⟩ <;>
        rw [(parkOnChannel_eq htry.blocked_running).1] <;> rfl
  | tryRecv hlock hc htry => exact .inr (htick.trans htry.grows).logged
  | recvReturn hlock hc htry htask =>
      exact .inr ⟨_, htick.trans htry.grows, rfl,
        .inr ⟨_, .recv htry (Chans.record_effectsOf rfl), rfl⟩⟩
  | @recvPark hlock o c out s1 w t hc htry hpc hframe =>
      refine .inr ⟨s1.ch, htick.trans htry.grows, ?_, .inl ?_⟩ <;>
        rw [(parkOnChannel_eq htry.blocked_running).1] <;> rfl
  | close hlock hc hclose => exact .inr (channelCloseLocked_grows hclose).logged
  | @shutdown hlock a ha o θ s1 life hlife hclose =>
      have hgrows := shutdownAll_grows hclose
      exact .inr ⟨s1.ch, hgrows, rfl, .inl rfl⟩
  | selectEmpty hlock => exact .inr ⟨_, htick, rfl, .inr ⟨_, .default [], rfl⟩⟩
  | selectFired hlock hP hreg htry =>
      obtain ⟨cs, s1, gone, hi, hcs, hdead, hfires, rfl⟩ := selectTryCases_some hlinked htry
      have hcase := trySelectCaseLocked_ok hfires
      exact .inr ⟨_, htick.trans hcase.grows, rfl,
        .inr ⟨_, .fired (selectOrder_lt hi) hcs hcase (Chans.record_effectsOf rfl), rfl⟩⟩
  | selectDefault hlock hP hreg htry hwhy =>
      obtain ⟨gone, hdead, rfl, _⟩ := selectTryCases_none hlinked htry
      exact .inr ⟨_, htick, rfl, .inr ⟨_, .default _, rfl⟩⟩
  | @selectPark hlock hasDefault o choice cases s1 w t hP hreg htry hsome hpc hact =>
      obtain ⟨gone, hdead, rfl, _⟩ := selectTryCases_none hlinked htry
      refine .inr ⟨_, htick, ?_, .inl ?_⟩ <;> rw [workerParkCurrentOnChannelLocked_ch]
      · exact selectRegister_mem cases 0 _
      · exact (selectRegister_only cases 0 _).log
  | @returnSingle w t op call c parked hpc hframe hlock =>
      rw [hwait.returnFromSingle_eq (hrunning w t hpc) hframe]
      exact .inr ⟨s.ch, .of_eq rfl rfl, rfl, .inr ⟨_, .single hpc hframe
        (Chans.record_effectsOf (singleReturned_returnedCall _ _ _ _)), rfl⟩⟩
  | @returnSelect w t call cases parked hpc hframe hlock =>
      have hscrub := (Scrubbed.scrubSelectWaiters hwait.linked call cases.length).1
      rw [returnFromSelect_report hwait.linked]
      refine .inr ⟨_, .of_eq hscrub.only.log (scrubSelectWaiters_mem _ _ _), rfl,
        .inr ⟨_, .select hpc hframe fun j => ?_, rfl⟩⟩
      exact (Chans.record_effectsOf (selectReport_returnedCall _ _ _ _) j).trans
        (Chans.effectsOf_of_log hscrub.only.log j)

section Step

variable {backend : Backend} {allowed : Sys → Action → Prop} {s s' : Sys} {a : Action}

/-- A step writes memory by itself only as the user's own write, and logs the rest. -/
theorem step_logged (hreach : (runtime backend).ReachVia allowed s)
    (hstep : step s a = .ok s') :
    (∃ θ dst bs, a = .userWrite θ dst bs ∧ s'.ch = s.ch.copyValue dst bs) ∨ Logged s s' := by
  rcases step_chan hreach hstep with hc | hu
  · exact hc.logged (WaitInv.reach hreach) fun w t hpc => running_runnable hreach hpc
  · refine .inr (Chans.Grows.logged ?_)
    rw [hu.ch]
    exact .of_eq rfl rfl

/-- **Every result in the log** was there before the step or is reported by it. -/
theorem step_reports {e : Event} {k : CallId} (hreach : (runtime backend).ReachVia allowed s)
    (hstep : step s a = .ok s') (he : e ∈ s'.ch.log) (hk : e.returnedCall = some k) :
    e ∈ s.ch.log ∨ Report s s' e := by
  rcases step_logged hreach hstep with ⟨θ, dst, bs, _, hch⟩ | ⟨κ, hgrows, _, hlog⟩
  · rw [hch] at he
    exact .inl he
  · rcases hlog with hlog | ⟨r, hr, hlog⟩ <;> rw [hlog] at he
    · exact .inl (hgrows.returned he hk)
    · rcases List.mem_append.mp he with he | he
      · exact .inl (hgrows.returned he hk)
      · rw [List.mem_singleton.mp he]
        exact .inr hr

/-- The log only grows. -/
theorem step_log (hreach : (runtime backend).ReachVia allowed s) (hstep : step s a = .ok s') :
    ∃ l, s'.ch.log = s.ch.log ++ l := by
  rcases step_logged hreach hstep with ⟨θ, dst, bs, _, hch⟩ | ⟨κ, ⟨l, hl, _, _⟩, _, hlog⟩
  · exact ⟨[], by rw [hch, List.append_nil]; rfl⟩
  · rcases hlog with hlog | ⟨e, _, hlog⟩
    · exact ⟨l, by rw [hlog, hl]⟩
    · exact ⟨l ++ [e], by rw [hlog, hl, List.append_assoc]⟩

/-- **User memory is written by user code and by deliveries.**  Any other step stores
exactly the values that the events it logs deliver, in their slots. -/
theorem step_memory (hreach : (runtime backend).ReachVia allowed s)
    (hstep : step s a = .ok s') (ha : ∀ θ dst bs, a ≠ .userWrite θ dst bs) :
    ∃ l, s'.ch.log = s.ch.log ++ l ∧ s'.ch.mem = l.foldl Event.write s.ch.mem := by
  rcases step_logged hreach hstep with ⟨θ, dst, bs, h, _⟩ | ⟨κ, ⟨l, hl, _, hmem⟩, hmem', hlog⟩
  · exact absurd h (ha θ dst bs)
  · rcases hlog with hlog | ⟨r, hr, hlog⟩
    · exact ⟨l, by rw [hlog, hl], by rw [hmem', hmem]⟩
    · refine ⟨l ++ [r], by rw [hlog, hl, List.append_assoc], ?_⟩
      rw [hmem', hmem, List.foldl_append]
      cases hr with
      | send htry heff | recv htry heff | fired hi hcs htry heff | default cases => rfl
      | @single w t op call c parked hpc hframe heff => cases op <;> rfl
      | @select w t call cases parked hpc hframe heff =>
          obtain ⟨index, status, heq⟩ := selectReport_eq (s.ch.select call) call cases
            (parked && (s.tasks t).channelWakeSuccess)
          rw [heq]
          rfl

/-- The effects of a call that returned do not change. -/
theorem effectsOf_returned {k : CallId} (hreach : (runtime backend).ReachVia allowed s)
    (hstep : step s a = .ok s') (hk : k ∈ s.ch.returnedCalls) :
    s'.ch.effectsOf k = s.ch.effectsOf k := by
  have hcalls := CallInv.reach hreach
  rcases step_form hreach hstep with hc | hu
  · exact hc.frozen (WaitInv.reach hreach) (.inl (hcalls.returned.2 k hk)) fun t ht =>
      hcalls.inside t k ht hk
  · rw [hu.ch]

end Step

end Croutine
