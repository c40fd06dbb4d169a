import Croutine.Deliveries

/-!
# Blocking calls from their start to their return

A call that parks keeps its frame on the stack of its task until it reports its result.
`InCall` says where one call is: it has reported, and then everything it reported agrees
with its effects, or its task is still inside of it.  Every step keeps this, whatever it is
a step of, so it holds in every continuation of a run in which the call was made.
-/

namespace Croutine

section Step

variable {P : List SelectCase → Prop} {s s' : Sys} {t : TaskId} {k : CallId}

/-- A task stays in its call until the call reports. -/
theorem ChanForm.frame_or_returned (hform : ChanForm P s s')
    (hk : (s.tasks t).frame.call = some k) :
    (s'.tasks t).frame = (s.tasks t).frame ∨ k ∈ s'.ch.returnedCalls := by
  have hother : ∀ {tasks : TaskId → Task} {u : TaskId} {τ : Task}, (s.tasks u).frame = .user →
      (∀ v, (tasks v).frame = (s.tasks v).frame) →
      (Function.update tasks u τ t).frame = (s.tasks t).frame := by
    intro tasks u τ hu hframes
    have hne : t ≠ u := by
      rintro rfl
      rw [hu] at hk
      exact absurd hk (by simp [Frame.call])
    rw [Function.update_of_ne hne]
    exact hframes t
  -- a task that returns reports its call
  have hreturn : ∀ {u : TaskId} {j : CallId} {κ : Chans} {e : Event} {τ : Task},
      (s.tasks u).frame.call = some j → e.returnedCall = some j →
      (Function.update s.tasks u τ t).frame = (s.tasks t).frame ∨
        k ∈ (κ.record e).returnedCalls := by
    intro u j κ e τ hu he
    by_cases htu : t = u
    · rw [htu, hu] at hk
      cases hk
      rw [Chans.returnedCalls_record he]
      exact .inr (by simp)
    · rw [Function.update_of_ne htu]
      exact .inl rfl
  cases hform with
  | write a bs => exact .inl rfl
  | create elemSize capacity allocOk => exact .inl rfl
  | destroy hc => exact .inl rfl
  | attempt hreg htry hdead he => exact .inl (htry.moves.keeps.2.2.2 t)
  | parkSingle hc htry hpc hframe =>
      rw [(parkOnChannel_eq htry.runs_of_blocked).2]
      exact .inl (hother hframe htry.moves.keeps.2.2.2)
  | parkSelect hP hreg hsome hdead hall hpc hframe =>
      unfold workerParkCurrentOnChannelLocked
      split
      · exact .inl (hother hframe fun _ => rfl)
      · exact .inl (hother hframe fun _ => rfl)
  | close hc h => exact .inl ((channelCloseLocked_moves h).keeps.2.2.2 t)
  | shutdown h => exact .inl ((croutineChannelShutdownAllLocked_moves h).keeps.2.2.2 t)
  | returnSingle hpc hframe =>
      exact hreturn (by rw [hframe]; rfl) (singleReturned_returnedCall _ _ _ _)
  | returnSelect hpc hframe index status => exact hreturn (by rw [hframe]; rfl) rfl

/-- The value slot of a waiter is fixed when its call is made. -/
theorem ChanForm.valueSlot (hform : ChanForm P s s') (hwait : WaitInv s.ch s.tasks)
    {w : WaiterId} (hw : w.call ≠ s.ch.clock) :
    (s'.ch.waiter w).valueSlot = (s.ch.waiter w).valueSlot := by
  have hmoves : ∀ {x x' : Sys}, WaitMoves x x' →
      (x'.ch.waiter w).valueSlot = (x.ch.waiter w).valueSlot := by
    intro x x' h
    rcases h.waiter w with heq | heq <;> rw [heq]
  cases hform with
  | write a bs => rfl
  | create elemSize capacity allocOk =>
      unfold croutineChannelCreate
      split <;> rfl
  | destroy hc =>
      unfold croutineChannelDestroy
      split <;> rfl
  | attempt hreg htry hdead he =>
      have h1 := hmoves htry.moves
      exact Chans.without_valueSlot.trans h1
  | parkSingle hc htry hpc hframe =>
      rw [(parkOnChannel_eq htry.runs_of_blocked).1, Chans.waiter_park, Function.update_of_ne]
      · have h1 := hmoves htry.moves
        exact h1
      · rintro rfl
        exact hw rfl
  | parkSelect hP hreg hsome hdead hall hpc hframe =>
      rw [workerParkCurrentOnChannelLocked_ch]
      show ((selectRegister _ _ 0 _ _).waiter w).valueSlot = _
      rw [selectRegister_waiter_other hw]
      exact Chans.without_valueSlot
  | close hc h => exact hmoves (channelCloseLocked_moves h)
  | shutdown h =>
      have h1 := hmoves (croutineChannelShutdownAllLocked_moves h)
      exact h1
  | returnSingle hpc hframe => rfl
  | @returnSelect w' t call cases parked hpc hframe index status =>
      have hscrub := (Scrubbed.scrubSelectWaiters hwait.linked call cases.length).1
      show ((scrubSelectWaiters call cases.length s.ch).waiter w).valueSlot = _
      rcases hscrub.waiter w with heq | ⟨_, heq⟩ <;> rw [heq]

end Step

/-! ## Values

A value is read from the slot of the offer that sends it, at the moment at which it is
accepted.  A receive from a buffer can be followed by a second transfer in the same critical
section, so the memory that counts is the one that the events before have left.
-/

/-- Every value that the events send stood in a slot from which its offer sends on the
channel. -/
def Event.SentFrom (source : WaiterId → ChanId → Addr → Prop) (size : ChanId → Nat) :
    Memory → List Event → Prop
  | _, [] => True
  | m, e :: rest => (∀ w c v, (w, Effect.sent c v) ∈ e.effects →
      ∃ slot, source w c slot ∧ v = readBytes m slot (size c)) ∧
        SentFrom source size (e.write m) rest

section SentFrom

variable {source : WaiterId → ChanId → Addr → Prop} {size : ChanId → Nat}

/-- A send among the events reads memory as the events before it left it. -/
theorem Event.SentFrom.split : ∀ {m : Memory} {l : List Event}, SentFrom source size m l →
    ∀ {before after : List Event} {e : Event}, l = before ++ e :: after →
      ∀ {w c v}, (w, Effect.sent c v) ∈ e.effects →
        ∃ slot, source w c slot ∧ v = readBytes (before.foldl Event.write m) slot (size c) := by
  intro m l h before
  induction before generalizing m l with
  | nil =>
      rintro after e rfl w c v he
      exact h.1 w c v he
  | cons e' rest ih =>
      rintro after e rfl w c v he
      exact ih h.2 rfl he

/-- Events that send nothing ask for no source. -/
theorem Event.SentFrom.of_none : ∀ {m : Memory} {l : List Event},
    (∀ e ∈ l, ∀ w c v, (w, Effect.sent c v) ∉ e.effects) → SentFrom source size m l := by
  intro m l h
  induction l generalizing m with
  | nil => trivial
  | cons e rest ih =>
      refine ⟨fun w c v he => absurd he (h e List.mem_cons_self w c v), ih fun e' he' => ?_⟩
      exact h e' (List.mem_cons_of_mem _ he')

/-- Events that send nothing may follow. -/
theorem Event.SentFrom.append {l' : List Event}
    (hnone : ∀ e ∈ l', ∀ w c v, (w, Effect.sent c v) ∉ e.effects) :
    ∀ {m : Memory} {l : List Event}, SentFrom source size m l →
      SentFrom source size m (l ++ l') := by
  intro m l h
  induction l generalizing m with
  | nil => exact .of_none hnone
  | cons e rest ih => exact ⟨h.1, ih h.2⟩

end SentFrom

/-- Where a step that makes the offer `own` with the slot `value` finds the value of an
offer to send: in the slot of its own offer, or in the one of a waiter. -/
def Chans.Source (κ : Chans) (own : WaiterId) (value : Addr) (w : WaiterId) (c : ChanId)
    (slot : Addr) : Prop :=
  (w = own ∧ slot = value) ∨ (w ∈ κ.queue c .send ∧ slot = (κ.waiter w).valueSlot)

def Chans.Sends (own : WaiterId) (value : Addr) (κ κ' : Chans) : Prop :=
  ∃ l, κ'.log = κ.log ++ l ∧
    Event.SentFrom (κ.Source own value) (fun c => (κ.chan c).elemSize) κ.mem l

section Sends

variable {o : Oracle} {s s' : Sys} {c : ChanId} {own : WaiterId}

/-- Nothing was logged, so nothing was sent. -/
theorem Chans.Sends.of_log {κ κ' : Chans} {value : Addr} (h : κ'.log = κ.log) :
    κ.Sends own value κ' :=
  ⟨[], by rw [h, List.append_nil], trivial⟩

theorem Chans.Sends.refl (κ : Chans) {value : Addr} : κ.Sends own value κ :=
  .of_log rfl

/-- Logging events that send nothing. -/
theorem Chans.Sends.append {κ κ' κ'' : Chans} {value : Addr} {l : List Event}
    (h : κ.Sends own value κ') (hlog : κ''.log = κ'.log ++ l)
    (hnone : ∀ e ∈ l, ∀ w c v, (w, Effect.sent c v) ∉ e.effects) : κ.Sends own value κ'' := by
  obtain ⟨l', hl', hsent⟩ := h
  exact ⟨l' ++ l, by rw [hlog, hl', List.append_assoc], hsent.append hnone⟩

/-- Logging a report. -/
theorem Chans.Sends.returned {κ κ' κ'' : Chans} {value : Addr} {e : Event} {k : CallId}
    (h : κ.Sends own value κ') (hlog : κ''.log = κ'.log ++ [e]) (he : e.returnedCall = some k) :
    κ.Sends own value κ'' := by
  refine h.append hlog fun x hx w c v hw => ?_
  rw [List.mem_singleton.mp hx, Event.effects_of_returned he] at hw
  exact absurd hw List.not_mem_nil

/-- Nothing is sent when every new effect is of a closed channel. -/
theorem Chans.Grows.sends {κ κ' : Chans} {value : Addr} (h : κ.Grows κ')
    {l : List (WaiterId × Effect)} (heff : κ'.effects = κ.effects ++ l)
    (hclosed : ∀ p ∈ l, ∃ c flag, p.2 = .closed c flag) : κ.Sends own value κ' := by
  obtain ⟨l', hl', _, _⟩ := h
  refine Chans.Sends.append (.refl κ) hl' fun e he w c v hw => ?_
  rw [Chans.effects_append hl'] at heff
  obtain ⟨c', flag, habs⟩ := hclosed (w, .sent c v)
    (List.append_cancel_left heff ▸ List.mem_flatMap.mpr ⟨e, he, hw⟩)
  exact absurd habs (by simp)

/-- A send attempt sends from its own slot or from none. -/
theorem TrySend.sends {value : Addr} {r : SendResult} (h : TrySend o s c own value s' r) :
    s.ch.Sends own value s'.ch := by
  cases h with
  | refused h => exact ⟨[_], rfl, by simp [Event.SentFrom, Event.effects]⟩
  | handed hopen hrun hqueue hdead hlive hwake =>
      refine ⟨_, Chans.handedTo_log _ _ _, ?_⟩
      simp only [Event.SentFrom, Event.effects]
      simp +contextual [Chans.valueAt, Chans.Source]
  | buffered hopen hrun hdead hroom =>
      refine ⟨[.buffered c own (s.ch.valueAt c value)], rfl, ?_⟩
      simp only [Event.SentFrom, Event.effects]
      simp +contextual [Chans.valueAt, Chans.Source]
  | blocked hopen hrun hdead hfull => exact .of_log rfl

/-- A receive attempt sends from the slot of the sender it completes. -/
theorem TryRecv.sends {out : Addr} {r : RecvResult} (h : TryRecv o s c own out s' r) :
    s.ch.Sends own out s'.ch := by
  cases h with
  | taken hbuffer hskip => exact ⟨[_], rfl, by simp [Event.SentFrom, Event.effects]⟩
  | drained hbuffer hopen hdead => exact ⟨[_], rfl, by simp [Event.SentFrom, Event.effects]⟩
  | @refilled v rest hbuffer hopen hroom dead tail x hqueue hdead hlive s1 hwake =>
      have hsource : s.ch.Source own out x c (s.ch.waiter x).valueSlot :=
        .inr ⟨by rw [hqueue]; simp, rfl⟩
      refine ⟨_, (Chans.bufferedFrom_log _ _).trans (List.append_assoc _ _ _), ?_⟩
      simp only [List.cons_append, List.nil_append, Event.SentFrom, Event.effects, Event.write]
      simp +contextual [Chans.valueAt, Chans.tookBuffered, Chans.record, Chans.bufferPop,
        Chans.copyValue, Chans.setChan]
      exact fun _ _ _ _ _ _ => ⟨_, hsource, rfl⟩
  | @direct hbuffer dead tail x hqueue hdead hlive s1 hwake =>
      have hsource : s.ch.Source own out x c (s.ch.waiter x).valueSlot :=
        .inr ⟨by rw [hqueue]; simp, rfl⟩
      refine ⟨_, Chans.takenFrom_log _ _ _, ?_⟩
      simp only [Event.SentFrom, Event.effects]
      simp +contextual [Chans.valueAt]
      exact fun _ _ _ _ _ _ => ⟨_, hsource, rfl⟩
  | refused hbuffer hdead h => exact ⟨[_], rfl, by simp [Event.SentFrom, Event.effects]⟩
  | blocked hbuffer hdead hopen hrun => exact .of_log rfl

/-- The attempt of a case sends from its own slot or from the one of the sender it completes.
-/
theorem TryCase.sends {cs : SelectCase} {fired : Option SelectStatus}
    (h : TryCase o s own cs s' fired) : s.ch.Sends own cs.value s'.ch := by
  cases h with
  | untried huntried => exact .of_log rfl
  | send hchan hop h => exact h.sends
  | recv hchan hop h => exact h.sends

/-- **Sources, step.** What a channel step sends stood in the slot of its own offer or of a
waiter. -/
theorem ChanForm.sends {P : List SelectCase → Prop} (hform : ChanForm P s s')
    (hwait : WaitInv s.ch s.tasks) :
    ∃ own value, own.call = s.ch.clock ∧ s.ch.Sends own value s'.ch := by
  have hsame : s'.ch.log = s.ch.log →
      ∃ own value, own.call = s.ch.clock ∧ s.ch.Sends own value s'.ch :=
    fun h => ⟨⟨s.ch.clock, 0⟩, 0, rfl, .of_log h⟩
  have hreturn : ∀ {e : Event} {k : CallId}, s'.ch.log = s.ch.log ++ [e] →
      e.returnedCall = some k →
      ∃ own value, own.call = s.ch.clock ∧ s.ch.Sends own value s'.ch := by
    intro e k hlog he
    exact ⟨⟨s.ch.clock, 0⟩, 0, rfl, .returned (.refl s.ch) hlog he⟩
  cases hform with
  | write a bs => exact hsame rfl
  | create elemSize capacity allocOk =>
      refine hsame ?_
      unfold croutineChannelCreate
      split <;> rfl
  | destroy hc =>
      refine hsame ?_
      unfold croutineChannelDestroy
      split <;> rfl
  | @attempt o i cs s1 fired hreg htry gone hdead e he =>
      have hlog : ((s1.ch.without gone).report e).log = s1.ch.log ++ e.toList := rfl
      refine ⟨_, _, rfl, htry.sends.append hlog fun x hx => ?_⟩
      rw [Event.effects_of_returned (he x (Option.mem_toList.mp hx))]
      simp
  | parkSingle hc htry hpc hframe => exact hsame (parkOnChannel_log htry)
  | parkSelect hP hreg hsome hdead hall hpc hframe =>
      refine hsame ?_
      rw [workerParkCurrentOnChannelLocked_ch]
      exact parkSelect_log _
  | close hc h =>
      obtain ⟨l, hl, hall⟩ := channelCloseLocked_effects h
      exact ⟨⟨s.ch.clock, 0⟩, 0, rfl, (channelCloseLocked_grows h).sends hl
        fun p hp => ⟨_, _, hall p hp⟩⟩
  | @shutdown o θ s1 life h =>
      obtain ⟨l, hl, hall⟩ := shutdownAll_effects h
      exact ⟨⟨s.ch.clock, 0⟩, 0, rfl, (shutdownAll_grows h).sends hl
        fun p hp => (hall p hp).imp fun c hc => ⟨true, hc.1⟩⟩
  | @returnSingle w t op call c parked hpc hframe =>
      exact hreturn rfl (singleReturned_returnedCall _ _ _ _)
  | @returnSelect w t call cases parked hpc hframe index status =>
      have hscrub := (Scrubbed.scrubSelectWaiters hwait.linked call cases.length).1
      exact hreturn (congrArg (· ++ [_]) hscrub.only.log) rfl

end Sends

/-! ## One call -/

/-- The call `k` has reported, and what it reported is true of its effects, or its task is
inside of it, with the frame that the call put on its stack and the value slot it was given. -/
structure InCall (k : CallId) (slot : Addr) (frame : Bool → Frame)
    (truth : Event → List (WaiterId × Effect) → Prop) (s : Sys) : Prop where
  made : k < s.ch.clock
  reported : ∀ e ∈ s.ch.log, e.returnedCall = some k → truth e (s.ch.effectsOf k)
  inside : k ∈ s.ch.returnedCalls ∨
    ∃ t p, (s.tasks t).frame = frame p ∧ (s.ch.waiter ⟨k, 0⟩).valueSlot = slot

section InCall

variable {backend : Backend} {allowed : Sys → Action → Prop} {s s' : Sys} {a : Action}
  {k : CallId} {slot : Addr} {frame : Bool → Frame}
  {truth : Event → List (WaiterId × Effect) → Prop}

/-- The next call has not reported. -/
theorem not_returned_fresh (hreach : (runtime backend).ReachVia allowed s) :
    ∀ e ∈ s.ch.log, e.returnedCall ≠ some s.ch.clock := by
  intro e he hk
  have hlt := (CallInv.reach hreach).returned.2 _ (List.mem_filterMap.mpr ⟨e, he, hk⟩)
  exact Nat.lt_irrefl _ hlt

/-- A call that was made earlier reports from the frame of a task. -/
theorem Report.inside {e : Event} (hr : Report s s' e) (hk : e.returnedCall = some k)
    (hmade : k < s.ch.clock) : ∃ t, (s.tasks t).frame.call = some k := by
  have hnew : some s.ch.clock = some k → False := by
    intro hj
    exact Nat.lt_irrefl _ (Option.some.inj hj ▸ hmade)
  cases hr with
  | send htry heff | recv htry heff | fired hi hcs htry heff | default cases => exact (hnew hk).elim
  | @single w t op call c parked hpc hframe heff =>
      rw [singleReturned_returnedCall] at hk
      cases hk
      exact ⟨t, by rw [hframe]; rfl⟩
  | @select w t call cases parked hpc hframe heff =>
      rw [selectReport_returnedCall] at hk
      cases hk
      exact ⟨t, by rw [hframe]; rfl⟩

/-- Every step keeps `InCall` when a call that reports tells the truth. -/
theorem InCall.step (hreach : (runtime backend).ReachVia allowed s)
    (h : InCall k slot frame truth s) (hframe : ∀ p, (frame p).call = some k)
    (htruth : ∀ t p e, (s.tasks t).frame = frame p → (s.ch.waiter ⟨k, 0⟩).valueSlot = slot →
      Report s s' e → e.returnedCall = some k → truth e (s'.ch.effectsOf k))
    (hstep : Croutine.step s a = .ok s') : InCall k slot frame truth s' := by
  have hwait := WaitInv.reach hreach
  obtain ⟨l, hlog⟩ := step_log hreach hstep
  have hgrows : ∀ {j : CallId}, j ∈ s.ch.returnedCalls → j ∈ s'.ch.returnedCalls := by
    intro j hj
    unfold Chans.returnedCalls
    rw [hlog, List.filterMap_append]
    exact List.mem_append_left _ hj
  have hreported : ∀ e ∈ s'.ch.log, e.returnedCall = some k → truth e (s'.ch.effectsOf k) := by
    intro e he hk
    rcases step_reports hreach hstep he hk with hold | hr
    · have hmem : k ∈ s.ch.returnedCalls := List.mem_filterMap.mpr ⟨e, hold, hk⟩
      rw [effectsOf_returned hreach hstep hmem]
      exact h.reported e hold hk
    · obtain ⟨t, hcall⟩ := hr.inside hk h.made
      rcases h.inside with hmem | ⟨u, p, hu, hslot⟩
      · exact absurd hmem ((CallInv.reach hreach).inside t k hcall)
      · exact htruth u p e hu hslot hr hk
  rcases step_form hreach hstep with hc | hu
  · refine ⟨Nat.lt_of_lt_of_le h.made (hc.clock hwait), hreported, ?_⟩
    rcases h.inside with hmem | ⟨t, p, ht, hslot⟩
    · exact .inl (hgrows hmem)
    · rcases hc.frame_or_returned (t := t) (k := k) (by rw [ht]; exact hframe p) with heq | hmem
      · refine .inr ⟨t, p, heq.trans ht, ?_⟩
        rw [hc.valueSlot hwait (Nat.ne_of_lt h.made)]
        exact hslot
      · exact .inl hmem
  · refine ⟨by rw [hu.ch]; exact h.made, hreported, ?_⟩
    rcases h.inside with hmem | ⟨t, p, ht, hslot⟩
    · exact .inl (hgrows hmem)
    · refine .inr ⟨t, p, ?_, by rw [hu.ch]; exact hslot⟩
      rw [hu.tasks.call_of_frame (t := t) (k := k) (by rw [ht]; exact hframe p)]
      exact ht

end InCall

/-! ## Blocking sends and receives -/

section Blocking

variable {backend : Backend} {allowed : Sys → Action → Prop} {s s' : Sys} {op : Direction}
  {w : WorkerId} {c : ChanId} {slot : Addr} {o : Oracle}

/-- What the task reports when it comes back from the channel call it is in. -/
def Sys.reportOf (s : Sys) (t : TaskId) : Option Event :=
  let success := (s.tasks t).channelWakeSuccess
  match (s.tasks t).frame with
  | .single op k c parked => some (singleReturned op k c (parked && success))
  | .select k cases parked => some (selectReport (s.ch.select k) k cases (parked && success))
  | .user | .ioWait => none

/-- Only the return of its task reports a call that is under way. -/
theorem Report.of_inside {k : CallId} {t : TaskId} {e : Event} (hr : Report s s' e)
    (hwait : WaitInv s.ch s.tasks) (hk : e.returnedCall = some k)
    (ht : (s.tasks t).frame.call = some k) :
    ∃ w, s.wk.pc w = .running t ∧ s.reportOf t = some e ∧
      ∀ j, s'.ch.effectsOf j = s.ch.effectsOf j := by
  cases hr with
  | send htry heff | recv htry heff | fired hi hcs htry heff | default cases =>
      exact absurd (hwait.calls t k ht) (Option.some.inj hk ▸ Nat.lt_irrefl _)
  | @single w u op call c parked hpc hframe heff =>
      rw [singleReturned_returnedCall, ← ht] at hk
      obtain rfl : u = t := hwait.unique u t call (by rw [hframe]; rfl) hk.symm
      exact ⟨w, hpc, by rw [Sys.reportOf, hframe], heff⟩
  | @select w u call cases parked hpc hframe heff =>
      rw [selectReport_returnedCall, ← ht] at hk
      obtain rfl : u = t := hwait.unique u t call (by rw [hframe]; rfl) hk.symm
      exact ⟨w, hpc, by rw [Sys.reportOf, hframe], heff⟩

end Blocking

/-- The main task has an unbuffered channel and is about to use it. -/
def aboutToBlock : Sys :=
  (runtime .epoll).after (small 1)
    (startUp 1 ++ dispatchOn 0 ++ [.channelCreate (.external 0) 1 0 true])

/-- The report of a select names a case with a channel, and is true of the one effect of the
call. -/
def ReportsCase (k : CallId) (cases : List SelectCase) (e : Event)
    (effects : List (WaiterId × Effect)) : Prop :=
  ∃ (i : Nat) (cs : SelectCase) (c : ChanId) (x : Effect), cases[i]? = some cs ∧
    cs.channel = some c ∧ effects = [(⟨k, i⟩, x)] ∧ x.Fits c cs.op.direction cs.value ∧
    e = .selectReturned k cases i (some x.status)

section Select

variable {backend : Backend} {allowed : Sys → Action → Prop} {s s' : Sys}

/-- The index of a case is an `int`. -/
theorem lt_of_case {cases : List SelectCase} {i : Nat} {cs : SelectCase}
    (hcs : cases[i]? = some cs) (hn : cases.length < 2 ^ 31) : i < 2 ^ 31 :=
  Nat.lt_trans (List.getElem?_eq_some_iff.mp hcs).1 hn

/-- A select that was parked reports the case that fired. -/
theorem Report.reportsCase {k : CallId} {cases : List SelectCase} {t : TaskId} {p : Bool}
    {e : Event} (hreach : (runtime backend).ReachVia allowed s) (hr : Report s s' e)
    (hk : e.returnedCall = some k) (ht : (s.tasks t).frame = .select k cases p)
    (hn : cases.length < 2 ^ 31) (hops : ∀ cs ∈ cases, cs.op ≠ .other) :
    ReportsCase k cases e (s'.ch.effectsOf k) := by
  obtain ⟨w, hpc, hreport, heff⟩ := hr.of_inside (WaitInv.reach hreach) hk (by rw [ht]; rfl)
  have hlen := Nat.le_trans (Nat.le_of_lt hn) (by decide : 2 ^ 31 ≤ 2 ^ 32)
  obtain rfl := (OpenInv.reach hreach).select_parked ht (triesAll_of_ops hlen hops)
  obtain ⟨hsuccess, i, cs, c, x, hcs, hc, hold, hfits, hsel⟩ := select_fired hreach hpc ht hlen
  refine ⟨i, cs, c, x, hcs, hc, (heff _).trans hold, hfits, ?_⟩
  have hrange : 0 ≤ ((i : Nat) : Int) ∧ ((i : Nat) : Int) < cases.length :=
    ⟨Int.natCast_nonneg i, by exact_mod_cast (List.getElem?_eq_some_iff.mp hcs).1⟩
  rw [Sys.reportOf, ht] at hreport
  rw [← Option.some.inj hreport, hsuccess, hsel, toInt32_of_lt (lt_of_case hcs hn)]
  unfold selectReport
  simp only [Bool.and_self, Bool.not_true, Bool.false_eq_true, if_false, if_pos hrange]

/-- A select without a default arm that could allocate fires a case or parks. -/
theorem select_starts (hreach : (runtime backend).ReachVia allowed s) {w : WorkerId}
    {cases : List SelectCase} {choice : SelectChoice} {o : Oracle}
    (hn : cases.length < 2 ^ 31) (hsome : ∃ cs ∈ cases, cs.channel ≠ none)
    (halloc : choice.waitersOk = true)
    (hstep : step s (.select (.worker w) cases false choice o) = .ok s') :
    InCall s.ch.clock (s'.ch.waiter ⟨s.ch.clock, 0⟩).valueSlot (.select s.ch.clock cases)
      (ReportsCase s.ch.clock cases) s' := by
  have hwait := WaitInv.reach hreach
  have hlinked : s.ticked.ch.Linked := hwait.ticked.linked
  have hnone : s.ticked.ch.effectsOf s.ch.clock = [] :=
    effectsOf_fresh (s := s) hreach (Nat.le_refl _)
  have hfresh := not_returned_fresh hreach
  rcases step_kind hstep with h | h
  · cases h with
    | shutdown hlock ha hlife h => exact absurd ha Bool.false_ne_true
    | selectEmpty hlock =>
        obtain ⟨cs, hcs, _⟩ := hsome
        exact absurd hcs List.not_mem_nil
    | @selectFired hlock θ hasDefault o choice cases s1 i status hP hreg h =>
        obtain ⟨cs, s2, gone, _, hcs, hdead, hfires, rfl⟩ := selectTryCases_some hlinked h
        have htry := trySelectCaseLocked_ok hfires
        obtain ⟨c, x, hc, hstatus, hfits, _, hown⟩ := htry.own hwait.queue_fresh
        refine ⟨htry.moves.keeps.2.2.1, ?_, .inl ?_⟩
        · intro e he hk
          rcases List.mem_append.mp he with he | he
          · exact absurd hk (hfresh e (htry.grows.returned he hk))
          · obtain rfl := List.mem_singleton.mp he
            refine ⟨i, cs, c, x, hcs, hc, ?_, hfits, ?_⟩
            · rw [Chans.record_effectsOf rfl]
              exact hown.trans (congrArg (· ++ _) hnone)
            · rw [toInt32_of_lt (lt_of_case hcs hn), hstatus]
        · rw [Chans.returnedCalls_record (k := s.ch.clock) rfl]
          exact List.mem_append_right _ (List.mem_singleton.mpr rfl)
    | selectDefault hlock hP hreg h hwhy =>
        rcases hwhy w rfl with habs | ⟨_, habs⟩ | habs
        · exact absurd habs (by simp)
        · rw [halloc] at habs
          exact absurd habs (by simp)
        · obtain ⟨cs, hcs, hchan⟩ := hsome
          exact absurd (habs cs hcs) hchan
    | @selectPark hlock hasDefault o choice cases s1 w t hP hreg h hsome hpc hact =>
        obtain ⟨gone, hdead, rfl, _⟩ := selectTryCases_none hlinked h
        have hlog := @parkSelect_log s.ch gone t s.ch.clock cases
        refine ⟨?_, ?_, .inr ⟨t, ?_⟩⟩
        · rw [workerParkCurrentOnChannelLocked_ch]
          dsimp only
          rw [(selectRegister_only cases 0 _).clock]
          exact Nat.lt_succ_self s.ch.clock
        · intro e he hk
          rw [workerParkCurrentOnChannelLocked_ch] at he
          exact absurd hk (hfresh e (hlog ▸ he))
        · obtain ⟨p, hp⟩ := workerParkCurrentOnChannelLocked_frame _ w t _
          exact ⟨p, hp, rfl⟩
  · cases h

end Select

/-- **A parking select returns a case.**  A select of fewer than `2 ^ 31` sends and receives
that a task calls without a default arm, with a channel in some case and the memory it asks
for, returns the index of a case that has a channel, with the status of the effect that this
case had.  More generally a select that is resumed was woken with success, and a send or
receive that is resumed has no waiter in a queue. -/
theorem select_returns_case {backend : Backend} {s s1 s2 : Sys} (h : (runtime backend).Reach s)
    {w : WorkerId} {cases : List SelectCase} {choice : SelectChoice} {o : Oracle}
    (hn : cases.length < 2 ^ 31) (hops : ∀ cs ∈ cases, cs.op ≠ .other)
    (hsome : ∃ cs ∈ cases, cs.channel ≠ none) (halloc : choice.waitersOk = true)
    (hcall : step s (.select (.worker w) cases false choice o) = .ok s1) {l : List Action}
    (hrun : (runtime backend).run s1 l = .ok s2) :
    (∀ e ∈ s2.ch.log, e.returnedCall = some s.ch.clock →
      ReportsCase s.ch.clock cases e (s2.ch.effectsOf s.ch.clock)) ∧
    (∀ v t k cases' p, s2.wk.pc v = .running t → (s2.tasks t).frame = .select k cases' p →
      cases'.length < 2 ^ 31 → (∀ cs ∈ cases', cs.op ≠ .other) →
        (p && (s2.tasks t).channelWakeSuccess) = true) ∧
    ∀ v t op k c p, s2.wk.pc v = .running t → (s2.tasks t).frame = .single op k c p →
      (s2.ch.waiter ⟨k, 0⟩).channel = none := by
  have hreach1 : (runtime backend).Reach s1 :=
    .step (a := .select (.worker w) cases false choice o) h trivial hcall
  obtain ⟨hreach2, hin⟩ := Machine.ReachVia.run_invariant
    (I := InCall s.ch.clock (s1.ch.waiter ⟨s.ch.clock, 0⟩).valueSlot (.select s.ch.clock cases)
      (ReportsCase s.ch.clock cases))
    (fun x a x' hreach hx _ hstep => hx.step hreach (fun _ => rfl)
      (fun t p e ht _ hr hk => hr.reportsCase hreach hk ht hn hops) hstep)
    l hreach1 (select_starts h hn hsome halloc hcall) (fun _ _ _ => trivial) hrun
  refine ⟨hin.reported, ?_, ?_⟩
  · intro v t k cases' p hpc hframe hlen hops'
    have hlen := Nat.le_trans (Nat.le_of_lt hlen) (by decide : 2 ^ 31 ≤ 2 ^ 32)
    obtain rfl := (OpenInv.reach hreach2).select_parked hframe (triesAll_of_ops hlen hops')
    exact (select_fired hreach2 hpc hframe hlen).1
  · intro v t op k c p hpc hframe
    by_contra hlinked
    have hwaits := (WaitInv.reach hreach2).single t op k c p hframe hlinked
    rw [running_runnable hreach2 hpc] at hwaits
    exact absurd hwaits (by simp)

/-- The task that called is parked, another thread receives, and the call returns. -/
def servedByReceive : List Action :=
  handOver 0 ++ [.channelTryRecv (.external 0) 0 2 .calm] ++ dispatchOn 0 ++ [.callReturn 0]

theorem select_returns_served : ∃ s s1 s2 : Sys, (runtime .epoll).Reach s ∧
    step s (.select (.worker 0) [⟨none, .recv, 3⟩, ⟨some 0, .send, 5⟩] false ⟨1, 0, true, true⟩
      .calm) = .ok s1 ∧ (runtime .epoll).run s1 servedByReceive = .ok s2 ∧
    (s2.tasks 0).frame = .user ∧ ∃ e ∈ s2.ch.log, e.returnedCall = some 0 ∧
      ReportsCase 0 [⟨none, .recv, 3⟩, ⟨some 0, .send, 5⟩] e (s2.ch.effectsOf 0) := by
  have hreach : (runtime .epoll).Reach aboutToBlock :=
    Machine.reach_after (small_init 1 (by decide)) (by decide +kernel)
  have hclock : aboutToBlock.ch.clock = 0 := by decide +kernel
  have hcall := Machine.step_eq_after (M := runtime .epoll) (s := aboutToBlock)
    (a := .select (.worker 0) [⟨none, .recv, 3⟩, ⟨some 0, .send, 5⟩] false ⟨1, 0, true, true⟩ .calm)
    (by decide +kernel)
  have hrun := Machine.run_eq_after (M := runtime .epoll)
    (s := (runtime .epoll).after aboutToBlock [.select (.worker 0) [⟨none, .recv, 3⟩,
      ⟨some 0, .send, 5⟩] false ⟨1, 0, true, true⟩ .calm])
    (l := servedByReceive) (by decide +kernel)
  obtain ⟨htruth, _⟩ := select_returns_case hreach (by decide) (by decide) (by decide) rfl hcall
    hrun
  rw [hclock] at htruth
  exact ⟨_, _, _, hreach, hcall, hrun, by decide +kernel, _,
    (by decide +kernel : Event.selectReturned 0 [⟨none, .recv, 3⟩, ⟨some 0, .send, 5⟩] 1
      (some .sent) ∈ _), rfl, htruth _ (by decide +kernel) rfl⟩

end Croutine
