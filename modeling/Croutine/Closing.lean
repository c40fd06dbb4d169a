import Croutine.Flow
import Croutine.Results
import Croutine.WideSelect

/-!
# After a close

Closing a channel and requesting shutdown complete waiters as closed and do nothing else to
the channels.  What the calls that were completed find out follows from `Told`: a task that
was asleep had no effect before, and has one of a closed channel now.

In runs whose selects fit nobody waits on a closed channel to send or to receive, so its
buffer can only be taken out, in order, and a receive that reports a closed channel has
found the buffer empty.
-/

namespace Croutine

theorem Event.effects_of_sentOn {e : Event} {c : ChanId} {w : WaiterId} {v : Bytes}
    (h : e.sentOn c = some (w, v)) : (w, Effect.sent c v) ∈ e.effects := by
  cases e with
  | handoff c' sender receiver slot v' | buffered c' sender v' =>
      simp only [sentOn] at h
      split at h
      · cases h
        simp_all [effects]
      · exact absurd h (by simp)
  | _ => simp [sentOn] at h

theorem TaskInv.hasStack_of_waiting {s : Sys} (h : TaskInv s) {t : TaskId}
    (ht : (s.tasks t).state = .waitingChannel) : (s.tasks t).hasStack = true := by
  obtain ⟨loc, hloc⟩ := h.placed
  have hat := hloc.taskAt t
  cases hl : loc t with
  | unborn =>
      rw [hl] at hat
      rw [hat.1] at ht
      exact absurd ht (by simp)
  | freed =>
      rw [hl] at hat
      rw [hat.1] at ht
      exact absurd ht (by simp)
  | spawning => rw [hl] at hat; exact hat.2.2.1.hasStack
  | exec w => rw [hl] at hat; exact hat.2.1.hasStack
  | queue | io | channel => rw [hl] at hat; exact hat.2.1.hasStack

/-- Channel operations free no stack. -/
theorem Wakes.hasStack {s s' : Sys} (h : Wakes s s') (t : TaskId) :
    (s'.tasks t).hasStack = (s.tasks t).hasStack := by
  refine Wakes.invariant (I := fun x => (x.tasks t).hasStack = (s.tasks t).hasStack)
    (fun _ _ hx => hx) ?_ h rfl
  intro o x u success x' hx hwake
  obtain ⟨_, cap, _, rfl⟩ := workerWakeTaskLocked_some hwake
  by_cases htu : t = u
  · subst htu
    simpa [Task.requeued] using hx
  · simpa [htu] using hx

/-- A wake makes the task runnable and is logged with its call. -/
theorem WaitMoves.woke {s s' : Sys} (h : WaitMoves s s') (hwait : WaitInv s.ch s.tasks)
    {t : TaskId} {k : CallId} (ht : (s.tasks t).state = .waitingChannel)
    (hk : (s.tasks t).frame.call = some k) : (s'.tasks t).state = .waitingChannel ∨
      (s'.tasks t).state = .runnable ∧ k ∈ s'.ch.wokenCalls := by
  refine (WaitMoves.invariant (I := fun x => WaitInv x.ch x.tasks ∧
    (x.tasks t).frame.call = some k ∧ ((x.tasks t).state = .waitingChannel ∨
      (x.tasks t).state = .runnable ∧ k ∈ x.ch.wokenCalls)) h ?_ ⟨hwait, hk, .inl ht⟩).2.2
  intro x x' ⟨hw, hcall, hx⟩ hmove
  refine ⟨hw.move hmove, ?_⟩
  cases hmove with
  | quiet hsame => exact ⟨hcall, by rw [hsame.woken]; exact hx⟩
  | dead hqueue hdead => exact ⟨hcall, hx⟩
  | @wake o c op w rest success status s1 hqueue hlive hwake =>
      have hlink := hw.linked_head hqueue
      obtain ⟨hstate, cap, _, rfl⟩ := workerWakeTaskLocked_some hwake
      have hwoken : (x.ch.popWoken c op w rest success status).wokenCalls =
          x.ch.wokenCalls ++ [w.call] := Chans.wokenCalls_popWoken
      by_cases htw : t = (x.ch.waiter w).task
      · subst htw
        obtain rfl : w.call = k := Option.some.inj ((hw.owner_call hlink).symm.trans hcall)
        refine ⟨?_, .inr ⟨?_, ?_⟩⟩
        · simpa [Task.requeued] using hcall
        · simp [Task.requeued]
        · rw [hwoken]
          simp
      · rw [hwoken]
        simp only [Function.update_of_ne htw]
        exact ⟨hcall, hx.imp_right fun hr => ⟨hr.1, List.mem_append_left _ hr.2⟩⟩

/-- A move of waiters wakes the task of a live waiter, which slept, or leaves the waiter, its
select and its task as they are. -/
theorem WaitMove.waited_or_same {s s' : Sys} (h : WaitMove s s') (hwait : WaitInv s.ch s.tasks)
    {w : WaiterId} (hlink : (s.ch.waiter w).channel ≠ none) (hlive : s.ch.live w = true) :
    (s.tasks (s.ch.waiter w).task).state = .waitingChannel ∨
      s'.ch.waiter w = s.ch.waiter w ∧ s'.ch.live w = true ∧
        s'.tasks (s.ch.waiter w).task = s.tasks (s.ch.waiter w).task := by
  cases h with
  | quiet hsame =>
      refine .inr ⟨by rw [hsame.waiter], ?_, rfl⟩
      rwa [Chans.live_congr (κ := s.ch) (by rw [hsame.waiter]) (by rw [hsame.waiter])
        fun k _ => by rw [hsame.select]]
  | @dead c op v rest hqueue hdead =>
      have hne : w ≠ v := by
        rintro rfl
        have hstate := hwait.state_eq hlink hdead.1
        simp [Chans.live, hdead.1, hstate, hdead.2 _ hstate] at hlive
      refine .inr ⟨?_, by rw [Chans.dropHeads_live]; exact hlive, rfl⟩
      rw [Chans.waiter_dropHeads, if_neg (by simpa using hne)]
  | @wake o c op v rest success status s1 hqueue hvlive hwake =>
      have hwoke := workerWakeTaskLocked_task hwake
      have hvlink := hwait.linked_head hqueue
      by_cases htask : (s.ch.waiter w).task = (s.ch.waiter v).task
      · exact .inl (htask ▸ hwoke.waited)
      · have hwaiter : (s.ch.popWoken c op v rest success status).waiter w = s.ch.waiter w := by
          rw [Chans.waiter_popWoken, if_neg]
          rintro rfl
          exact htask rfl
        refine .inr ⟨hwaiter, ?_, hwoke.other _ htask⟩
        cases hkind : (s.ch.waiter w).kind with
        | regular => exact Chans.live_of_regular (by rw [hwaiter]; exact hkind)
        | select =>
            refine (Chans.live_congr (by rw [hwaiter]) (by rw [hwaiter]) fun k hk => ?_).trans hlive
            -- the two selects are calls of different tasks
            refine Chans.select_popWoken_of_ne fun hvkind hvstate => htask ?_
            have hcall : v.call = w.call := Option.some.inj
              (((hwait.state_eq hvlink hvkind).symm.trans hvstate).trans
                (hk.symm.trans (hwait.state_eq hlink hkind)))
            exact hwait.owner_eq hlink (hcall ▸ hwait.owner_call hvlink)

/-- A live waiter is unlinked only by a wake of its task, which slept. -/
theorem WaitMoves.waited {s s' : Sys} (h : WaitMoves s s') (hwait : WaitInv s.ch s.tasks)
    {w : WaiterId} (hlink : (s.ch.waiter w).channel ≠ none) (hlive : s.ch.live w = true)
    (hgone : s'.ch.waiter w ≠ s.ch.waiter w) :
    (s.tasks (s.ch.waiter w).task).state = .waitingChannel := by
  refine (WaitMoves.invariant
    (I := fun x => WaitInv x.ch x.tasks ∧
      ((s.tasks (s.ch.waiter w).task).state = .waitingChannel ∨
        x.ch.waiter w = s.ch.waiter w ∧ x.ch.live w = true ∧
          x.tasks (s.ch.waiter w).task = s.tasks (s.ch.waiter w).task))
    h ?_ ⟨hwait, .inr ⟨rfl, hlive, rfl⟩⟩).2.resolve_right fun hsame => hgone hsame.1
  rintro x x' ⟨hw, hx⟩ hmove
  refine ⟨hw.move hmove, ?_⟩
  rcases hx with hwaited | ⟨hsame, hl, htask⟩
  · exact .inl hwaited
  · have hnext := hmove.waited_or_same hw (by rw [hsame]; exact hlink) hl
    rw [hsame, htask] at hnext
    exact hnext

/-! ## Steps that close -/

/-- What closing channels does: tasks wake up, offers complete as closed, and no value
moves. -/
structure Closing (s s' : Sys) : Prop where
  frame : ∀ t, (s'.tasks t).frame = (s.tasks t).frame
  stack : ∀ t, (s'.tasks t).hasStack = (s.tasks t).hasStack
  woke : ∀ t k, (s.tasks t).state = .waitingChannel → (s.tasks t).frame.call = some k →
    (s'.tasks t).state = .waitingChannel ∨
      (s'.tasks t).state = .runnable ∧ k ∈ s'.ch.wokenCalls
  effects : ∃ l, s'.ch.effects = s.ch.effects ++ l ∧ ∀ p ∈ l, ∃ c, p.2 = .closed c true
  slept : ∀ w, (s.ch.waiter w).channel ≠ none → s.ch.live w = true →
    s'.ch.waiter w ≠ s.ch.waiter w → (s.tasks (s.ch.waiter w).task).state = .waitingChannel
  emptied : ∀ c, (s.ch.chan c).closed = false → (s'.ch.chan c).closed = true →
    ∀ op, s'.ch.queue c op = []
  contents : ∀ c, (s'.ch.chan c).buffer = (s.ch.chan c).buffer
  still : s.ch.Still s'.ch

section Closing

variable {o : Oracle} {s s' : Sys} {c : ChanId} {P : List SelectCase → Prop}

/-- Every channel that is closed by now and was open at first has no waiters. -/
theorem channelCloseLocked_emptied (h : channelCloseLocked o s c = .ok s') {c' : ChanId}
    (hI : (s.ch.chan c').closed = true → ∀ op, s.ch.queue c' op = []) :
    (s'.ch.chan c').closed = true → ∀ op, s'.ch.queue c' op = [] := by
  intro hclosed' op
  cases hflag : (s.ch.chan c').closed with
  | true =>
      have hsub := (channelCloseLocked_moves h).queue c' op
      rw [hI hflag op, List.sublist_nil] at hsub
      exact hsub
  | false =>
      by_cases hc : c' = c
      · subst hc
        exact (channelCloseLocked_empties h).2 hflag op
      · rw [channelCloseLocked_closed h hc, hflag] at hclosed'
        exact absurd hclosed' (by simp)

theorem channelCloseLocked_closing (h : channelCloseLocked o s c = .ok s')
    (hwait : WaitInv s.ch s.tasks) : Closing s s' where
  frame := (channelCloseLocked_moves h).keeps.2.2.2
  stack := (channelCloseLocked_wakes h).hasStack
  woke _ _ ht hk := (channelCloseLocked_moves h).woke hwait ht hk
  effects := by
    obtain ⟨l, hl, hall⟩ := channelCloseLocked_effects h
    exact ⟨l, hl, fun p hp => ⟨c, hall p hp⟩⟩
  slept _ hlink hlive hgone := (channelCloseLocked_moves h).waited hwait hlink hlive hgone
  emptied _ hopen := channelCloseLocked_emptied h
    fun habs => absurd (habs.symm.trans hopen) (by simp)
  contents c' := (channelCloseLocked_contents h c').1
  still := channelCloseLocked_still h

theorem shutdownAll_closing (h : croutineChannelShutdownAllLocked o s = .ok s')
    (hwait : WaitInv s.ch s.tasks) : Closing s s' where
  frame := (croutineChannelShutdownAllLocked_moves h).keeps.2.2.2
  stack := (croutineChannelShutdownAllLocked_wakes h).hasStack
  woke _ _ ht hk := (croutineChannelShutdownAllLocked_moves h).woke hwait ht hk
  effects := by
    obtain ⟨l, hl, hall⟩ := shutdownAll_effects h
    exact ⟨l, hl, fun p hp => (hall p hp).imp fun c hc => hc.1⟩
  slept _ hlink hlive hgone :=
    (croutineChannelShutdownAllLocked_moves h).waited hwait hlink hlive hgone
  emptied c' hopen := Res.foldlM_induct
    (I := fun x => (x.ch.chan c').closed = true → ∀ op, x.ch.queue c' op = [])
    (fun _ _ _ hI hclose => channelCloseLocked_emptied hclose hI) _
    (fun habs => absurd (habs.symm.trans hopen) (by simp)) h
  contents c' := Res.foldlM_induct (I := fun x => (x.ch.chan c').buffer = (s.ch.chan c').buffer)
    (fun _ _ _ hI hclose => (channelCloseLocked_contents hclose c').1.trans hI) _ rfl h
  still := shutdownAll_still h

/-- Only closing steps close a channel or request shutdown. -/
theorem ChanForm.closing_or_same (hform : ChanForm P s s') (hwait : WaitInv s.ch s.tasks) :
    Closing s s' ∨ (∀ c, (s'.ch.chan c).closed = true → (s.ch.chan c).closed = true) ∧
      s'.shutdownRequested = s.shutdownRequested := by
  cases hform with
  | write a bs => exact .inr ⟨fun _ => id, rfl⟩
  | create elemSize capacity allocOk =>
      refine .inr ⟨fun c => ?_, rfl⟩
      unfold croutineChannelCreate
      split
      · exact id
      · by_cases hc : c = s.ch.nextChan
        · simp [Chans.setChan, hc]
        · simp [Chans.setChan, hc]
  | destroy hc =>
      refine .inr ⟨fun c => ?_, rfl⟩
      unfold croutineChannelDestroy
      split <;> exact id
  | attempt hreg htry hdead he =>
      exact .inr ⟨fun c hc => (htry.closed c).symm.trans hc,
        htry.wakes.sameCore.shutdownRequested⟩
  | parkSingle hc htry hpc hframe =>
      have hrun := htry.wakes.sameCore.shutdownRequested
      have hopen := hrun.trans (htry.open_of_blocked rfl (Direction.op_ne_other _)).2
      refine .inr ⟨fun c => ?_, ?_⟩
      · rw [(parkOnChannel_eq hopen).1, (Chans.OnlyQueues.park _ _ _ _).closed]
        exact fun hc => (htry.closed c).symm.trans hc
      · unfold parkOnChannel
        rw [workerParkCurrentOnChannelLocked_shutdown]
        exact hrun
  | parkSelect hP hreg hsome hdead hall hpc hframe =>
      refine .inr ⟨fun c => ?_, workerParkCurrentOnChannelLocked_shutdown ..⟩
      rw [workerParkCurrentOnChannelLocked_ch]
      dsimp only
      rw [(selectRegister_only _ 0 _).closed c]
      exact id
  | close hc h => exact .inl (channelCloseLocked_closing h hwait)
  | shutdown h =>
      obtain ⟨hf, hk, hw, he, hslept, hempty, hb, hs⟩ := shutdownAll_closing h hwait
      exact .inl ⟨hf, hk, hw, he, hslept, hempty, hb, hs⟩
  | returnSingle hpc hframe => exact .inr ⟨fun _ => id, rfl⟩
  | @returnSelect w t call cases parked hpc hframe index status =>
      have hscrub := (Scrubbed.scrubSelectWaiters hwait.linked call cases.length).1
      exact .inr ⟨fun c hc => (hscrub.only.closed c).symm.trans hc, rfl⟩

/-- A task that is in a call after the step was in it before with its stack, or the step made
the call and logged nothing. -/
theorem ChanForm.frame_before (hform : ChanForm P s s') {t : TaskId} {k : CallId}
    (hk : (s'.tasks t).frame.call = some k) :
    ((s.tasks t).frame = (s'.tasks t).frame ∧ (s.tasks t).hasStack = (s'.tasks t).hasStack) ∨
      s'.ch.log = s.ch.log ∧ k = s.ch.clock := by
  have hmoves : ∀ {x x' : Sys}, WaitMoves x x' →
      (x.tasks t).frame = (x'.tasks t).frame ∧ (x.tasks t).hasStack = (x'.tasks t).hasStack := by
    intro x x' h
    exact ⟨(h.keeps.2.2.2 t).symm, (h.wakes.hasStack t).symm⟩
  have hreturn : ∀ {u : TaskId}, (Function.update s.tasks u { s.tasks u with frame := .user }
      t).frame.call = some k → (s.tasks t).frame =
        (Function.update s.tasks u { s.tasks u with frame := .user } t).frame ∧
      (s.tasks t).hasStack =
        (Function.update s.tasks u { s.tasks u with frame := .user } t).hasStack := by
    intro u hu
    have hne : t ≠ u := by
      rintro rfl
      rw [Function.update_self] at hu
      exact absurd hu (by simp [Frame.call])
    rw [Function.update_of_ne hne]
    exact ⟨rfl, rfl⟩
  cases hform with
  | write a bs => exact .inl ⟨rfl, rfl⟩
  | create elemSize capacity allocOk => exact .inl ⟨rfl, rfl⟩
  | destroy hc => exact .inl ⟨rfl, rfl⟩
  | attempt hreg htry hdead he =>
      have h1 := hmoves htry.moves
      exact .inl h1
  | @parkSingle o c op slot s1 w u hc htry hpc hframe =>
      rw [(parkOnChannel_eq htry.runs_of_blocked).2] at hk ⊢
      by_cases htu : t = u
      · subst htu
        rw [Function.update_self] at hk
        exact .inr ⟨parkOnChannel_log htry, (Option.some.inj hk).symm⟩
      · rw [Function.update_of_ne htu]
        have h1 := hmoves htry.moves
        exact .inl h1
  | @parkSelect o cases w u hP hreg hsome gone hdead hall hpc hframe =>
      by_cases htu : t = u
      · subst htu
        obtain ⟨p, hp⟩ := workerParkCurrentOnChannelLocked_frame
          { s with
            ch := selectRegister t s.ch.clock 0 cases
              ((s.ch.tick.without gone).setSelect s.ch.clock {}) }
          w t (.select s.ch.clock cases)
        rw [hp] at hk
        refine .inr ⟨?_, (Option.some.inj hk).symm⟩
        rw [workerParkCurrentOnChannelLocked_ch]
        exact parkSelect_log _
      · rw [workerParkCurrentOnChannelLocked_other _ _ _ _ htu]
        exact .inl ⟨rfl, rfl⟩
  | close hc h => exact .inl (hmoves (channelCloseLocked_moves h))
  | shutdown h =>
      have h1 := hmoves (croutineChannelShutdownAllLocked_moves h)
      exact .inl h1
  | returnSingle hpc hframe => exact .inl (hreturn hk)
  | returnSelect hpc hframe index status => exact .inl (hreturn hk)

end Closing

/-- The task of the waiter slept before the step, which woke it, once, and it will find out
that the channel was closed. -/
structure WokenClosed (s s' : Sys) (w : WaiterId) : Prop where
  asleep : (s.tasks (s.ch.waiter w).task).state = .waitingChannel ∧ w.call ∉ s.ch.wokenCalls
  awake : (s'.tasks (s.ch.waiter w).task).state = .runnable ∧ s'.ch.wokenCalls.count w.call = 1
  regular : (s.ch.waiter w).kind = .regular →
    (s'.tasks (s.ch.waiter w).task).channelWakeSuccess = false
  select : (s.ch.waiter w).kind = .select →
    (s'.ch.select w.call).done = true ∧ (s'.ch.select w.call).chosenStatus = .closed

section Run

variable {backend : Backend} {s s' : Sys} {c : ChanId} {w : WaiterId} {a : Action}

/-- While somebody waits to send or to receive the scheduler exists. -/
theorem NarrowRun.not_down (h : NarrowRun backend s) (hw : (s.ch.waiter w).channel = some c)
    (hop : (s.ch.waiter w).op ≠ .other) : s.life ≠ .down := by
  intro hdown
  have hrun := (h.linked_open hw hop).2
  rw [(LifeInv.reach h).ending (by rw [hdown]; rfl)] at hrun
  exact absurd hrun (by simp)

/-- A task that sleeps on a channel has all of its waiters linked. -/
theorem WaitInv.linked_of_waiting (h : WaitInv s.ch s.tasks) {t : TaskId}
    (ht : (s.tasks t).state = .waitingChannel) {x : Waiter} (howns : (s.tasks t).frame.Owns w x) :
    (s.ch.waiter w).channel = x.channel := by
  have hparked := h.parked t ht
  cases hf : (s.tasks t).frame with
  | user | ioWait => rw [hf] at howns; exact howns.elim
  | single op k c p =>
      rw [hf] at howns hparked
      cases p with
      | false => exact hparked.elim
      | true => rw [howns.1, howns.2.2.2]; exact hparked
  | select k cases p =>
      rw [hf] at howns hparked
      obtain ⟨rfl, _, _, _, cs, hcs, hx, _⟩ := howns
      cases p with
      | false => exact hparked.elim
      | true => rw [hx]; exact hparked.2.2 w.idx cs hcs

/-- A step that closes a channel wakes each of its live waiters with the closed outcome. -/
theorem Closing.wokenClosed (h : NarrowRun backend s) (h' : NarrowRun backend s')
    (hclosing : Closing s s') (hopen : (s.ch.chan c).closed = false)
    (hclosed : (s'.ch.chan c).closed = true) (hw : (s.ch.waiter w).channel = some c)
    (hlive : s.ch.live w = true) : WokenClosed s s' w := by
  have hlink : (s.ch.waiter w).channel ≠ none := by rw [hw]; simp
  have hcall := (WaitInv.reach h).owner_call hlink
  have howns := (WaitInv.reach h).owner w hlink
  have hunlinked : (s'.ch.waiter w).channel ≠ some c := by
    intro hw'
    have hmem := (WaitInv.reach h').linked.mem.mpr ⟨hw', rfl⟩
    rw [hclosing.emptied c hopen hclosed] at hmem
    exact absurd hmem List.not_mem_nil
  have hwaits := hclosing.slept w hlink hlive fun hsame => hunlinked (by rw [hsame]; exact hw)
  have hcalls := CallInv.reach h
  have hcalls' := CallInv.reach h'
  have hstack := hclosing.stack (s.ch.waiter w).task
  have hframe' := hclosing.frame (s.ch.waiter w).task
  -- a task that still slept would have its waiter on the closed channel
  have hawake : (s'.tasks (s.ch.waiter w).task).state ≠ .waitingChannel := by
    intro hstill
    have hlinked := (WaitInv.reach h').linked_of_waiting hstill (by rw [hframe']; exact howns)
    exact hunlinked (hlinked.trans hw)
  obtain ⟨hrunnable, hmem⟩ := (hclosing.woke _ _ hwaits hcall).resolve_left hawake
  obtain ⟨l, hl, hall⟩ := hclosing.effects
  -- a call without effects before has effects of closed channels only
  have honly : s.ch.effectsOf w.call = [] → ∀ p ∈ s'.ch.effectsOf w.call, p.2.status = .closed := by
    intro hnone p hp
    obtain ⟨hp, hpk⟩ := Chans.mem_effectsOf.mp hp
    rw [hl] at hp
    rcases List.mem_append.mp hp with hp | hp
    · have hmem : p ∈ s.ch.effectsOf w.call := Chans.mem_effectsOf.mpr ⟨hp, hpk⟩
      rw [hnone] at hmem
      exact absurd hmem List.not_mem_nil
    · obtain ⟨c', hp'⟩ := hall p hp
      rw [hp']
      rfl
  refine ⟨⟨hwaits, hcalls.asleep _ _ hwaits hcall⟩,
    ⟨hrunnable, List.count_eq_one_of_mem hcalls'.woken.1 hmem⟩, fun hkind => ?_, fun hkind => ?_⟩
  · cases hf : (s.tasks (s.ch.waiter w).task).frame with
    | user | ioWait => rw [hf] at howns; exact howns.elim
    | select k cases p =>
        rw [hf] at howns
        rw [howns.2.1] at hkind
        exact absurd hkind (by simp)
    | single op k c' p =>
        have hk : k = w.call := by rw [hf] at hcall; exact Option.some.inj hcall
        subst hk
        have hop : (s.ch.waiter w).op ≠ .other := by
          rw [hf] at howns
          rw [howns.2.2.1]
          exact op.op_ne_other
        have hnone := (Told.reach h _).asleep op w.call c' p hf hwaits
        obtain ⟨e, hone, _, hsuccess⟩ := (Told.reach h' _).single op w.call c' p
          (hframe'.trans hf) hawake
          (hstack.trans ((TaskInv.reach h (h.not_down hw hop)).hasStack_of_waiting hwaits))
        have hstatus : e.status = .closed := honly hnone (⟨w.call, 0⟩, e) (by rw [hone]; simp)
        simpa [hstatus] using hsuccess
  · cases hf : (s.tasks (s.ch.waiter w).task).frame with
    | user | ioWait => rw [hf] at howns; exact howns.elim
    | single op k c' p =>
        rw [hf] at howns
        rw [howns.2.1] at hkind
        exact absurd hkind (by simp)
    | select k cases p =>
        have hk : k = w.call := by rw [hf] at hcall; exact Option.some.inj hcall
        subst hk
        have hparked := (WaitInv.reach h).parked _ hwaits
        rw [hf] at hparked
        obtain rfl : p = true := by
          cases p with
          | false => exact hparked.elim
          | true => rfl
        have hnone := (Told.reach h _).undone w.call cases true hf hparked.1
        have hdone : (s'.ch.select w.call).done = true := by
          by_contra hd
          exact hawake ((OpenInv.reach h').asleep _ w.call cases (hframe'.trans hf)
            (by simpa using hd))
        obtain ⟨i, cs, c', e, _, _, hone, _, hsel, _⟩ := (Told.reach h' _).done w.call cases true
          (hframe'.trans hf) hdone
        refine ⟨hdone, ?_⟩
        rw [hsel]
        exact honly hnone (⟨w.call, i⟩, e) (by rw [hone]; simp)

/-! ### The buffer of a closed channel -/

/-- Nobody waits to send on a channel that is closed, or after shutdown was requested. -/
theorem NarrowRun.senders_of_refusing (h : NarrowRun backend s)
    (hc : (s.ch.chan c).closed = true ∨ s.shutdownRequested = true) : s.ch.queue c .send = [] :=
  hc.elim h.senders_of_closed fun hdown => h.senders_of_shutdown hdown c

/-- A channel that is closed accepts no value, and none does after shutdown was requested. -/
theorem NarrowRun.sent_of_closed (h : NarrowRun backend s) (hstep : step s a = .ok s')
    (hc : (s.ch.chan c).closed = true ∨ s.shutdownRequested = true) :
    s'.ch.sent c = s.ch.sent c := by
  obtain ⟨l, hl⟩ := step_log h hstep
  obtain ⟨l', hl', hall⟩ := step_newEffects h hstep
  rw [Chans.sent_append hl, List.filterMap_eq_nil_iff.mpr, List.append_nil]
  intro e he
  rw [Option.eq_none_iff_forall_ne_some]
  rintro ⟨w, v⟩ hsent
  have hmem : (w, Effect.sent c v) ∈ l' := by
    rw [Chans.effects_append hl] at hl'
    rw [← List.append_cancel_left hl']
    exact List.mem_flatMap.mpr ⟨e, he, Event.effects_of_sentOn hsent⟩
  rcases hall _ hmem with ⟨hopen, hrun⟩ | ⟨c', v', heq, hqueue⟩
  · rcases hc with hc | hc
    · exact absurd (hc.symm.trans hopen) (by simp)
    · exact absurd (hc.symm.trans hrun) (by simp)
  · cases heq
    rw [h.senders_of_refusing hc] at hqueue
    exact absurd hqueue List.not_mem_nil

/-- What is delivered on the channel comes from the front of its buffer, and nothing enters
the buffer. -/
def Drains (c : ChanId) (κ κ' : Chans) : Prop :=
  ∃ D, κ'.delivered c = κ.delivered c ++ D ∧
    D.map Prod.snd ++ (κ'.chan c).buffer = (κ.chan c).buffer

namespace Drains

variable {κ κ' κ'' : Chans}

theorem trans (h : Drains c κ κ') (h' : Drains c κ' κ'') : Drains c κ κ'' := by
  obtain ⟨D, hD, hbuffer⟩ := h
  obtain ⟨D', hD', hbuffer'⟩ := h'
  refine ⟨D ++ D', by rw [hD', hD, List.append_assoc], ?_⟩
  rw [List.map_append, List.append_assoc, hbuffer', hbuffer]

theorem same (hdelivered : κ'.delivered c = κ.delivered c)
    (hbuffer : (κ'.chan c).buffer = (κ.chan c).buffer) : Drains c κ κ' :=
  ⟨[], by rw [hdelivered, List.append_nil], by simpa using hbuffer⟩

theorem still (h : κ.Still κ') (hbuffer : (κ'.chan c).buffer = (κ.chan c).buffer) :
    Drains c κ κ' :=
  same (h.delivered c) hbuffer

/-- A receive takes the oldest value. -/
theorem take {offer : WaiterId} {out : Addr} {v : Bytes} {rest : List Bytes}
    (hlog : κ'.log = κ.log ++ [.taken c offer out v]) (hbuffer : (κ.chan c).buffer = v :: rest)
    (hrest : (κ'.chan c).buffer = rest) : Drains c κ κ' := by
  refine ⟨[(offer, v)], ?_, by rw [hrest, hbuffer]; rfl⟩
  rw [Chans.delivered_append hlog]
  simp [Event.deliveredOn]

end Drains

section Attempts

variable {o : Oracle} {c' : ChanId} {offer : WaiterId} {slot : Addr}

/-- Nobody sends on a channel that refuses values. -/
theorem TrySend.drains {r : SendResult} (h : TrySend o s c' offer slot s' r)
    (hc : (s.ch.chan c).closed = true ∨ s.shutdownRequested = true) : Drains c s.ch s'.ch := by
  by_cases heq : c = c'
  · subst heq
    have hopen : (s.ch.chan c).closed = false → s.shutdownRequested = false → False := by
      intro hopen hrun
      simp [hopen, hrun] at hc
    cases h with
    | refused h => exact .still (.record rfl) rfl
    | handed hflag hrun hqueue hdead hlive hwake => exact (hopen hflag hrun).elim
    | buffered hflag hrun hdead hroom => exact (hopen hflag hrun).elim
    | blocked hflag hrun hdead hfull => exact (hopen hflag hrun).elim
  · exact .same (h.elsewhere heq).2 (by rw [h.onlyAt c heq])

/-- Without senders a receive leaves the buffer with less. -/
theorem TryRecv.drains {r : RecvResult} (h : TryRecv o s c' offer slot s' r)
    (hempty : s.ch.queue c .send = []) : Drains c s.ch s'.ch := by
  by_cases heq : c = c'
  · subst heq
    cases h with
    | taken hbuffer hskip => exact .take rfl hbuffer (by rw [Chans.tookBuffered_chan])
    | drained hbuffer hopen hdead =>
        exact .take rfl hbuffer (by rw [Chans.dropHeads_buffer, Chans.tookBuffered_chan])
    | refilled hbuffer hopen hroom hqueue hdead hlive hwake =>
        exact absurd (hempty.symm.trans hqueue) (by simp)
    | direct hbuffer hqueue hdead hlive hwake =>
        exact absurd (hempty.symm.trans hqueue) (by simp)
    | refused hbuffer hdead h => exact .still (.record rfl) (by simp [Chans.record])
    | blocked hbuffer hdead hopen hrun => exact .same rfl (by simp)
  · exact .same (h.elsewhere heq).2 (by rw [h.onlyAt c heq])

theorem TryCase.drains {cs : SelectCase} {fired : Option SelectStatus}
    (h : TryCase o s offer cs s' fired)
    (hc : (s.ch.chan c).closed = true ∨ s.shutdownRequested = true)
    (hempty : s.ch.queue c .send = []) : Drains c s.ch s'.ch := by
  cases h with
  | untried huntried => exact .same rfl rfl
  | send hchan hop h => exact h.drains hc
  | recv hchan hop h => exact h.drains hempty

end Attempts

/-- A channel that refuses values and has no senders is only drained. -/
theorem ChanForm.drains {P : List SelectCase → Prop} (hform : ChanForm P s s')
    (hwait : WaitInv s.ch s.tasks) (hfresh : s.ch.chan s.ch.nextChan = {})
    (hc : (s.ch.chan c).closed = true ∨ s.shutdownRequested = true)
    (hempty : s.ch.queue c .send = []) : Drains c s.ch s'.ch := by
  cases hform with
  | write a bs => exact .same rfl rfl
  | create elemSize capacity allocOk =>
      unfold croutineChannelCreate
      split
      · exact .same rfl rfl
      · refine .same rfl ?_
        by_cases hnew : c = s.ch.nextChan
        · subst hnew
          simp [Chans.setChan, hfresh]
        · simp [Chans.setChan, hnew]
  | destroy hdestroy =>
      unfold croutineChannelDestroy
      split <;> exact .same rfl rfl
  | @attempt o i cs s1 fired hreg htry gone hdead e he =>
      have h1 : Drains c s.ch s1.ch := htry.drains hc hempty
      refine h1.trans (.still ⟨e.toList, rfl, fun x hx => ?_⟩ rfl)
      exact Event.still_of_returned (he x (Option.mem_toList.mp hx))
  | @parkSingle o c' op slot s1 w t hreg htry hpc hframe =>
      have h1 : Drains c s.ch s1.ch := htry.drains hc hempty
      have honly := Chans.OnlyQueues.park s1.ch c' ⟨s.ch.clock, 0⟩
        { kind := .regular, op := op, task := t, valueSlot := slot }
      rw [(parkOnChannel_eq htry.runs_of_blocked).1]
      exact h1.trans (.still (.of_eq honly.log) (honly.buffer c))
  | @parkSelect o cases w t hP hreg hsome gone hdead hall hpc hframe =>
      have honly := selectRegister_only (t := t) (k := s.ch.clock) cases 0
        ((s.ch.tick.without gone).setSelect s.ch.clock {})
      rw [workerParkCurrentOnChannelLocked_ch]
      exact .still (.of_eq honly.log) (honly.buffer c)
  | close hreg hclose =>
      exact .still (channelCloseLocked_still hclose) (channelCloseLocked_contents hclose c).1
  | shutdown hclose =>
      have hclosing := shutdownAll_closing hclose hwait
      exact .still hclosing.still (hclosing.contents c)
  | @returnSingle w t op call c' parked hpc hframe =>
      have hreturned := singleReturned_returnedCall op call c'
        (parked && (s.tasks t).channelWakeSuccess)
      exact .still (.record (Event.still_of_returned hreturned)) rfl
  | @returnSelect w t call cases parked hpc hframe index status =>
      have hscrub := (Scrubbed.scrubSelectWaiters hwait.linked call cases.length).1
      exact .still ((Chans.Still.of_eq hscrub.only.log).trans (.record rfl)) (hscrub.only.buffer c)

/-- A channel that is closed, or any channel after shutdown, is only drained. -/
theorem NarrowRun.drains (h : NarrowRun backend s) (hstep : step s a = .ok s')
    (hc : (s.ch.chan c).closed = true ∨ s.shutdownRequested = true) : Drains c s.ch s'.ch := by
  rcases step_form h hstep with hform | hu
  · exact hform.drains (WaitInv.reach h) (chan_fresh h (Nat.le_refl _)) hc
      (h.senders_of_refusing hc)
  · rw [hu.ch]
    exact .same rfl rfl

/-- A receive from a closed channel takes the oldest value, or finds that there is none. -/
theorem NarrowRun.recv_of_closed (h : NarrowRun backend s) (hc : (s.ch.chan c).closed = true)
    (o : Oracle) (offer : WaiterId) (out : Addr) : tryRecvLocked o s c offer out =
      match (s.ch.chan c).buffer with
      | v :: rest => .ok ({ s with ch := s.ch.tookBuffered c offer out v rest }, .value)
      | [] => .ok ({ s with ch := s.ch.record (.closed c offer true) }, .closed) := by
  have hempty := h.senders_of_closed hc
  unfold tryRecvLocked
  cases (s.ch.chan c).buffer with
  | cons v rest =>
      simp [Sys.mapCh, Chans.bufferPop, Chans.record, Chans.copyValue, Chans.setChan, hc,
        Chans.tookBuffered, bind, Except.bind, pure, Except.pure]
  | nil =>
      simp [wakeWaitingSenderDirectLocked, Chans.popLiveWaiterLocked, hempty, Chans.popLive, hc,
        bind, Except.bind, pure, Except.pure, Sys.mapCh]

/-! ### Receives that find a closed channel -/

/-- The call offers to receive on `c` with the waiter `w`. -/
def Frame.Receives (w : WaiterId) (c : ChanId) : Frame → Prop
  | .single op k c' _ => op = .recv ∧ w = ⟨k, 0⟩ ∧ c' = c
  | .select k cases _ => w.call = k ∧
      ∃ cs, cases[w.idx]? = some cs ∧ cs.op = .recv ∧ cs.channel = some c
  | .user | .ioWait => False

theorem Frame.Receives.call {frame : Frame} (h : frame.Receives w c) :
    frame.call = some w.call := by
  cases frame with
  | user | ioWait => exact h.elim
  | single op k c' p => rw [h.2.1]; rfl
  | select k cases p => rw [h.1]; rfl

/-- A receive is a case to try. -/
theorem Frame.Receives.not_strays {frame : Frame} (h : frame.Receives w c) : ¬ frame.Strays := by
  cases frame with
  | user | ioWait | single op k c' p => exact id
  | select k cases p =>
      obtain ⟨_, cs, hcs, hop, hc⟩ := h
      rintro ⟨_, hall⟩
      rcases hall cs (List.mem_of_getElem? hcs) with hnone | hother
      · exact absurd (hc.symm.trans hnone) (by simp)
      · exact absurd (hop.symm.trans hother) (by simp)

/-- A call has one effect at most. -/
theorem Task.Told.length_le {κ : Chans} {τ : Task} {k : CallId} (h : τ.Told κ)
    (hstack : τ.hasStack = true) (hk : τ.frame.call = some k) : (κ.effectsOf k).length ≤ 1 := by
  cases hf : τ.frame with
  | user | ioWait => rw [hf] at hk; exact absurd hk (by simp [Frame.call])
  | single op j c p =>
      obtain rfl : j = k := by rw [hf] at hk; exact Option.some.inj hk
      by_cases hst : τ.state = .waitingChannel
      · rw [h.asleep op j c p hf hst]
        exact Nat.zero_le _
      · obtain ⟨e, hone, _⟩ := h.single op j c p hf hst hstack
        rw [hone]
        exact Nat.le_refl _
  | select j cases p =>
      obtain rfl : j = k := by rw [hf] at hk; exact Option.some.inj hk
      cases hd : (κ.select j).done with
      | false =>
          rw [h.undone j cases p hf hd]
          exact Nat.zero_le _
      | true =>
          obtain ⟨i, cs, c, e, _, _, hone, _⟩ := h.done j cases p hf hd
          rw [hone]
          exact Nat.le_refl _

/-- A call that receives and has no effect sleeps. -/
theorem NarrowRun.waiting_of_no_effect (h : NarrowRun backend s) {t : TaskId}
    (hstack : (s.tasks t).hasStack = true) (hr : (s.tasks t).frame.Receives w c)
    (hnone : s.ch.effectsOf w.call = []) : (s.tasks t).state = .waitingChannel := by
  have htold := Told.reach h t
  have hk := hr.call
  by_contra hst
  cases hf : (s.tasks t).frame with
  | user | ioWait => rw [hf] at hk; exact absurd hk (by simp [Frame.call])
  | single op j c p =>
      obtain rfl : j = w.call := by rw [hf] at hk; exact Option.some.inj hk
      obtain ⟨e, hone, _⟩ := htold.single op w.call c p hf hst hstack
      rw [hnone] at hone
      exact absurd hone (by simp)
  | select j cases p =>
      obtain rfl : j = w.call := by rw [hf] at hk; exact Option.some.inj hk
      obtain rfl : p = true := by
        by_contra hp
        exact hr.not_strays ((OpenInv.reach h).parked t (h.frames t)
          (by rw [hf]; simpa [Frame.refused] using hp))
      cases hd : (s.ch.select w.call).done with
      | false => exact hst ((OpenInv.reach h).asleep t _ cases hf hd)
      | true =>
          obtain ⟨i, cs, c, e, _, _, hone, _⟩ := htold.done _ cases true hf hd
          rw [hnone] at hone
          exact absurd hone (by simp)

/-- A task that sleeps in a receive has its waiter on an open channel with an empty buffer. -/
theorem NarrowRun.empty_of_waiting (h : NarrowRun backend s) {t : TaskId}
    (ht : (s.tasks t).state = .waitingChannel) (hr : (s.tasks t).frame.Receives w c) :
    ((s.ch.chan c).closed = false ∧ s.shutdownRequested = false) ∧
      (s.ch.chan c).buffer = [] := by
  have hwait := WaitInv.reach h
  have hparked := hwait.parked t ht
  have hlinked : (s.ch.waiter w).channel = some c := by
    cases hf : (s.tasks t).frame with
    | user | ioWait => rw [hf] at hr; exact hr.elim
    | single op k c' p =>
        rw [hf] at hr hparked
        cases p with
        | false => exact hparked.elim
        | true => rw [hr.2.1, ← hr.2.2]; exact hparked
    | select k cases p =>
        rw [hf] at hr hparked
        obtain ⟨rfl, cs, hcs, _, hc⟩ := hr
        cases p with
        | false => exact hparked.elim
        | true => rw [← hc]; exact hparked.2.2 w.idx cs hcs
  have hlink : (s.ch.waiter w).channel ≠ none := by rw [hlinked]; simp
  have howns := hwait.owner_of_call hlink hr.call
  have hop : (s.ch.waiter w).op = .recv := by
    cases hf : (s.tasks t).frame with
    | user | ioWait => rw [hf] at hr; exact hr.elim
    | single op k c' p =>
        rw [hf] at hr howns
        rw [howns.2.2.1, hr.1]
        rfl
    | select k cases p =>
        rw [hf] at hr howns
        obtain ⟨_, cs, hcs, hop, _⟩ := hr
        obtain ⟨_, _, _, _, cs', hcs', _, hop', _⟩ := howns
        rw [hcs] at hcs'
        cases hcs'
        rw [hop', hop]
  have hkeen : (s.ch.waiter w).op ≠ .other := by rw [hop]; decide
  refine ⟨h.linked_open hlinked hkeen, (h.balanced c).receivers w
    (hwait.linked.mem.mpr ⟨hlinked, by rw [hop]; rfl⟩) ⟨?_, hkeen⟩⟩
  by_contra hlive
  exact hwait.not_dead_of_parked ht hlink hr.call (Chans.dead_of_not_live (by simpa using hlive))

/-- **A receive that completed as closed left an empty buffer.** -/
theorem NarrowRun.empty_of_effect (h : NarrowRun backend s) {t : TaskId} {flag : Bool}
    (hstack : (s.tasks t).hasStack = true) (hr : (s.tasks t).frame.Receives w c)
    (heff : (w, Effect.closed c flag) ∈ s.ch.effects) : (s.ch.chan c).buffer = [] := by
  refine Machine.ReachVia.invariant (I := fun x => ∀ t w c flag, (x.tasks t).hasStack = true →
    (x.tasks t).frame.Receives w c → (w, Effect.closed c flag) ∈ x.ch.effects →
      (x.ch.chan c).buffer = []) ?_ ?_ h t w c flag hstack hr heff
  · intro x hx t w c flag _ _ heff
    obtain ⟨wakeFd, workers, runCapacity, ioCapacity, _, _, rfl⟩ := hx
    exact absurd heff List.not_mem_nil
  · intro x a x' hx hI ha hstep t w c flag hstack hr heff
    have hx : NarrowRun backend x := hx
    have hx' : NarrowRun backend x' := .step hx ha hstep
    obtain ⟨l, hl⟩ := step_log hx hstep
    rcases step_form hx hstep with hc | hu
    · rcases hc.frame_before hr.call with ⟨hframe, hs⟩ | ⟨hlog, hk⟩
      · rw [← hframe] at hr
        rw [← hs] at hstack
        have hgrow := Chans.effectsOf_append hl w.call
        by_cases hold : (w, Effect.closed c flag) ∈ x.ch.effects
        · -- decided before: a closed channel takes no value in
          have hempty := hI t w c flag hstack hr hold
          have hclosed := closed_of_effect hx hold
          obtain ⟨D, _, hD⟩ := hx.drains (c := c) hstep (by cases flag <;> simp_all)
          rw [hempty] at hD
          exact (List.append_eq_nil_iff.mp hD).2
        · -- decided by this step: it closed the channel on which the task slept
          have hmem' : (w, Effect.closed c flag) ∈ x'.ch.effectsOf w.call :=
            Chans.mem_effectsOf.mpr ⟨heff, rfl⟩
          have hmem : (w, Effect.closed c flag) ∉ x.ch.effectsOf w.call :=
            fun habs => hold (Chans.mem_effectsOf.mp habs).1
          have hnone : x.ch.effectsOf w.call = [] := by
            have hle := (Told.reach hx' t).length_le (hs ▸ hstack) (hframe ▸ hr.call)
            rw [hgrow] at hle hmem'
            have hpos := List.length_pos_of_mem ((List.mem_append.mp hmem').resolve_left hmem)
            rw [List.length_append] at hle
            exact List.length_eq_zero_iff.mp (by omega)
          obtain ⟨⟨hopen, hrun⟩, hempty⟩ :=
            hx.empty_of_waiting (hx.waiting_of_no_effect hstack hr hnone) hr
          rcases hc.closing_or_same (WaitInv.reach hx) with hclosing | ⟨hflags, hdown⟩
          · rw [hclosing.contents]
            exact hempty
          · have hclosed := closed_of_effect hx' heff
            rw [hdown, hrun] at hclosed
            cases flag with
            | false => exact absurd hclosed (by simp)
            | true => exact absurd (hflags c hclosed) (by rw [hopen]; simp)
      · rw [Chans.effects_of_log hlog] at heff
        have hmem : (w, Effect.closed c flag) ∈ x.ch.effectsOf w.call :=
          Chans.mem_effectsOf.mpr ⟨heff, rfl⟩
        rw [hk, effectsOf_fresh hx (Nat.le_refl _)] at hmem
        exact absurd hmem List.not_mem_nil
    · have hframe := hu.tasks.frame_of_call hr.call
      rw [hframe] at hr
      rw [hu.ch] at heff ⊢
      exact hI t w c flag (hu.tasks.wake t (by rw [hr.call]; simp) hstack).1 hr heff

/-- The report says that the call found the channel `c` closed when it received. -/
def Event.RecvClosed (c : ChanId) : Event → Prop
  | .recvReturned _ c' r => c' = c ∧ r = .closed
  | .selectReturned _ cases index status => ∃ (i : Nat) (cs : SelectCase), index = i ∧
      cases[i]? = some cs ∧ cs.op = .recv ∧ cs.channel = some c ∧ status = some .closed
  | _ => False

theorem TryRecv.empty_of_closed {o : Oracle} {offer : WaiterId} {out : Addr} {r : RecvResult}
    (h : TryRecv o s c offer out s' r) (hr : r = .closed) : (s.ch.chan c).buffer = [] := by
  subst hr
  cases h with
  | refused hbuffer hdead h => exact hbuffer

theorem TryCase.empty_of_closed {o : Oracle} {offer : WaiterId} {cs : SelectCase}
    (h : TryCase o s offer cs s' (some .closed)) (hop : cs.op = .recv)
    (hc : cs.channel = some c) : (s.ch.chan c).buffer = [] := by
  generalize hf : some SelectStatus.closed = fired at h
  cases h with
  | untried huntried => exact absurd hf (by simp)
  | send hchan hop' h => exact absurd (hop.symm.trans hop') (by simp)
  | @recv c' hchan hop' s' r h =>
      cases hchan.symm.trans hc
      refine h.empty_of_closed ?_
      cases r <;> simp_all [recvStatus]

/-- **A receive reports a closed channel only when the buffer is empty.** -/
theorem NarrowRun.empty_of_report (h : NarrowRun backend s) {e : Event} (hr : Report s s' e)
    (he : e.RecvClosed c) : (s.ch.chan c).buffer = [] := by
  cases hr with
  | send htry heff => exact he.elim
  | @recv o c' out s1 r htry heff =>
      obtain ⟨rfl, rfl⟩ := he
      exact htry.empty_of_closed rfl
  | @fired o cases j cs s1 status hj hcs htry heff =>
      obtain ⟨i, cs', hidx, hcs', hop, hc, hstatus⟩ := he
      obtain rfl : j = i := eq_of_toInt32 hj hidx
      cases hcs.symm.trans hcs'
      cases Option.some.inj hstatus
      exact htry.empty_of_closed hop hc
  | default cases =>
      obtain ⟨i, cs, _, _, _, _, habs⟩ := he
      exact absurd habs (by simp)
  | @single w t op k c' p hpc hframe heff =>
      have hstack := running_hasStack h hpc
      have hp : p = true := (OpenInv.reach h).single_parked hframe
      cases op with
      | send => exact he.elim
      | recv =>
          obtain ⟨rfl, hclosed⟩ := he
          have hfail : (s.tasks t).channelWakeSuccess = false := by
            by_contra habs
            simp_all
          obtain ⟨x, hone, hfits, hsuccess⟩ := (Told.reach h t).single .recv k c' p hframe
            (by rw [running_runnable h hpc]; simp) hstack
          have hmem : (⟨k, 0⟩, x) ∈ s.ch.effectsOf k := by rw [hone]; simp
          cases x with
          | sent _ _ | received _ _ _ => simp [hfail, Effect.status] at hsuccess
          | closed c'' flag =>
              obtain rfl : c'' = c' := hfits
              exact h.empty_of_effect (w := ⟨k, 0⟩) hstack (by rw [hframe]; exact ⟨rfl, rfl, rfl⟩)
                (Chans.mem_effectsOf.mp hmem).1
  | @select w t k cases p hpc hframe heff =>
      have hn : cases.length ≤ 2 ^ 32 := by
        have hfits := h.frames t
        rw [hframe] at hfits
        exact length_of_fits hfits
      obtain rfl : p = true := by
        by_contra hp
        obtain ⟨i, cs, _, _, _, _, habs⟩ : (Event.selectReturned k cases selectDefaultIndex
          none).RecvClosed c := by simpa [selectReport, hp] using he
        exact absurd habs (by simp)
      obtain ⟨hsuccess, j, cs, c', x, hcs, hc', hone, hfits, hsel⟩ := select_fired h hpc hframe hn
      rw [hsuccess, hsel] at he
      unfold selectReport at he
      simp only [Bool.and_self, Bool.not_true, Bool.false_eq_true, if_false] at he
      split at he
      · obtain ⟨i, cs', hidx, hcs', hop, hc, hstatus⟩ := he
        obtain rfl : j = i := eq_of_toInt32
          (Nat.lt_of_lt_of_le (List.getElem?_eq_some_iff.mp hcs).1 hn) hidx
        cases hcs.symm.trans hcs'
        cases hc'.symm.trans hc
        have hmem : (⟨k, j⟩, x) ∈ s.ch.effectsOf k := by rw [hone]; simp
        cases x with
        | sent _ _ | received _ _ _ => simp [Effect.status] at hstatus
        | closed c'' flag =>
            obtain rfl : c'' = c := hfits
            exact h.empty_of_effect (w := ⟨k, j⟩) (running_hasStack h hpc)
              (by rw [hframe]; exact ⟨rfl, cs, hcs, hop, hc⟩) (Chans.mem_effectsOf.mp hmem).1
      · obtain ⟨i, cs', _, _, _, _, habs⟩ := he
        exact absurd habs (by simp)

end Run

/-- **A close is final.**  In runs without a select of more than `2 ^ 32` cases, the step
that closes a channel leaves nobody on it and wakes every live waiter on it once, with the
closed outcome.  From then on nobody waits on the channel to send or to receive and nothing
is sent on it, the values that were in the buffer are delivered in order, one to each
receive, and a receive reports that the channel is closed only when the buffer is empty. -/
theorem close_is_final {backend : Backend} {s s1 s2 : Sys} (h : NarrowRun backend s) {a : Action}
    (ha : a.narrow = true) (hclose : step s a = .ok s1) {c : ChanId}
    (hopen : (s.ch.chan c).closed = false) (hclosed : (s1.ch.chan c).closed = true)
    {l : List Action} (hl : ∀ b ∈ l, b.narrow = true)
    (hrun : (runtime backend).run s1 l = .ok s2) :
    (∀ w, (s.ch.waiter w).channel = some c → s.ch.live w = true →
      WokenClosed s s1 w ∧ s2.ch.wokenCalls.count w.call = 1) ∧
    (∀ op, s1.ch.queue c op = []) ∧
    (∀ op, ∀ w ∈ s2.ch.queue c op, (s2.ch.waiter w).op = .other) ∧
    s2.ch.sent c = s.ch.sent c ∧
    (∀ o offer value, trySendLocked o s2 c offer value =
      .ok ({ s2 with ch := s2.ch.record (.closed c offer true) }, .closed)) ∧
    (∃ D, s2.ch.delivered c = s.ch.delivered c ++ D ∧
      D.map Prod.snd ++ (s2.ch.chan c).buffer = (s.ch.chan c).buffer) ∧
    (∀ o offer out, tryRecvLocked o s2 c offer out =
      match (s2.ch.chan c).buffer with
      | v :: rest => .ok ({ s2 with ch := s2.ch.tookBuffered c offer out v rest }, .value)
      | [] => .ok ({ s2 with ch := s2.ch.record (.closed c offer true) }, .closed)) ∧
    ∀ b s3, step s2 b = .ok s3 → ∀ e ∈ s3.ch.log, e ∉ s2.ch.log → e.RecvClosed c →
      (s2.ch.chan c).buffer = [] := by
  have h1 : NarrowRun backend s1 := .step h ha hclose
  have hclosing : Closing s s1 := by
    rcases step_form h hclose with hc | hu
    · refine (hc.closing_or_same (WaitInv.reach h)).resolve_right fun hsame => ?_
      exact absurd (hsame.1 c hclosed) (by rw [hopen]; simp)
    · rw [hu.ch, hopen] at hclosed
      exact absurd hclosed (by simp)
  obtain ⟨h2, hstill, hsent, hdrains, L, hlog⟩ := Machine.ReachVia.run_invariant
    (I := fun x => (x.ch.chan c).closed = true ∧ x.ch.sent c = s.ch.sent c ∧
      Drains c s.ch x.ch ∧ ∃ L, x.ch.log = s1.ch.log ++ L)
    (fun x b x' hx hI _ hstep => by
      obtain ⟨hc, hsent, hdrains, L, hlog⟩ := hI
      obtain ⟨L', hlog'⟩ := step_log hx hstep
      exact ⟨(step_stays hx hstep).1 c hc,
        (NarrowRun.sent_of_closed hx hstep (.inl hc)).trans hsent,
        hdrains.trans (NarrowRun.drains hx hstep (.inl hc)),
        L ++ L', by rw [hlog', hlog, List.append_assoc]⟩)
    l h1 ⟨hclosed, hclosing.still.sent c, .still hclosing.still (hclosing.contents c), [], by simp⟩
    (fun b hb _ => hl b hb) hrun
  have h2 : NarrowRun backend s2 := h2
  refine ⟨fun w hw hlive => ?_, hclosing.emptied c hopen hclosed,
    fun op w => h2.op_of_closed hstill, hsent, fun o offer value => ?_, hdrains,
    h2.recv_of_closed hstill, ?_⟩
  · have hwoken := hclosing.wokenClosed h h1 hopen hclosed hw hlive
    refine ⟨hwoken, List.count_eq_one_of_mem (CallInv.reach h2).woken.1 ?_⟩
    have hmem : w.call ∈ s1.ch.wokenCalls :=
      List.count_pos_iff.mp (by rw [hwoken.awake.2]; exact Nat.one_pos)
    unfold Chans.wokenCalls
    rw [hlog, List.filterMap_append]
    exact List.mem_append_left _ hmem
  · unfold trySendLocked
    simp [hstill, Sys.mapCh, pure, Except.pure]
  · intro b s3 hstep e he hnew hrecv
    obtain ⟨k, hk⟩ : ∃ k, e.returnedCall = some k := by
      cases e <;> first | exact ⟨_, rfl⟩ | exact hrecv.elim
    exact h2.empty_of_report ((step_reports h2 hstep he hk).resolve_left hnew) hrecv

/-- The main task waits in a select that offers to receive and to send on one channel, with a
third case on it that is neither. -/
def selectsOnBoth : List Action :=
  startUp 1 ++ dispatchOn 0 ++
    [.channelCreate (.external 0) 1 0 true,
      .select (.worker 0) [⟨some 0, .recv, 0⟩, ⟨some 0, .send, 1⟩, ⟨some 0, .other, 2⟩] false
        ⟨1, 0, true, true⟩ .calm] ++ handOver 0

theorem close_is_final_selects_on_both :
    ∃ s s1, NarrowRun .epoll s ∧ step s (.channelClose (.external 0) 0 .calm) = .ok s1 ∧
      s.ch.queue 0 .recv = [⟨0, 0⟩, ⟨0, 2⟩] ∧ s.ch.queue 0 .send = [⟨0, 1⟩] ∧
      WokenClosed s s1 ⟨0, 0⟩ ∧ WokenClosed s s1 ⟨0, 1⟩ ∧ WokenClosed s s1 ⟨0, 2⟩ ∧
      ∀ op, s1.ch.queue 0 op = [] := by
  have hrun : NarrowRun .epoll ((runtime .epoll).after (small 1) selectsOnBoth) :=
    .after (small_init 1 (by decide)) (by decide) (by decide +kernel)
  have hstep := Machine.step_eq_after (M := runtime .epoll)
    (s := (runtime .epoll).after (small 1) selectsOnBoth)
    (a := .channelClose (.external 0) 0 .calm) (by decide +kernel)
  obtain ⟨hwoken, hempty, _⟩ := close_is_final hrun (a := .channelClose (.external 0) 0 .calm) rfl
    hstep (c := 0) (by decide +kernel) (by decide +kernel) (l := []) (by simp) rfl
  exact ⟨_, _, hrun, hstep, by decide +kernel, by decide +kernel,
    (hwoken ⟨0, 0⟩ (by decide +kernel) (by decide +kernel)).1,
    (hwoken ⟨0, 1⟩ (by decide +kernel) (by decide +kernel)).1,
    (hwoken ⟨0, 2⟩ (by decide +kernel) (by decide +kernel)).1, hempty⟩

/-- A select of `2 ^ 32 + 1` cases links a waiter on a channel that is closed. -/
theorem wide_select_waits_on_closed :
    ∃ s, (runtime .epoll).Reach s ∧ (s.ch.chan 0).closed = true ∧
      s.ch.queue 0 .recv = [⟨0, 2 ^ 32⟩] ∧ (s.tasks 0).state = .waitingChannel := by
  obtain ⟨W, cases, hreach⟩ := @reach_wideSelect
    (oneChannel ++ [.channelClose (.external 0) 0 .calm]) [] 0 .recv 0
    (by decide +kernel) (by decide +kernel) (fun _ _ => rfl)
  exact ⟨_, hreach, rfl, rfl, rfl⟩

end Croutine
