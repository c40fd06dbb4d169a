import Croutine.WaitInv

/-!
# The history of blocking calls

Every call of the channel API takes the next number of a clock.  A call returns at most
once, its task is woken at most once while it is parked in it, and a task that is inside
a call has not returned from it.  From this and `WaitInv` it follows that no waiter
outlives its call and none refers to a channel that was destroyed.
-/

namespace Croutine

/-- The calls below `b` have been started. -/
structure CallInv (b : CallId) (κ : Chans) (tasks : TaskId → Task) : Prop where
  frames : ∀ t k, (tasks t).frame.call = some k → k < b
  inside : ∀ t k, (tasks t).frame.call = some k → k ∉ κ.returnedCalls
  returned : κ.returnedCalls.Nodup ∧ ∀ k ∈ κ.returnedCalls, k < b
  asleep : ∀ t k, (tasks t).state = .waitingChannel → (tasks t).frame.call = some k →
    k ∉ κ.wokenCalls
  woken : κ.wokenCalls.Nodup ∧ ∀ k ∈ κ.wokenCalls, k < b

/-- A new element at the end of a list without duplicates. -/
theorem nodup_snoc {α : Type} {l : List α} {a : α} (h : l.Nodup) (ha : a ∉ l) :
    (l ++ [a]).Nodup :=
  (List.perm_append_singleton a l).nodup_iff.mpr (List.nodup_cons.mpr ⟨ha, h⟩)

namespace CallInv

variable {b : CallId} {κ κ' : Chans} {tasks tasks' : TaskId → Task} {t : TaskId} {k : CallId}

/-- More calls may have been started. -/
theorem mono {b' : CallId} (h : CallInv b κ tasks) (hb : b ≤ b') : CallInv b' κ tasks :=
  ⟨fun t k hk => Nat.lt_of_lt_of_le (h.frames t k hk) hb, h.inside,
    ⟨h.returned.1, fun k hk => Nat.lt_of_lt_of_le (h.returned.2 k hk) hb⟩, h.asleep,
    ⟨h.woken.1, fun k hk => Nat.lt_of_lt_of_le (h.woken.2 k hk) hb⟩⟩

/-- Only the calls that were woken and that returned matter. -/
theorem congr (h : CallInv b κ tasks) (hwoken : κ'.wokenCalls = κ.wokenCalls)
    (hreturned : κ'.returnedCalls = κ.returnedCalls) : CallInv b κ' tasks := by
  refine ⟨h.frames, ?_, ?_, ?_, ?_⟩
  · rw [hreturned]; exact h.inside
  · rw [hreturned]; exact h.returned
  · rw [hwoken]; exact h.asleep
  · rw [hwoken]; exact h.woken

/-- A step that leaves frames and sleepers keeps the invariant. -/
theorem keeps (h : CallInv b κ tasks) (hk : KeepsChan tasks tasks') : CallInv b κ tasks' := by
  have hcall : ∀ u j, (tasks' u).frame.call = some j → (tasks u).frame.call = some j := by
    intro u j hu
    rw [← hk.frame_of_call hu]
    exact hu
  refine ⟨fun u j hu => h.frames u j (hcall u j hu), fun u j hu => h.inside u j (hcall u j hu),
    h.returned, fun u j hst hu => h.asleep u j ((hk.state u).mp hst) (hcall u j hu), h.woken⟩

/-- A live waiter is popped and its task woken. -/
theorem wake {w : WaiterId} {c : ChanId} {op : Direction} {rest : List WaiterId} {success : Bool}
    {status : SelectStatus} (h : CallInv b κ tasks) (hwait : WaitInv κ tasks)
    (hqueue : κ.queue c op = w :: rest) (hwoke : WokeTask (κ.waiter w).task tasks tasks') :
    CallInv b (κ.popWoken c op w rest success status) tasks' := by
  have hwoken : (κ.popWoken c op w rest success status).wokenCalls = κ.wokenCalls ++ [w.call] :=
    Chans.wokenCalls_popWoken
  have hreturned : (κ.popWoken c op w rest success status).returnedCalls = κ.returnedCalls := by
    unfold Chans.returnedCalls
    rw [Chans.log_popWoken, List.filterMap_append]
    simp [Event.returnedCall]
  have hlink := hwait.linked_head hqueue
  have hcall := hwait.owner_call hlink
  have hnew : w.call ∉ κ.wokenCalls := h.asleep _ _ hwoke.waited hcall
  refine ⟨?_, ?_, ?_, ?_, ?_⟩
  · intro u j hu
    rw [hwoke.frame] at hu
    exact h.frames u j hu
  · intro u j hu
    rw [hwoke.frame] at hu
    rw [hreturned]
    exact h.inside u j hu
  · rw [hreturned]; exact h.returned
  · intro u j hst hu
    obtain ⟨hne, hold⟩ := hwoke.still hst
    rw [hwoke.frame] at hu
    rw [hwoken, List.mem_append, List.mem_singleton, not_or]
    refine ⟨h.asleep u j hold hu, ?_⟩
    rintro rfl
    exact hne (hwait.unique _ _ _ hu hcall)
  · rw [hwoken]
    refine ⟨nodup_snoc h.woken.1 hnew, fun j hj => ?_⟩
    rcases List.mem_append.mp hj with hj | hj
    · exact h.woken.2 j hj
    · rw [List.mem_singleton] at hj
      rw [hj]
      exact h.frames _ _ hcall

/-- Moves of waiters keep the invariant. -/
theorem moves {s s' : Sys} (h : CallInv b s.ch s.tasks) (hwait : WaitInv s.ch s.tasks)
    (hmoves : WaitMoves s s') : CallInv b s'.ch s'.tasks := by
  refine (hmoves.invariant (I := fun x => WaitInv x.ch x.tasks ∧ CallInv b x.ch x.tasks) ?_
    ⟨hwait, h⟩).2
  intro x x' ⟨hw, hx⟩ hmove
  refine ⟨hw.move hmove, ?_⟩
  cases hmove with
  | quiet hsame => exact hx.congr hsame.woken hsame.returned
  | dead hqueue hdead => exact hx.congr rfl rfl
  | wake hqueue hlive hwake =>
      have hwoke := workerWakeTaskLocked_task hwake
      exact hx.wake hw hqueue hwoke

/-- The newest call returns without having parked. -/
theorem returnedAtOnce {e : Event} (h : CallInv b κ tasks) (he : e.returnedCall = some b)
    (hw : e.wokenCall = none) : CallInv (b + 1) (κ.record e) tasks := by
  have hnew : b ∉ κ.returnedCalls := fun hmem => Nat.lt_irrefl _ (h.returned.2 b hmem)
  have hreturned : (κ.record e).returnedCalls = κ.returnedCalls ++ [b] :=
    Chans.returnedCalls_record he
  have hwoken : (κ.record e).wokenCalls = κ.wokenCalls := Chans.wokenCalls_record hw
  have h' := h.mono (Nat.le_succ b)
  refine ⟨h'.frames, ?_, ?_, ?_, ?_⟩
  · intro u j hu
    rw [hreturned, List.mem_append, List.mem_singleton, not_or]
    exact ⟨h.inside u j hu, fun heq => Nat.lt_irrefl _ (heq ▸ h.frames u j hu)⟩
  · rw [hreturned]
    refine ⟨nodup_snoc h.returned.1 hnew, fun j hj => ?_⟩
    rcases List.mem_append.mp hj with hj | hj
    · exact h'.returned.2 j hj
    · rw [List.mem_singleton] at hj
      rw [hj]
      exact Nat.lt_succ_self b
  · rw [hwoken]; exact h'.asleep
  · rw [hwoken]; exact h'.woken

/-- A task enters the newest call. -/
theorem enter {τ : Task} (h : CallInv b κ tasks) (hcall : τ.frame.call = some b) :
    CallInv (b + 1) κ (Function.update tasks t τ) := by
  have h' := h.mono (Nat.le_succ b)
  refine ⟨?_, ?_, h'.returned, ?_, h'.woken⟩ <;> intro u j <;> by_cases hu : u = t
  · subst hu
    rw [Function.update_self, hcall]
    rintro ⟨⟩
    exact Nat.lt_succ_self b
  · rw [Function.update_of_ne hu]
    exact h'.frames u j
  · subst hu
    rw [Function.update_self, hcall]
    rintro ⟨⟩ hmem
    exact Nat.lt_irrefl _ (h.returned.2 b hmem)
  · rw [Function.update_of_ne hu]
    exact h'.inside u j
  · subst hu
    rw [Function.update_self, hcall]
    rintro _ ⟨⟩ hmem
    exact Nat.lt_irrefl _ (h.woken.2 b hmem)
  · rw [Function.update_of_ne hu]
    exact h'.asleep u j

/-- A task returns from the call it is in. -/
theorem leave {τ : Task} {e : Event} (h : CallInv b κ tasks)
    (hunique : ∀ u, (tasks u).frame.call = some k → u = t)
    (hk : (tasks t).frame.call = some k) (he : e.returnedCall = some k) (hw : e.wokenCall = none)
    (hτ : τ.frame.call = none) : CallInv b (κ.record e) (Function.update tasks t τ) := by
  have hreturned : (κ.record e).returnedCalls = κ.returnedCalls ++ [k] :=
    Chans.returnedCalls_record he
  have hwoken : (κ.record e).wokenCalls = κ.wokenCalls := Chans.wokenCalls_record hw
  have hframe := fun u j => WaitInv.call_of_left tasks t u j hτ
  refine ⟨fun u j hu => h.frames u j (hframe u j hu).2, ?_, ?_, ?_, ?_⟩
  · intro u j hu
    obtain ⟨hut, hold⟩ := hframe u j hu
    rw [hreturned, List.mem_append, List.mem_singleton, not_or]
    refine ⟨h.inside u j hold, ?_⟩
    rintro rfl
    exact hut (hunique u hold)
  · rw [hreturned]
    refine ⟨nodup_snoc h.returned.1 (h.inside t k hk), fun j hj => ?_⟩
    rcases List.mem_append.mp hj with hj | hj
    · exact h.returned.2 j hj
    · rw [List.mem_singleton] at hj
      rw [hj]
      exact h.frames t k hk
  · intro u j hst hu
    obtain ⟨hut, hold⟩ := hframe u j hu
    rw [Function.update_of_ne hut] at hst
    rw [hwoken]
    exact h.asleep u j hst hold
  · rw [hwoken]; exact h.woken

/-- The tail of a call that was started in `s`, after an attempt that moved waiters. -/
theorem attempt {s s1 : Sys} (h : CallInv s.ch.clock s.ch s.tasks) (hwait : WaitInv s.ch s.tasks)
    (hmoves : WaitMoves s.ticked s1) :
    CallInv s.ch.clock s1.ch s1.tasks ∧ s.ch.clock + 1 ≤ s1.ch.clock := by
  have hticked : CallInv s.ch.clock s.ticked.ch s.ticked.tasks := h.congr rfl rfl
  exact ⟨hticked.moves hwait.ticked hmoves, hmoves.keeps.2.2.1⟩

/-- Parking a send or a receive keeps the invariant. -/
theorem parkOn {s s1 : Sys} {w : WorkerId} {op : Direction} {c : ChanId} {slot : Addr}
    (h : CallInv s.ch.clock s.ch s.tasks) (hwait : WaitInv s.ch s.tasks)
    (hmoves : WaitMoves s.ticked s1) (hrun : s1.shutdownRequested = false) :
    CallInv (parkOnChannel s1 w t op s.ch.clock c slot).ch.clock
      (parkOnChannel s1 w t op s.ch.clock c slot).ch
      (parkOnChannel s1 w t op s.ch.clock c slot).tasks := by
  obtain ⟨h1, hclock⟩ := h.attempt hwait hmoves
  obtain ⟨hch, htasks⟩ := @parkOnChannel_eq s1 w t op s.ch.clock c slot hrun
  have honly := Chans.OnlyQueues.park s1.ch c ⟨s.ch.clock, 0⟩
    { kind := .regular, op := op, task := t, valueSlot := slot }
  rw [hch, htasks, honly.clock]
  refine CallInv.mono (CallInv.enter (CallInv.congr h1 ?_ ?_) rfl) hclock
  · unfold Chans.wokenCalls
    rw [honly.log]
  · unfold Chans.returnedCalls
    rw [honly.log]

/-- **Calls, step.** Every channel step keeps the invariant. -/
theorem chanStep {P : List SelectCase → Prop} {s s' : Sys} {a : Action}
    (h : CallInv s.ch.clock s.ch s.tasks) (hwait : WaitInv s.ch s.tasks)
    (hrunning : ∀ w t, s.wk.pc w = .running t → (s.tasks t).state = .runnable)
    (hstep : ChanStep P s a s') : CallInv s'.ch.clock s'.ch s'.tasks := by
  cases hstep with
  | userWrite a bs => exact h.congr rfl rfl
  | create hlock elemSize capacity allocOk =>
      unfold croutineChannelCreate
      split
      · exact h
      · exact h.congr rfl rfl
  | destroy hlock hc =>
      unfold croutineChannelDestroy
      split
      · exact h.congr rfl rfl
      · exact h
  | trySend hlock hc htry =>
      obtain ⟨h1, hclock⟩ := h.attempt hwait htry.moves
      exact h1.mono (Nat.le_of_succ_le hclock)
  | sendReturn hlock hc htry htask =>
      obtain ⟨h1, hclock⟩ := h.attempt hwait htry.moves
      exact (h1.returnedAtOnce rfl rfl).mono hclock
  | sendPark hlock hc htry hpc hframe => exact h.parkOn hwait htry.moves htry.blocked_running
  | tryRecv hlock hc htry =>
      obtain ⟨h1, hclock⟩ := h.attempt hwait htry.moves
      exact h1.mono (Nat.le_of_succ_le hclock)
  | recvReturn hlock hc htry htask =>
      obtain ⟨h1, hclock⟩ := h.attempt hwait htry.moves
      exact (h1.returnedAtOnce rfl rfl).mono hclock
  | recvPark hlock hc htry hpc hframe => exact h.parkOn hwait htry.moves htry.blocked_running
  | close hlock hc hclose =>
      have hmoves := channelCloseLocked_moves hclose
      exact (h.moves hwait hmoves).mono hmoves.keeps.2.2.1
  | @shutdown hlock a ha o θ s1 life hlife hclose =>
      have hmoves := croutineChannelShutdownAllLocked_moves hclose
      have h0 : CallInv s.ch.clock { s with shutdownRequested := true }.ch
          { s with shutdownRequested := true }.tasks := h
      have h1 : CallInv s1.ch.clock s1.ch s1.tasks :=
        (h0.moves hwait hmoves).mono hmoves.keeps.2.2.1
      exact h1
  | selectEmpty hlock =>
      have h0 : CallInv s.ch.clock s.ch.tick s.tasks := h.congr rfl rfl
      exact h0.returnedAtOnce rfl rfl
  | selectFired hlock hP hreg htry | selectDefault hlock hP hreg htry hwhy =>
      obtain ⟨h1, hclock⟩ := h.attempt hwait (selectTryCases_moves htry)
      exact (h1.returnedAtOnce rfl rfl).mono hclock
  | @selectPark hlock hasDefault o choice cases s1 w t hP hreg htry hsome hpc hact =>
      obtain ⟨h1, hclock⟩ := h.attempt hwait (selectTryCases_moves htry)
      have honly := selectRegister_only (t := t) (k := s.ch.clock) cases 0
        (s1.ch.setSelect s.ch.clock {})
      have hpark : ∀ {τ : Task}, τ.frame.call = some s.ch.clock →
          CallInv (selectRegister t s.ch.clock 0 cases (s1.ch.setSelect s.ch.clock {})).clock
            (selectRegister t s.ch.clock 0 cases (s1.ch.setSelect s.ch.clock {}))
            (Function.update s1.tasks t τ) := by
        intro τ hτ
        rw [honly.clock]
        refine CallInv.mono (CallInv.enter (CallInv.congr h1 ?_ ?_) hτ) hclock
        · unfold Chans.wokenCalls
          rw [honly.log]
          rfl
        · unfold Chans.returnedCalls
          rw [honly.log]
          rfl
      unfold workerParkCurrentOnChannelLocked
      split
      · exact hpark rfl
      · exact hpark rfl
  | @returnSingle w t op call c parked hpc hframe hlock =>
      have hcall : (s.tasks t).frame.call = some call := by rw [hframe]; rfl
      rw [hwait.returnFromSingle_eq (hrunning w t hpc) hframe]
      refine h.leave (fun u hu => hwait.unique u t call hu hcall) hcall
        (singleReturned_returnedCall _ _ _ _) ?_ rfl
      cases op <;> rfl
  | @returnSelect w t call cases parked hpc hframe hlock =>
      have hcall : (s.tasks t).frame.call = some call := by rw [hframe]; rfl
      have honly := (Scrubbed.scrubSelectWaiters hwait.linked call cases.length).1.only
      obtain ⟨index, status, heq⟩ := WaitInv.returnFromSelect_eq s.ch call cases
        (parked && (s.tasks t).channelWakeSuccess)
      have hscrub : CallInv s.ch.clock (scrubSelectWaiters call cases.length s.ch) s.tasks := by
        refine h.congr ?_ ?_
        · unfold Chans.wokenCalls
          rw [honly.log]
        · unfold Chans.returnedCalls
          rw [honly.log]
      rw [heq]
      show CallInv (scrubSelectWaiters call cases.length s.ch).clock _ _
      rw [honly.clock]
      exact hscrub.leave (fun u hu => hwait.unique u t call hu hcall) hcall rfl rfl rfl

theorem initial (backend : Backend) (wakeFd : Int) (workers runCapacity ioCapacity : Nat) :
    CallInv 0 (Croutine.initial backend wakeFd workers runCapacity ioCapacity).ch
      (Croutine.initial backend wakeFd workers runCapacity ioCapacity).tasks := by
  refine ⟨?_, ?_, ?_, ?_, ?_⟩ <;>
    simp [Croutine.initial, Frame.call, Chans.returnedCalls, Chans.wokenCalls]

/-- **The history of calls** is consistent in every state of every run. -/
theorem reach {backend : Backend} {allowed : Sys → Action → Prop} {s : Sys}
    (h : (runtime backend).ReachVia allowed s) : CallInv s.ch.clock s.ch s.tasks := by
  refine Machine.ReachVia.invariant (I := fun x => CallInv x.ch.clock x.ch x.tasks) ?_ ?_ h
  · intro x hx
    obtain ⟨wakeFd, workers, runCapacity, ioCapacity, _, _, rfl⟩ := hx
    exact initial backend wakeFd workers runCapacity ioCapacity
  · intro x a x' hreach hx _ hstep
    rcases step_chan hreach hstep with hc | hu
    · exact hx.chanStep (WaitInv.reach hreach) (fun w t hpc => running_runnable hreach hpc) hc
    · rw [hu.ch]
      exact hx.keeps hu.tasks

end CallInv

end Croutine
