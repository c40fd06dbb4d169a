import Croutine.Readiness
import Croutine.Sleep
import Croutine.WorkerMoves

/-!
# Level-triggered events do not spin

An epoll registration reports as long as its descriptor is ready.  An event that wakes
nobody would leave the registration as it is, and the next wait would report it again at
once.  Between the report and the moment its event is applied other tasks park and run, but
a registration only goes away when its descriptor is forgotten or an event is applied, and
there is one worker with a batch.  So an event that was reported for what the parked tasks
asked for still finds one of them.
-/

namespace Croutine

/-! ## What the kernel may report -/

/-- A report within the requested bits, errors and hang-ups means a direction that was
requested. -/
theorem fromEpollEvents_meets {events : IoEvents} {mask : EpollMask} (hevents : events ≠ .none)
    (hmask : mask ≠ .empty) (hsub : mask.inter (toEpollEvents events).withErrors = mask) :
    ∃ d, (fromEpollEvents mask).has d = true ∧ events.has d = true := by
  obtain ⟨input, pri, rdhup, output, err, hup⟩ := mask
  obtain ⟨read, write⟩ := events
  simp only [EpollMask.inter, toEpollEvents, EpollMask.withErrors, EpollMask.mk.injEq] at hsub
  obtain ⟨hin, hpri, hrd, hout, _, _⟩ := hsub
  cases read with
  | true =>
      cases write with
      | true =>
          -- both directions were requested, so any bit will do
          cases input <;> cases pri <;> cases rdhup <;> cases output <;> cases err <;> cases hup <;>
            first | exact absurd rfl hmask | exact ⟨.read, rfl, rfl⟩ | exact ⟨.write, rfl, rfl⟩
      | false =>
          rw [Bool.and_false] at hout
          subst hout
          refine ⟨.read, ?_, rfl⟩
          cases input <;> cases pri <;> cases rdhup <;> cases err <;> cases hup <;>
            first | exact absurd rfl hmask | rfl
  | false =>
      rw [Bool.and_false] at hin hpri hrd
      subst hin hpri hrd
      cases write with
      | true =>
          refine ⟨.write, ?_, rfl⟩
          cases output <;> cases err <;> cases hup <;> first | exact absurd rfl hmask | rfl
      | false => exact absurd rfl hevents

/-- An event of a descriptor is on its way: the registration of its period is in force, and
a task is parked in one of its directions. -/
structure UnderWay (fd : Int) (ready : IoEvents) (period : Nat) (s : Sys) : Prop where
  inForce : ∃ r, s.poller.interest fd = some r ∧ r.period = period
  awaited : ∃ d t, ready.has d = true ∧ s.io.slot fd d = some t

/-- A report on epoll is one of a registration in force. -/
theorem Poller.report_epoll {p : Poller} {wakePending : Bool} {fd : Int} {mask : EpollMask}
    {raw : RawEvent} (hb : p.backend = .epoll)
    (h : p.report wakePending (.epoll fd mask) = some raw) :
    ∃ r, p.interest fd = some r ∧ raw = .epoll r.token mask r.period ∧ mask ≠ .empty ∧
      mask.inter r.mask.withErrors = mask := by
  unfold Poller.report at h
  dsimp only at h
  rw [hb] at h
  cases hr : p.interest fd with
  | none =>
      rw [hr] at h
      exact absurd h (by simp)
  | some r =>
      rw [hr] at h
      dsimp only at h
      split at h
      · next hmask =>
        obtain ⟨hne, hsub⟩ := hmask
        refine ⟨r, rfl, (Option.some.inj h).symm, hne, ?_⟩
        unfold Poller.reportable at hsub
        rw [hb, hr] at hsub
        obtain ⟨input, pri, rdhup, output, err, hup⟩ := mask
        simp only [EpollMask.inter, EpollMask.mk.injEq] at hsub ⊢
        simp_all
      · exact absurd h (by simp)

/-- **A report finds a task** that is parked in one of its directions. -/
theorem TaskInv.underWay_of_report {s : Sys} {fd : Int} {mask : EpollMask} {raw : RawEvent}
    {wakePending : Bool} (h : TaskInv s) (hlife : s.life ≠ .drained)
    (hb : s.poller.backend = .epoll)
    (hreport : s.poller.report wakePending (.epoll fd mask) = some raw) :
    ∃ r, s.poller.interest fd = some r ∧ raw = .epoll r.token mask r.period ∧
      UnderWay fd (fromEpollEvents mask) r.period s := by
  obtain ⟨r, hr, hraw, hmask, hsub⟩ := Poller.report_epoll hb hreport
  refine ⟨r, hr, hraw, ⟨r, hr, rfl⟩, ?_⟩
  have hwatch := (Poller.watches_epoll hb).mp (h.watch hlife fd)
  rw [hr, Option.map_some] at hwatch
  split at hwatch
  · exact absurd hwatch (by simp)
  · next hevents =>
    rw [Option.some.inj hwatch] at hsub
    obtain ⟨d, hd, hev⟩ := fromEpollEvents_meets hevents hmask hsub
    rw [IoWaitTable.events_has] at hev
    obtain ⟨t, ht⟩ := Option.isSome_iff_exists.mp hev
    exact ⟨d, t, hd, ht⟩

/-! ## While the event is on its way -/

theorem Pc.alive_of_polls {pc : Pc} (h : pc.polls = true) : pc.alive = true := by
  cases pc with
  | polling timeout | polled raw | filtered events | pollError => rfl
  | _ => exact absurd h Bool.false_ne_true

namespace UnderWay

variable {fd : Int} {ready : IoEvents} {period : Nat} {s s' : Sys} {a : Action}

/-- A change of another descriptor's interest. -/
theorem other {g : Int} {old new : IoEvents} {ok : Bool} (h : UnderWay fd ready period s)
    (hg : fd ≠ g) (hset : EpollSet s.poller g old new s'.poller ok)
    (hslot : ∀ d, s'.io.slot fd d = s.io.slot fd d) : UnderWay fd ready period s' := by
  obtain ⟨⟨r, hr, hperiod⟩, d, t, hd, ht⟩ := h
  refine ⟨⟨r, ?_, hperiod⟩, d, t, hd, by rw [hslot]; exact ht⟩
  rw [hset.interest.2.2.1 fd hg]
  exact hr

/-- A park of another task. -/
theorem park {o : Oracle} {w : WorkerId} {t : TaskId} {g : Int} {d : Filter}
    (h : UnderWay fd ready period s) (ht : TaskInv s) (ht' : TaskInv s')
    (hb : s.poller.backend = .epoll) (hlife : s.life ≠ .drained)
    (hrun : (s.tasks t).state = .runnable) (hpark : IoPark o s w t g d s') :
    UnderWay fd ready period s' := by
  obtain ⟨⟨r, hr, hperiod⟩, d', u, hd', hu⟩ := h
  have hwait := (ht.agree.slots fd d' u).mp hu
  have hwatch := (Poller.watches_epoll hb).mp (ht.watch hlife fd)
  rw [hr, Option.map_some] at hwatch
  have hbusy : s.io.events fd ≠ .none := by
    intro habs
    rw [if_pos habs] at hwatch
    exact absurd hwatch (by simp)
  cases hpark with
  | @refused io poller hvalid hlook hpoller =>
      refine ⟨⟨r, ?_, hperiod⟩, d', u, hd', ?_⟩
      · rcases hpoller with rfl | hset
        · exact hr
        · rw [(croutinePollerSet_epoll hb hset).interest.2.2.2 rfl]
          exact hr
      · show io.slot fd d' = some u
        rw [IoWaitTable.slot, hlook]
        exact hu
  | @parked hstop io i e poller hins hfree hset =>
      have hut : u ≠ t := by
        rintro rfl
        rw [hwait.1] at hrun
        exact absurd hrun (by simp)
      refine ⟨?_, d', u, hd', (ht'.agree.slots fd d' u).mpr ?_⟩
      · have hepoll := croutinePollerSet_epoll hb hset
        rw [← hins.events] at hepoll
        show ∃ r', poller.interest fd = some r' ∧ r'.period = period
        by_cases hg : fd = g
        · subst hg
          cases hepoll with
          | same heq => exact ⟨r, hr, hperiod⟩
          | deleted hnone =>
              exact absurd ((IoEvents.eq_none_iff _).mp hnone d) (by
                cases d <;> simp [IoEvents.union, IoEvents.put, IoEvents.has])
          | added hold hnew hgrown hfree' => exact absurd hold hbusy
          | @modified hold hnew r' hreg =>
              rw [hr] at hreg
              cases hreg
              exact ⟨_, Function.update_self .., hperiod⟩
        · rw [hepoll.interest.2.2.1 fd hg]
          exact ⟨r, hr, hperiod⟩
      · show Task.WaitsFor (Function.update s.tasks t _ u) fd d'
        rw [Function.update_of_ne hut]
        exact hwait

/-- A wake of another descriptor's tasks. -/
theorem wakeOther {o : Oracle} {g : Int} {ready' : IoEvents} {success : Bool} {period' n : Nat}
    (h : UnderWay fd ready period s) (ht : TaskInv s) (hb : s.poller.backend = .epoll)
    (hlock : s.wk.lock = none) (hg : fd ≠ g)
    (hwake : wakeWaitingTasksLocked o s g ready' success period' = .ok (s', n)) :
    UnderWay fd ready period s' := by
  obtain ⟨_, woken, _, hdelivered⟩ := ht.wakeIo_delivers hlock hwake
  have hslot : ∀ d, s'.io.slot fd d = s.io.slot fd d := fun d =>
    hdelivered.others fd d fun habs => hg habs.1
  rcases (ht.wakeIo_effect hb hwake).poller with hsame | ⟨_, new, hset⟩
  · obtain ⟨hforce, d, t, hd, hslotd⟩ := h
    exact ⟨by rw [hsame]; exact hforce, d, t, hd, by rw [hslot]; exact hslotd⟩
  · exact h.other hg hset hslot

/-- **The event stays on its way** as long as its descriptor is not forgotten and the worker
that has it does not apply it. -/
theorem step {w : WorkerId} (h : UnderWay fd ready period s)
    (hreach : (runtime .epoll).Reach s) (hw : (s.wk.pc w).polls = true)
    (hs : (runtime .epoll).step s a = .ok s') (hforget : ∀ θ o, a ≠ .forgetFd θ fd o)
    (happly : ∀ o, a ≠ .pollReturn w o) : UnderWay fd ready period s' := by
  have hlife := LifeInv.reach hreach
  have hwork := hlife.working_of_alive (Pc.alive_of_polls hw)
  have hnotDown : s.life ≠ .down := by
    intro habs
    rw [habs] at hwork
    exact absurd hwork (by simp [Lifecycle.working])
  have hdown : s'.life ≠ .down := by
    intro habs
    rw [(step_ends hs hnotDown habs).1] at hwork
    exact absurd hwork (by simp [Lifecycle.working])
  have ht := TaskInv.reach hreach hnotDown
  have hreach' : (runtime .epoll).Reach s' := .step hreach trivial hs
  have ht' := TaskInv.reach hreach' hdown
  have hb := backend_reach hreach hnotDown
  cases step_ioMove hs ht.agree hlife hdown with
  | quiet hio hpoller =>
      obtain ⟨hforce, hawaited⟩ := h
      exact ⟨by rw [hpoller]; exact hforce, by rw [hio]; exact hawaited⟩
  | ready mask hio hpoller =>
      obtain ⟨hforce, hawaited⟩ := h
      exact ⟨by rw [hpoller]; exact hforce, by rw [hio]; exact hawaited⟩
  | @forget o θ g s1 n ha hlock hwake hio hpoller =>
      have hg : fd ≠ g := by
        rintro rfl
        exact hforget θ o ha
      obtain ⟨hforce, hawaited⟩ := h.wakeOther ht hb hlock hg hwake
      exact ⟨by rw [hpoller]; exact hforce, by rw [hio]; exact hawaited⟩
  | park hint hl hpc hpark => exact h.park ht ht' hb hl (ht.running hpc).1 hpark
  | @batch o v events s1 ha hpc hlock hbatch hio hpoller =>
      have hv : v = w := (SleepInv.reach hreach).roles.single v w (by rw [hpc]; rfl) hw
      subst hv
      exact absurd ha (happly o)
  | drain hl hpoller =>
      rw [hl] at hwork
      exact absurd hwork (by simp [Lifecycle.working])

end UnderWay

/-! ## The worker with the batch -/

theorem Pc.signal_of_carries {pc : Pc} (h : pc.eventless = false) : pc.signal = pc := by
  cases pc with
  | condWait signalled checked => exact absurd h (by simp [Pc.eventless])
  | _ => rfl

/-- The batch of a worker stays with it until it applies it; the filter replaces it once. -/
theorem step_carries {a : Action} {s s' : Sys} {w : WorkerId} (h : step s a = .ok s')
    (hagree : IoAgree s.tasks s.io) (hlife : LifeInv s) (hw : (s.wk.pc w).eventless = false) :
    s'.wk.pc w = s.wk.pc w ∨
    (∃ raw, s.wk.pc w = .polled raw ∧
      s'.wk.pc w = .filtered (pollerTranslate s.poller [] raw)) ∨
    ∃ o, a = .pollReturn w o := by
  rcases step_moved h hagree w with hsame | hsignal | hmove
  · exact .inl hsame
  · exact .inl (hsignal.trans (Pc.signal_of_carries hw))
  · generalize hpc : s.wk.pc w = p at hmove hw
    generalize hpc' : s'.wk.pc w = p' at hmove
    cases hmove with
    | start hl =>
        -- a worker that is started now has no batch yet
        have hstarted := hlife.started w fun habs => by
          rw [hpc.symm.trans habs] at hw
          exact absurd hw (by simp [Pc.eventless])
        rw [hl] at hstarted
        exact absurd hstarted (Nat.lt_irrefl w)
    | @filterBatch raw events =>
        refine .inr (.inl ⟨raw, rfl, ?_⟩)
        rw [← hpc']
        cases step_filterBatch_ok h with
        | filterBatch hraw =>
            cases hpc.symm.trans hraw
            exact Function.update_self ..
    | pollReturn hsched => exact .inr (.inr ⟨_, rfl⟩)
    | _ => exact absurd hw (by simp [Pc.eventless])

/-! ## The place of the event in the batch -/

theorem mapM_split {α β : Type} {f : α → Option β} {l1 l2 : List α} {x : α} {l : List β}
    (h : (l1 ++ x :: l2).mapM f = some l) :
    ∃ k1 y k2, l1.mapM f = some k1 ∧ f x = some y ∧ l = k1 ++ y :: k2 := by
  rw [List.mapM_append, List.mapM_cons] at h
  obtain ⟨k1, hk1, h⟩ := Option.bind_eq_some_iff.mp h
  obtain ⟨rest, hrest, h⟩ := Option.bind_eq_some_iff.mp h
  obtain ⟨y, hy, hrest⟩ := Option.bind_eq_some_iff.mp hrest
  obtain ⟨k2, _, hrest⟩ := Option.bind_eq_some_iff.mp hrest
  cases Option.some.inj hrest
  exact ⟨k1, y, k2, hk1, hy, (Option.some.inj h).symm⟩

/-- An event that leaves the filter is about the descriptor it was reported for. -/
theorem Filed.pass_fd {p q : Poller} {wakePending : Bool} {x : Reported} {y : RawEvent}
    {e : PollEvent} (hp : Filed p) (hx : p.report wakePending x = some y)
    (he : y.pass q = some e) : ∃ mask, x = .epoll e.fd mask := by
  have hb := hp.registered.backend
  cases x with
  | wake =>
      unfold Poller.report at hx
      dsimp only at hx
      rw [hb] at hx
      split at hx
      · rw [← Option.some.inj hx] at he
        simp [RawEvent.pass] at he
      · exact absurd hx (by simp)
  | kevent fd filter eof error =>
      unfold Poller.report at hx
      dsimp only at hx
      rw [hb] at hx
      simp at hx
  | epoll fd mask =>
      obtain ⟨r, hr, rfl, _⟩ := Poller.report_epoll hb hx
      obtain ⟨hlt, hin, _, htoken⟩ := hp.registered.entry fd r hr
      rw [RawEvent.pass] at he
      split at he
      · exact absurd he (by simp)
      · refine ⟨mask, ?_⟩
        rw [epollTranslate_fd he, htoken, tokenFd_fdToken (Poller.inTable_iff.mp hin).1 hlt]

/-- **The filter lets the event pass** while its registration is in force, and no earlier
event of the batch is about its descriptor, of which the kernel reports one. -/
theorem Filed.event_passes {p q : Poller} (hp : Filed p) (hq : Filed q) (hlater : p.Later q)
    {wakePending : Bool}
    {batch : List Reported} {raw : List RawEvent} {fd : Int} {mask : EpollMask}
    {r : Registration} (hraw : batch.mapM (p.report wakePending) = some raw)
    (hnodup : batch.Nodup) (hmem : .epoll fd mask ∈ batch)
    (honce : ∀ mask', .epoll fd mask' ∈ batch → mask' = mask) (hr : p.interest fd = some r)
    (hforce : ∃ r', q.interest fd = some r' ∧ r'.period = r.period)
    (hready : fromEpollEvents mask ≠ .none) :
    ∃ before after, pollerTranslate q [] raw =
        before ++ ⟨fd, fromEpollEvents mask, r.period⟩ :: after ∧ ∀ e ∈ before, e.fd ≠ fd := by
  have hb := hp.registered.backend
  have hepoll : ∀ x ∈ raw, x.isKevent = false := fun x hx => by
    obtain ⟨y, _, hy⟩ := mem_of_mapM hraw x hx
    exact (hp.registered.report hy).not_kevent
  obtain ⟨b1, b2, rfl⟩ := List.append_of_mem hmem
  obtain ⟨raw1, y, raw2, hraw1, hy, rfl⟩ := mapM_split hraw
  obtain ⟨r1, hr1, hyeq, _⟩ := Poller.report_epoll hb hy
  rw [hr] at hr1
  cases hr1
  have hpass : y.pass q = some ⟨fd, fromEpollEvents mask, r.period⟩ := by
    obtain ⟨hlt, hin, ⟨hle, hbegan⟩, htoken⟩ := hp.registered.entry fd r hr
    obtain ⟨hpos, hcap⟩ := Poller.inTable_iff.mp hin
    obtain ⟨r', hr', hperiod'⟩ := hforce
    obtain ⟨_, _, ⟨_, hbegan'⟩, _⟩ := hq.registered.entry fd r' hr'
    rw [hperiod'] at hbegan'
    rw [hp.registered.generation _ hcap, ← hbegan, ← hlater.began _ hle] at htoken
    rw [hyeq, RawEvent.pass, htoken, if_neg (fdToken_ne_wakeToken _ hpos hlt),
      hq.translate hpos hlt (hlater.begun fd _ (hp.registered.begun hr)) (by omega), if_pos]
    exact ⟨by rw [hr', Option.map_some, hperiod'], hready⟩
  refine ⟨raw1.filterMap (RawEvent.pass q), raw2.filterMap (RawEvent.pass q), ?_, ?_⟩
  · rw [pollerTranslate_epoll q _ [] hepoll, List.nil_append, List.filterMap_append,
      List.filterMap_cons, hpass]
  · intro e he hfd
    obtain ⟨x, hx, hxe⟩ := List.mem_filterMap.mp he
    obtain ⟨b, hb1, hbx⟩ := mem_of_mapM hraw1 x hx
    obtain ⟨mask', rfl⟩ := hp.pass_fd hbx hxe
    rw [hfd] at hb1
    rw [honce mask' (List.mem_append_left _ hb1)] at hb1
    exact (List.nodup_append'.mp hnodup).2.2 hb1 List.mem_cons_self

/-! ## Applying the event -/

/-- The epoll poller takes every change of a watched descriptor that is not refused. -/
theorem Filed.adjusts {o : PollerOracle} {p : Poller} {fd : Int} (h : Filed p)
    (hok : ∀ old new, o.ctlOk fd old new = true) : Adjusts o p fd := by
  have hb := h.registered.backend
  intro old new hwatch hnone
  unfold croutinePollerSet pollerSetLocked
  rw [hb]
  dsimp only
  by_cases heq : old = new
  · rw [if_pos heq]
  rw [if_neg heq]
  by_cases hnew : new = .none
  · rw [if_pos hnew]
    unfold Poller.ctlDel
    cases p.interest fd <;> simp [hok]
  rw [if_neg hnew]
  have hold : old ≠ .none := fun habs => hnew (hnone habs)
  rw [if_neg hold]
  rw [Poller.watches_epoll hb, if_neg hold, Option.map_eq_some_iff] at hwatch
  obtain ⟨r, hr, _⟩ := hwatch
  obtain ⟨_, hin, _, _⟩ := h.registered.entry fd r hr
  have hflag := (h.flagged fd hin).mpr ⟨r, hr⟩
  rw [if_neg (by simp [hin, hflag])]
  unfold Poller.ctlMod
  rw [hr]
  simp [hok]

/-- What a worker needs to apply the event: it is on its way, and the state is in order. -/
structure Applicable (fd : Int) (ready : IoEvents) (period : Nat) (s : Sys) : Prop where
  underWay : UnderWay fd ready period s
  tasks : TaskInv s
  lock : s.wk.lock = none
  ring : 0 < s.runq.capacity
  poller : pollerCalls.Reach s.poller

namespace Applicable

variable {fd : Int} {ready : IoEvents} {period : Nat} {s s' : Sys} {o : Oracle}

/-- Earlier events of the batch are about other descriptors. -/
theorem batch {events : List PollEvent} (h : Applicable fd ready period s)
    (hother : ∀ e ∈ events, e.fd ≠ fd)
    (hbatch : events.foldlM (applyPollEvent o) s = .ok s') : Applicable fd ready period s' := by
  refine Res.foldlM_induct_mem (I := Applicable fd ready period) events ?_ h hbatch
  intro x e x' he hx hstep
  obtain ⟨n, hwake⟩ := applyPollEvent_ok hstep
  have hb := (Filed.reach hx.poller).registered.backend
  refine ⟨hx.underWay.wakeOther hx.tasks hb hx.lock (Ne.symm (hother e he)) hwake,
    hx.tasks.wakeIo hx.lock hwake, (wakeWaitingTasksLocked_woke hwake).fields.2.1.trans hx.lock,
    (wakeWaitingTasksLocked_doubled hwake).pos hx.ring, ?_⟩
  exact PollerChanges.invariant (fun _ _ hchange => hchange.calls) (hx.tasks.wakeIo_changes hwake)
    hx.poller

/-- **The event wakes somebody**, and the kernel is told who is left. -/
theorem applied {n : Nat} (h : Applicable fd ready period s)
    (hwake : wakeWaitingTasksLocked o s fd ready true period = .ok (s', n)) :
    0 < n ∧
    (∃ woken, woken.length = n ∧
      Delivered s (fun g d => g = fd ∧ ready.has d = true) true woken s') ∧
    (∀ d, (s'.io.events fd).has d = true ↔ ∃ t, (s'.tasks t).WaitsFor fd d) ∧
    (s'.poller.interest fd).map (·.mask) =
      if s'.io.events fd = .none then none else some (toEpollEvents (s'.io.events fd)) := by
  obtain ⟨ht', woken, hlength, hdelivered⟩ := h.tasks.wakeIo_delivers h.lock hwake
  have hb' : s'.poller.backend = .epoll :=
    PollerChanges.invariant (I := fun p => p.backend = .epoll)
      (fun _ _ hchange hp => hchange.backend.trans hp) (h.tasks.wakeIo_changes hwake)
      (Filed.reach h.poller).registered.backend
  refine ⟨?_, ⟨woken, hlength, hdelivered⟩, fun d => ?_, ?_⟩
  · obtain ⟨d, t, hd, ht⟩ := h.underWay.awaited
    rw [← hlength]
    exact List.length_pos_of_mem ((hdelivered.mem t).mpr ⟨fd, d, ⟨rfl, hd⟩, ht⟩)
  · rw [IoWaitTable.events_has, Option.isSome_iff_exists]
    exact exists_congr fun t => ht'.agree.slots fd d t
  · refine (Poller.watches_epoll hb').mp (ht'.watch ?_ fd)
    intro hd
    obtain ⟨d, t, _, ht⟩ := h.underWay.awaited
    have hlife := (wakeWaitingTasksLocked_woke hwake).life
    rw [hd] at hlife
    have hnone := h.tasks.emptied hlife.symm fd
    unfold IoWaitTable.slot at ht
    rw [hnone] at ht
    exact absurd ht (by simp)

end Applicable

/-- The batch of a worker, before the filter or after it. -/
def Pc.HasBatch (raw : List RawEvent) (passes : Poller → Prop) (pc : Pc) : Prop :=
  pc = .polled raw ∨ ∃ q, passes q ∧ pc = .filtered (pollerTranslate q [] raw)

theorem Pc.HasBatch.carries {raw : List RawEvent} {passes : Poller → Prop} {pc : Pc}
    (h : pc.HasBatch raw passes) : pc.eventless = false := by
  rcases h with rfl | ⟨q, _, rfl⟩ <;> rfl

theorem Pc.HasBatch.polls {raw : List RawEvent} {passes : Poller → Prop} {pc : Pc}
    (h : pc.HasBatch raw passes) : pc.polls = true := by
  rcases h with rfl | ⟨q, _, rfl⟩ <;> rfl

/-- **The window between the report and its application.**  While the descriptor is not
forgotten and the worker does not apply its batch, the event stays on its way and the filter,
whenever it runs, finds the registration in force. -/
theorem underWay_window {fd : Int} {ready : IoEvents} {period : Nat} {w : WorkerId}
    {raw : List RawEvent} {s s' : Sys} {window : List Action}
    (hreach : (runtime .epoll).Reach s) (hway : UnderWay fd ready period s)
    (hpc : s.wk.pc w = .polled raw) (hrun : (runtime .epoll).run s window = .ok s')
    (hkeep : ∀ a ∈ window, (∀ θ o, a ≠ .forgetFd θ fd o) ∧ ∀ o, a ≠ .pollReturn w o) :
    (runtime .epoll).Reach s' ∧ UnderWay fd ready period s' ∧
      (s'.wk.pc w).HasBatch raw fun q =>
        Filed q ∧ s.poller.Later q ∧ ∃ r, q.interest fd = some r ∧ r.period = period := by
  have hup : ∀ {x : Sys}, (runtime .epoll).Reach x → (x.wk.pc w).polls = true →
      x.life ≠ .down := by
    intro x hx hpolls habs
    have hwork := (LifeInv.reach hx).working_of_alive (Pc.alive_of_polls hpolls)
    rw [habs] at hwork
    exact absurd hwork (by simp [Lifecycle.working])
  refine (Machine.run_induct (M := runtime .epoll) (I := fun x => ((runtime .epoll).Reach x ∧
    UnderWay fd ready period x ∧ (x.wk.pc w).HasBatch raw fun q =>
      Filed q ∧ s.poller.Later q ∧ ∃ r, q.interest fd = some r ∧ r.period = period) ∧
    s.poller.Later x.poller) window ?_ ⟨⟨hreach, hway, .inl hpc⟩, .refl _⟩ hrun).1
  rintro x a x' ha ⟨⟨hx, hxway, hxpc⟩, hxlater⟩ hs
  obtain ⟨hforget, happly⟩ := hkeep a ha
  have hpolls := hxpc.polls
  have hdown := hup hx hpolls
  have hreach' : (runtime .epoll).Reach x' := .step hx trivial hs
  suffices hbatch : (x'.wk.pc w).HasBatch raw fun q =>
      Filed q ∧ s.poller.Later q ∧ ∃ r, q.interest fd = some r ∧ r.period = period from
    ⟨⟨hreach', hxway.step hx hpolls hs hforget happly, hbatch⟩,
      hxlater.trans (step_later hx hs hdown (hup hreach' hbatch.polls))⟩
  rcases step_carries hs (TaskInv.reach hx hdown).agree (LifeInv.reach hx) hxpc.carries with
    hsame | ⟨raw', hraw', hfiltered⟩ | ⟨o, habs⟩
  · rw [hsame]
    exact hxpc
  · rcases hxpc with heq | ⟨q, _, heq⟩
    · rw [heq] at hraw'
      cases hraw'
      exact .inr ⟨x.poller, ⟨filed_reach hx hdown, hxlater, hxway.inForce⟩, hfiltered⟩
    · rw [heq] at hraw'
      exact absurd hraw' (by simp)
  · exact absurd habs (happly o)

/-- **No level-triggered spin.**  A wait on epoll reports a mask for a registered descriptor,
once in its batch as `epoll_wait` does.  Afterwards the threads do anything, except that the
descriptor is not forgotten and the worker has not yet applied its batch.  Then the event is
in the filtered batch, and when its turn comes, after the events before it, it wakes at least
one task parked on the descriptor, each of them once, and the kernel is left with what the
tasks still parked ask for: with nothing if there are none.  If no allocation and no change
of interest is refused, the wake returns. -/
theorem no_level_triggered_spin {s s0 s1 : Sys} (h : (runtime .epoll).Reach s) {w : WorkerId}
    {batch : List Reported} {fd : Int} {mask : EpollMask}
    (hreport : (runtime .epoll).step s (.kernelReturn w batch) = .ok s0)
    (hmem : .epoll fd mask ∈ batch) (honce : ∀ mask', .epoll fd mask' ∈ batch → mask' = mask)
    {window : List Action} (hrun : (runtime .epoll).run s0 window = .ok s1)
    (hkeep : ∀ a ∈ window, (∀ θ o, a ≠ .forgetFd θ fd o) ∧ ∀ o, a ≠ .pollReturn w o)
    {events : List PollEvent} (hpc : s1.wk.pc w = .filtered events)
    (hlock : s1.wk.lock = none) :
    ∃ r before after, s.poller.interest fd = some r ∧
      events = before ++ ⟨fd, fromEpollEvents mask, r.period⟩ :: after ∧
      ∀ o s2, before.foldlM (applyPollEvent o) (releasePoller s1) = .ok s2 →
        (∀ s3 n, wakeWaitingTasksLocked o s2 fd (fromEpollEvents mask) true r.period =
            .ok (s3, n) →
          0 < n ∧
          (∃ woken, woken.length = n ∧ Delivered s2
            (fun g d => g = fd ∧ (fromEpollEvents mask).has d = true) true woken s3) ∧
          (∀ d, (s3.io.events fd).has d = true ↔ ∃ t, (s3.tasks t).WaitsFor fd d) ∧
          (s3.poller.interest fd).map (·.mask) =
            if s3.io.events fd = .none then none
            else some (toEpollEvents (s3.io.events fd))) ∧
        (o.Grants → ∃ s3 n,
          wakeWaitingTasksLocked o s2 fd (fromEpollEvents mask) true r.period = .ok (s3, n)) := by
  have hstep : Croutine.step s (.kernelReturn w batch) = .ok s0 := hreport
  have hsched : SchedStep s (.kernelReturn w batch) s0 := by
    rcases step_kind hstep with hc | hs
    · cases hc with
      | shutdown hlock' ha hlife hclose => exact absurd ha Bool.false_ne_true
    · exact hs
  cases hsched with
  | @kernelReturn _ timeout _ raw hpolling hbatch =>
    have hwork := (LifeInv.reach h).working_of_alive (w := w) (by rw [hpolling]; rfl)
    have hdown : s.life ≠ .down ∧ s.life ≠ .drained := by
      constructor <;> intro habs <;> rw [habs] at hwork <;>
        exact absurd hwork (by simp [Lifecycle.working])
    have hfiled := filed_reach h hdown.1
    unfold kernelBatch at hbatch
    split at hbatch
    · next hwait =>
      obtain ⟨y, hy⟩ : ∃ y, s.poller.report s.wk.wakePending (.epoll fd mask) = some y := by
        obtain ⟨b1, b2, rfl⟩ := List.append_of_mem hmem
        obtain ⟨_, y, _, _, hy, _⟩ := mapM_split hbatch
        exact ⟨y, hy⟩
      obtain ⟨r, hr, _, hway⟩ := (TaskInv.reach h hdown.1).underWay_of_report hdown.2
        hfiled.registered.backend hy
      have hready : fromEpollEvents mask ≠ .none := by
        intro habs
        obtain ⟨d, _, hd, _⟩ := hway.awaited
        rw [habs] at hd
        exact absurd hd (by cases d <;> simp [IoEvents.has, IoEvents.none])
      have hreach0 : (runtime .epoll).Reach (s.setPc w (.polled raw)) :=
        .step h trivial hreport
      obtain ⟨hreach1, hway1, hbatch1⟩ := underWay_window hreach0
        ⟨hway.inForce, hway.awaited⟩ (Function.update_self ..) hrun hkeep
      obtain ⟨q, ⟨hq, hlater, hforce⟩, hevents⟩ := hbatch1.resolve_left (by rw [hpc]; simp)
      rw [hpc] at hevents
      obtain ⟨before, after, hsplit, hother⟩ := hfiled.event_passes hq hlater hbatch
        hwait.2.1 hmem honce hr hforce hready
      refine ⟨r, before, after, hr, (Pc.filtered.inj hevents).trans hsplit, ?_⟩
      have hdown1 : s1.life ≠ .down := by
        intro habs
        have hwork1 := (LifeInv.reach hreach1).working_of_alive (w := w) (by rw [hpc]; rfl)
        rw [habs] at hwork1
        exact absurd hwork1 (by simp [Lifecycle.working])
      have happ : Applicable fd (fromEpollEvents mask) r.period (releasePoller s1) :=
        ⟨⟨hway1.inForce, hway1.awaited⟩, (TaskInv.reach hreach1 hdown1).releasePoller, hlock,
          ring_reach (s := s1) hreach1 hdown1, pollerCalls_reach (s := s1) hreach1 hdown1⟩
      intro o s2 hbefore
      have happ2 := happ.batch hother hbefore
      refine ⟨fun s3 n hwake => happ2.applied hwake, fun ho => ?_⟩
      exact happ2.tasks.wakeIo_returns (fun _ => ho.grow _) happ2.ring
        (fun _ => (Filed.reach happ2.poller).adjusts (ho.ctl fd)) _ true r.period
    · exact absurd hbatch (by simp)

/-- The main task waits for descriptor 5 to become readable, its peer hangs up, and the only
worker polls. -/
def hangUp : List Action :=
  parkedOnFd ++ [.loop 0, .setReady 5 { EpollMask.empty with hup := true }]

theorem no_level_triggered_spin_hang_up :
    ∃ s s0 s1 s3 n, (runtime .epoll).Reach s ∧
      (runtime .epoll).step s (.kernelReturn 0 [.epoll 5 { EpollMask.empty with hup := true }]) =
        .ok s0 ∧
      (runtime .epoll).run s0 [.filterBatch 0] = .ok s1 ∧
      s1.wk.pc 0 = .filtered [⟨5, .all, 1⟩] ∧
      wakeWaitingTasksLocked .calm (releasePoller s1) 5 .all true 1 = .ok (s3, n) ∧ 0 < n := by
  have hreach : (runtime .epoll).Reach ((runtime .epoll).after (small 1) hangUp) :=
    Machine.reach_after (small_init 1 (by decide)) (by decide)
  have hreport := Machine.step_eq_after (M := runtime .epoll)
    (s := (runtime .epoll).after (small 1) hangUp)
    (a := .kernelReturn 0 [.epoll 5 { EpollMask.empty with hup := true }]) (by decide +kernel)
  have hrun := Machine.run_eq_after (M := runtime .epoll)
    (s := (runtime .epoll).after ((runtime .epoll).after (small 1) hangUp)
      [.kernelReturn 0 [.epoll 5 { EpollMask.empty with hup := true }]])
    (l := [.filterBatch 0]) (by decide +kernel)
  have hpc : ((runtime .epoll).after ((runtime .epoll).after ((runtime .epoll).after (small 1)
      hangUp) [.kernelReturn 0 [.epoll 5 { EpollMask.empty with hup := true }]])
      [.filterBatch 0]).wk.pc 0 = .filtered [⟨5, .all, 1⟩] := by decide +kernel
  have honce : ∀ mask', Reported.epoll 5 mask' ∈
      [Reported.epoll 5 { EpollMask.empty with hup := true }] →
      mask' = { EpollMask.empty with hup := true } := by
    intro mask' hmem
    exact (Reported.epoll.inj (List.mem_singleton.mp hmem)).2
  have hkeep : ∀ a ∈ [Action.filterBatch 0], (∀ θ o, a ≠ .forgetFd θ 5 o) ∧
      ∀ o, a ≠ .pollReturn 0 o := by
    intro a ha
    rw [List.mem_singleton.mp ha]
    exact ⟨fun _ _ => by simp, fun _ => by simp⟩
  obtain ⟨r, before, later, _, hevents, happly⟩ := no_level_triggered_spin hreach hreport
    List.mem_cons_self honce hrun hkeep hpc (by decide +kernel)
  have hnil : before = [] := by
    cases before with
    | nil => rfl
    | cons e rest => exact absurd (congrArg List.length hevents) (by simp)
  subst hnil
  have hperiod : r.period = 1 := by
    have hhead := (List.cons.inj hevents).1
    exact (PollEvent.mk.inj hhead).2.2.symm
  obtain ⟨hwakes, hreturns⟩ := happly .calm _ rfl
  obtain ⟨s3, n, hwake⟩ := hreturns ⟨fun _ => rfl, fun _ _ _ => rfl, fun _ _ _ => rfl⟩
  have hsome := (hwakes s3 n hwake).1
  rw [hperiod] at hwake
  exact ⟨_, _, _, s3, n, hreach, hreport, hrun, hpc, hwake, hsome⟩

end Croutine
