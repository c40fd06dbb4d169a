import Croutine.TaskSteps

/-!
# A park that fails

`worker_park_current_on_io` fails after it may have inserted an entry, grown and compacted
the table, or changed a registration.  What it did is undone, with one exception that the
code accepts: kqueue registers the two directions one after the other, and when the second
is refused the result of taking the first back is ignored.
-/

namespace Croutine

/-- Valid tables that stand for the same map have the same number of entries. -/
theorem IoWaitTable.Valid.count_eq {table table' : IoWaitTable} (h : table.Valid)
    (h' : table'.Valid) (hlook : ∀ g, table'.lookup g = table.lookup g) :
    table'.count = table.count := by
  have hnodup : ∀ {x : IoWaitTable}, x.Valid → x.used.Nodup := by
    intro x hx
    unfold IoWaitTable.used List.Nodup
    rw [List.pairwise_filter]
    exact hx.keyed.imp fun hne ha hb heq => hne ha hb (by rw [heq])
  have hperm : table'.used.Perm table.used := by
    refine (List.perm_ext_iff_of_nodup (hnodup h') (hnodup h)).mpr fun e => ?_
    have hiff := @Valid.lookup_eq_some_iff _ h e.fd e
    have hiff' := @Valid.lookup_eq_some_iff _ h' e.fd e
    rw [hlook, hiff] at hiff'
    simpa using hiff'.symm
  rw [h'.counted, h.counted, List.countP_eq_length_filter, List.countP_eq_length_filter]
  exact hperm.length_eq

theorem applyFilterChange_refused {o : PollerOracle} {p q : Poller} {fd : Int} {filter : Filter}
    {enable : Bool} (h : applyFilterChange o p fd filter enable = (q, false)) :
    o.filterOk fd filter enable = false := by
  unfold applyFilterChange at h
  split at h
  · exact absurd (Prod.mk.inj h).2 (by simp)
  · next hrefused => exact Bool.eq_false_iff.mpr hrefused

/-- A failed change on kqueue is undone, unless both filters were to change and the first
one cannot be changed back. -/
theorem kqueuePollerSet_undone {o : PollerOracle} {p q : Poller} {fd : Int} {old new : IoEvents}
    (hold : p.filters fd = old) (h : kqueuePollerSet o p fd old new = (q, false)) :
    q = p ∨ ((∀ filter, old.has filter ≠ new.has filter) ∧
      o.filterOk fd .read (old.has .read) = false ∧
      q = { p with filters := Function.update p.filters fd (old.put .read (new.has .read)) }) := by
  unfold kqueuePollerSet at h
  split at h
  · exact absurd (Prod.mk.inj h).2 (by simp)
  · split at h
    · next p1 hread =>
      obtain ⟨rfl, _⟩ := Prod.mk.inj h
      exact .inl (syncFilter_failed hread).1
    · next p1 hread =>
      split at h
      · exact absurd (Prod.mk.inj h).2 (by simp)
      · next p2 hwrite =>
        obtain ⟨rfl, hne⟩ := syncFilter_failed hwrite
        obtain ⟨hq, _⟩ := Prod.mk.inj h
        have hp1 := syncFilter_ok (by rw [hold]) hread
        rw [hold] at hp1
        unfold reverseFilter at hq
        split at hq
        · next hsame =>
          -- only the write filter was to change
          refine .inl ?_
          rw [← hq, hp1, ← hsame, IoEvents.put_has, ← hold, Function.update_eq_self]
        · next hdiff =>
          cases hback : applyFilterChange o p2 fd .read (old.has .read) with
          | mk r ok =>
            rw [hback] at hq
            dsimp only at hq
            cases ok with
            | true =>
                refine .inl ?_
                have hput :
                    (old.put .read (new.has .read)).put .read (old.has .read) = p.filters fd :=
                  hold.symm
                rw [← hq, applyFilterChange_ok hback, hp1]
                simp only [Function.update_self, Function.update_idem, hput,
                  Function.update_eq_self]
            | false =>
                refine .inr ⟨fun filter => ?_, applyFilterChange_refused hback, ?_⟩
                · cases filter with
                  | read => exact hdiff
                  | write => exact hne
                · rw [← hq, applyFilterChange_failed hback, hp1]

/-- A failed change of the poller keeps every registration, except that kqueue may keep the
read filter of a descriptor on which both directions were asked for. -/
theorem croutinePollerSet_undone {o : PollerOracle} {p q : Poller} {fd : Int} {old new : IoEvents}
    (hwatch : p.Watches fd old) (h : croutinePollerSet o p fd old new = (q, false)) :
    (q.interest = p.interest ∧ q.filters = p.filters) ∨
      (p.backend = .kqueue ∧ (∀ filter, old.has filter ≠ new.has filter) ∧
        o.filterOk fd .read (old.has .read) = false ∧
        q = { p with
          filters := Function.update p.filters fd (old.put .read (new.has .read)) }) := by
  unfold croutinePollerSet at h
  cases hb : p.backend with
  | epoll =>
      rw [hb] at h
      have hset := pollerSetLocked_cases h
      refine .inl ⟨hset.interest.2.2.2 rfl, ?_⟩
      cases hset with
      | unchanged => rfl
      | addFailed hold hgrown =>
          rw [hgrown.fields]
          rfl
  | kqueue =>
      rw [hb] at h
      rcases kqueuePollerSet_undone ((Poller.watches_kqueue hb).mp hwatch) h with rfl | hkept
      · exact .inl ⟨rfl, rfl⟩
      · refine .inr ⟨rfl, ?_⟩
        rw [← hb]
        exact hkept

/-- Both bits change only when none was set and both are added. -/
theorem IoEvents.union_changes_both {old events : IoEvents}
    (h : ∀ filter, old.has filter ≠ (old.union events).has filter) :
    old = .none ∧ events = .all := by
  have hread := h .read
  have hwrite := h .write
  obtain ⟨r, w⟩ := old
  obtain ⟨r', w'⟩ := events
  revert hread hwrite
  cases r <;> cases w <;> cases r' <;> cases w' <;> decide

/-- **A failed I/O park changes nothing** that the scheduler or a task sees: every
descriptor has the entry it had, and tasks and workers are as they were.  The registrations
are as they were, too, unless both directions were asked for on kqueue, the write filter was
refused and the read filter could not be deleted again. -/
theorem failed_io_park_changes_nothing {backend : Backend} {s : Sys}
    (h : (runtime backend).Reach s) (hlock : s.wk.lock = none) {w : WorkerId} {t : TaskId}
    (hpc : s.wk.pc w = .running t) (o : Oracle) (fd : Int) (events : IoEvents)
    (hfail : (workerParkCurrentOnIo o s w t fd events).wk.pc w = .running t) :
    (∀ g, (workerParkCurrentOnIo o s w t fd events).io.lookup g = s.io.lookup g) ∧
    (workerParkCurrentOnIo o s w t fd events).io.count = s.io.count ∧
    (workerParkCurrentOnIo o s w t fd events).tasks = s.tasks ∧
    (workerParkCurrentOnIo o s w t fd events).wk = s.wk ∧
    (workerParkCurrentOnIo o s w t fd events).wk.lock = none ∧
    (workerParkCurrentOnIo o s w t fd events).poller.interest = s.poller.interest ∧
    ((workerParkCurrentOnIo o s w t fd events).poller.filters = s.poller.filters ∨
      (s.poller.backend = .kqueue ∧ events = .all ∧ s.io.events fd = .none ∧
        o.poller.filterOk fd .read false = false ∧
        (workerParkCurrentOnIo o s w t fd events).poller.filters =
          Function.update s.poller.filters fd ⟨true, false⟩)) := by
  have hlife := (LifeInv.reach h).working_of_alive (w := w) (by rw [hpc]; rfl)
  have hdown : s.life ≠ .down := by
    intro hd
    rw [hd] at hlife
    exact absurd hlife (by simp [Lifecycle.working])
  have hdrained : s.life ≠ .drained := by
    intro hd
    rw [hd] at hlife
    exact absurd hlife (by simp [Lifecycle.working])
  have htask := TaskInv.reach h hdown
  rcases workerParkCurrentOnIo_outcome htask.agree o w t fd events with
    ⟨io, poller, heq, hvalid, hlook, hpoller⟩ | ⟨_, io, i, e, poller, _, _, _, heq⟩
  · rw [heq]
    refine ⟨hlook, htask.agree.valid.count_eq hvalid hlook, rfl, rfl, hlock, ?_⟩
    rcases hpoller with rfl | hset
    · exact ⟨rfl, .inl rfl⟩
    · rcases croutinePollerSet_undone (htask.watch hdrained fd) hset with
        ⟨hinterest, hfilters⟩ | ⟨hb, hboth, hrefused, rfl⟩
      · exact ⟨hinterest, .inl hfilters⟩
      · obtain ⟨hnone, hall⟩ := IoEvents.union_changes_both hboth
        rw [hnone] at hrefused
        refine ⟨rfl, .inr ⟨hb, hall, hnone, hrefused, ?_⟩⟩
        rw [hnone, hall]
        rfl
  · rw [heq] at hfail
    exact absurd hfail (by simp [parkOnIo, Sys.mapWk, Workers.setPc])

/-- The main task runs on a kqueue runtime. -/
def runsOnKqueue : Sys :=
  (runtime .kqueue).after (initial .kqueue 3 1 4 4) (startUp 1 ++ dispatchOn 0)

theorem reach_runsOnKqueue : (runtime .kqueue).Reach runsOnKqueue :=
  Machine.reach_after ⟨3, 1, 4, 4, by decide, by decide, rfl⟩ (by decide)

/-- kqueue refuses the write filter of a descriptor and lets go of no filter. -/
def Oracle.refusesWrite : Oracle :=
  { Oracle.calm with
    poller := { Oracle.calm.poller with
      filterOk := fun _ filter enable => filter = .read && enable } }

theorem failed_io_park_changes_nothing_kqueue :
    (workerParkCurrentOnIo .refusesWrite runsOnKqueue 0 0 5 ⟨false, true⟩).wk.pc 0 = .running 0 ∧
    (∀ g, (workerParkCurrentOnIo .refusesWrite runsOnKqueue 0 0 5 ⟨false, true⟩).io.lookup g =
      runsOnKqueue.io.lookup g) ∧
    (workerParkCurrentOnIo .refusesWrite runsOnKqueue 0 0 5 ⟨false, true⟩).poller.filters =
      runsOnKqueue.poller.filters := by
  obtain ⟨hlook, _, _, _, _, _, hfilters⟩ := failed_io_park_changes_nothing reach_runsOnKqueue
    (by decide) (w := 0) (t := 0) (by decide) .refusesWrite 5 ⟨false, true⟩ (by decide)
  exact ⟨by decide, hlook, hfilters.resolve_right fun hboth => absurd hboth.2.1 (by decide)⟩

/-- A park on both directions fails and leaves the read filter registered. -/
theorem failed_io_park_keeps_read_filter :
    ∃ s, (runtime .kqueue).Reach s ∧ s.wk.lock = none ∧ s.wk.pc 0 = .running 0 ∧
      (workerParkCurrentOnIo .refusesWrite s 0 0 5 .all).wk.pc 0 = .running 0 ∧
      s.poller.filters 5 = .none ∧
      (workerParkCurrentOnIo .refusesWrite s 0 0 5 .all).poller.filters 5 = ⟨true, false⟩ :=
  ⟨_, reach_runsOnKqueue, by decide, by decide, by decide, by decide, by decide⟩

end Croutine
