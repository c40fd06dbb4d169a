import Croutine.ParkedTasks

/-!
# Delivery of readiness

A worker that comes back from the poller applies its batch event by event, and every event
changes the table the next one reads.  `Delivered` says what a set of reported descriptors
and directions does to a state; it composes, so a batch does what the union of its events
says, whatever their order.
-/

namespace Croutine

/-! ## Batches -/

namespace Delivered

variable {s s1 s' : Sys} {reported later : Int → Filter → Prop} {success : Bool}
  {woken woken' : List TaskId}

/-- Two deliveries, one after the other.  No task is woken twice: a task has one slot, and
the first delivery empties it. -/
theorem trans (hagree : IoAgree s.tasks s.io) (h : Delivered s reported success woken s1)
    (h' : Delivered s1 later success woken' s') :
    Delivered s (fun fd d => reported fd d ∨ later fd d) success (woken ++ woken') s' := by
  have hslot : ∀ {fd d t}, s1.io.slot fd d = some t → ¬reported fd d ∧ s.io.slot fd d = some t := by
    intro fd d t ht
    have hnot : ¬reported fd d := by
      intro hr
      rw [h.cleared fd d hr] at ht
      exact absurd ht (by simp)
    exact ⟨hnot, by rw [← h.others fd d hnot]; exact ht⟩
  have hdisjoint : ∀ t ∈ woken, t ∉ woken' := by
    intro t ht ht'
    obtain ⟨fd, d, hr, hfd⟩ := (h.mem t).mp ht
    obtain ⟨fd', d', _, hfd'⟩ := (h'.mem t).mp ht'
    obtain ⟨hnot, hfd'⟩ := hslot hfd'
    obtain ⟨rfl, rfl⟩ := hagree.waitsFor_unique ((hagree.slots fd d t).mp hfd)
      ((hagree.slots fd' d' t).mp hfd')
    exact hnot hr
  refine ⟨?_, ?_, ?_, ?_, ?_, ?_, ?_⟩
  · rw [h'.queue, h.queue, List.append_assoc]
  · exact List.nodup_append'.mpr ⟨h.nodup, h'.nodup, hdisjoint⟩
  · intro t
    rw [List.mem_append, h.mem, h'.mem]
    constructor
    · rintro (⟨fd, d, hr, hfd⟩ | ⟨fd, d, hr, hfd⟩)
      · exact ⟨fd, d, .inl hr, hfd⟩
      · exact ⟨fd, d, .inr hr, (hslot hfd).2⟩
    · rintro ⟨fd, d, hr, hfd⟩
      by_cases hfirst : reported fd d
      · exact .inl ⟨fd, d, hfirst, hfd⟩
      · exact .inr ⟨fd, d, hr.resolve_left hfirst, by rw [h.others fd d hfirst]; exact hfd⟩
  · intro fd d hr
    by_cases hlast : later fd d
    · exact h'.cleared fd d hlast
    · rw [h'.others fd d hlast]
      exact h.cleared fd d (hr.resolve_right hlast)
  · intro fd d hr
    rw [not_or] at hr
    rw [h'.others fd d hr.2, h.others fd d hr.1]
  · intro t ht
    rcases List.mem_append.mp ht with ht | ht
    · rw [h'.kept t (hdisjoint t ht), h.awake t ht]
    · rw [h'.awake t ht, h.kept t fun habs => hdisjoint t habs ht]
  · intro t ht
    rw [List.mem_append, not_or] at ht
    rw [h'.kept t ht.2, h.kept t ht.1]

theorem none (s : Sys) (success : Bool) : Delivered s (fun _ _ => False) success [] s where
  queue := (List.append_nil _).symm
  nodup := List.nodup_nil
  mem t := by simp
  cleared _ _ := False.elim
  others _ _ _ := rfl
  awake t ht := absurd ht List.not_mem_nil
  kept _ _ := rfl

/-- Nobody waits after a delivery who did not wait before. -/
theorem waits (h : Delivered s reported success woken s') {t : TaskId} {fd : Int} {d : Filter}
    (hwait : (s'.tasks t).WaitsFor fd d) : (s.tasks t).WaitsFor fd d := by
  by_cases ht : t ∈ woken
  · have hstate := hwait.1
    rw [h.awake t ht] at hstate
    exact absurd hstate (by simp [Task.requeued])
  · rwa [← h.kept t ht]

/-- Only what is reported matters. -/
theorem congr (h : Delivered s reported success woken s')
    (heq : ∀ fd d, reported fd d ↔ later fd d) : Delivered s later success woken s' := by
  have hsame : reported = later := funext fun fd => funext fun d => propext (heq fd d)
  exact hsame ▸ h

end Delivered

/-- A batch reports a direction of a descriptor. -/
def Announces (events : List PollEvent) (fd : Int) (d : Filter) : Prop :=
  ∃ e ∈ events, e.fd = fd ∧ e.events.has d = true

/-- **A batch delivers what it announces.** -/
theorem TaskInv.deliver_batch {o : Oracle} :
    ∀ (events : List PollEvent) {s s' : Sys}, TaskInv s → s.wk.lock = none →
      events.foldlM (applyPollEvent o) s = .ok s' →
      ∃ woken, Delivered s (Announces events) true woken s' := by
  intro events
  induction events with
  | nil =>
      intro s s' _ _ hbatch
      cases hbatch
      exact ⟨[], (Delivered.none s true).congr fun fd d => by simp [Announces]⟩
  | cons e rest ih =>
      intro s s' h hlock hbatch
      rw [List.foldlM_cons, Res.bind_ok] at hbatch
      obtain ⟨s1, hs1, hrest⟩ := hbatch
      obtain ⟨n, hwake⟩ := applyPollEvent_ok hs1
      obtain ⟨h1, woken, _, hfirst⟩ := h.wakeIo_delivers hlock hwake
      have hfree := (wakeWaitingTasksLocked_woke hwake).fields.2.1.trans hlock
      obtain ⟨woken', hothers⟩ := ih h1 hfree hrest
      refine ⟨woken ++ woken', (hfirst.trans h.agree hothers).congr fun fd d => ?_⟩
      simp only [Announces, List.mem_cons, exists_eq_or_imp]
      exact or_congr (and_congr eq_comm Iff.rfl) Iff.rfl

/-! ## When nothing is refused -/

/-- An environment that grants every growth of the run queue and every change of interest. -/
structure Oracle.Grants (o : Oracle) : Prop where
  grow : ∀ n, o.grow n = true
  ctl : ∀ fd old new, o.poller.ctlOk fd old new = true
  filter : ∀ fd d enable, o.poller.filterOk fd d enable = true

/-- A round of the wake loop returns when the ring can grow, and so does the next one. -/
theorem wakeIoTask_returns {o : Oracle} {s : Sys}
    (hroom : 0 < s.runq.capacity ∧ o.GrowsFrom s.runq.capacity) (fd : Int) (success : Bool)
    (period : Nat) (t : TaskId) :
    ∃ s', wakeIoTask o fd success period s t = .ok s' ∧
      0 < s'.runq.capacity ∧ o.GrowsFrom s'.runq.capacity := by
  obtain ⟨s', hs'⟩ : ∃ s', wakeIoTask o fd success period s t = .ok s' := by
    unfold wakeIoTask enqueueRunnableTaskLocked
    obtain ⟨s1, hs1⟩ := taskQueuePush_total (o := o)
      (s := (s.setTask t { s.tasks t with ioWakeSuccess := success }).setTask t _)
      hroom.1 hroom.2 t
    rw [hs1]
    cases success
    · exact ⟨_, rfl⟩
    · exact ⟨_, rfl⟩
  obtain ⟨cap, hcap, rfl⟩ := wakeIoTask_ok hs'
  exact ⟨_, hs', hcap.pos hroom.1, hroom.2.doubled hcap⟩

/-- A poller that takes every change of the interest in a descriptor it watches. -/
def Adjusts (o : PollerOracle) (p : Poller) (fd : Int) : Prop :=
  ∀ old new, p.Watches fd old → (old = .none → new = .none) →
    (croutinePollerSet o p fd old new).2 = true

/-- The poller watches a descriptor for the directions of its entry. -/
theorem TaskInv.watches_entry {s : Sys} {fd : Int} {e : IoWaitEntry} (h : TaskInv s)
    (hlook : s.io.lookup fd = some e) : s.poller.Watches fd (ioWaitEntryEvents e) := by
  have hnd : s.life ≠ .drained := by
    intro hd
    rw [h.emptied hd fd] at hlook
    simp at hlook
  have hw := h.watch hnd fd
  unfold IoWaitTable.events at hw
  rwa [hlook] at hw

/-- Somebody waits on a descriptor that has an entry. -/
theorem TaskInv.awaited_of_entry {s : Sys} {fd : Int} {e : IoWaitEntry} (h : TaskInv s)
    (hlook : s.io.lookup fd = some e) : ∃ t d, (s.tasks t).WaitsFor fd d := by
  have hbusy := h.agree.busy fd e hlook
  rw [Ne, ioWaitEntryEvents_eq_none_iff, not_forall] at hbusy
  obtain ⟨d, hd⟩ := hbusy
  obtain ⟨t, ht⟩ := Option.ne_none_iff_exists'.mp hd
  refine ⟨t, d, (h.agree.slots fd d t).mp ?_⟩
  unfold IoWaitTable.slot
  rw [hlook]
  exact ht

/-- **A wake returns** when nothing it asks for is refused. -/
theorem TaskInv.wakeIo_returns {o : Oracle} {s : Sys} {fd : Int} (h : TaskInv s)
    (hgrow : o.GrowsFrom s.runq.capacity) (hring : 0 < s.runq.capacity)
    (hadjust : (∃ t d, (s.tasks t).WaitsFor fd d) → Adjusts o.poller s.poller fd)
    (ready : IoEvents) (success : Bool) (period : Nat) :
    ∃ s' n, wakeWaitingTasksLocked o s fd ready success period = .ok (s', n) := by
  unfold wakeWaitingTasksLocked
  cases hfind : ioWaitTableFind s.io fd with
  | none => exact ⟨s, 0, rfl⟩
  | some i =>
      obtain ⟨e, hget, _, _, hlook⟩ := ioWaitTableFind_some h.agree.valid hfind
      have hentry : s.io.entries.getD i ioWaitEntryReset = e := by
        rw [List.getD_eq_getElem?_getD, hget]; rfl
      have hset := hadjust (h.awaited_of_entry hlook) _
        (ioWaitEntryEvents (takeReadyTasks e ready).2)
        (h.watches_entry hlook) fun habs => absurd habs (h.agree.busy fd e hlook)
      obtain ⟨s1, hs1, _⟩ := Res.foldlM_returns
        (I := fun x => 0 < x.runq.capacity ∧ o.GrowsFrom x.runq.capacity)
        (fun x t hx => wakeIoTask_returns hx fd success period t)
        (takeReadyTasks e ready).1 (b := { s with
          poller := (croutinePollerSet o.poller s.poller fd (ioWaitEntryEvents e)
            (ioWaitEntryEvents (takeReadyTasks e ready).2)).1
          io := ioAfterWake s.io i (takeReadyTasks e ready).2 }) ⟨hring, hgrow⟩
      dsimp only
      rw [hentry, hset]
      exact ⟨_, _, Res.bind_ok.mpr ⟨s1, hs1, rfl⟩⟩

end Croutine
