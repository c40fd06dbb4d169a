import Mathlib.Data.List.Induction
import Croutine.PollerRuns
import Croutine.Readiness

/-!
# Batches of kqueue events

The filters of kqueue are edge-triggered, so an event that is dropped or overwritten is not
reported again.  `croutine_poller_wait` joins the events of a descriptor in place while it
scans the raw ones.  The output says of every descriptor what all its raw events together
say, and a worker that applies it wakes the tasks parked there and no others.
-/

namespace Croutine

/-! ## What the raw events say -/

/-- What a raw event says of a descriptor; the event of the wake pipe says nothing. -/
def RawEvent.readyFor (p : Poller) (fd : Int) (x : RawEvent) : IoEvents :=
  match x with
  | .kevent ident filter eof error =>
    if p.isWake x = false ∧ ident = fd then translateReadyEvent filter eof error else .none
  | .epoll _ _ _ => .none

/-- The union of what the raw events say of a descriptor. -/
def readyUnion (p : Poller) (raw : List RawEvent) (fd : Int) : IoEvents :=
  (raw.map (RawEvent.readyFor p fd)).foldl IoEvents.union .none

/-- Every kevent says some direction is ready. -/
theorem translateReadyEvent_ne_none (filter : Filter) (eof error : Bool) :
    translateReadyEvent filter eof error ≠ .none := by
  cases filter <;> cases eof <;> cases error <;> decide

/-- The union with no events on the right. -/
theorem IoEvents.union_none (events : IoEvents) : events.union .none = events := by
  unfold IoEvents.union IoEvents.none
  simp

/-- The union with no events on the left. -/
theorem IoEvents.none_union (events : IoEvents) : IoEvents.none.union events = events := by
  unfold IoEvents.union IoEvents.none
  simp

/-- A union with some events is some events. -/
theorem IoEvents.union_ne_none {a b : IoEvents} (h : b ≠ .none) : a.union b ≠ .none := by
  intro habs
  rw [IoEvents.eq_none_iff] at habs
  refine h ((IoEvents.eq_none_iff b).mpr fun d => ?_)
  have hd := habs d
  cases d with
  | read =>
      have hd : (a.read || b.read) = false := hd
      exact (Bool.or_eq_false_iff.mp hd).2
  | write =>
      have hd : (a.write || b.write) = false := hd
      exact (Bool.or_eq_false_iff.mp hd).2

/-- One more event of the batch. -/
theorem readyUnion_append (p : Poller) (raw : List RawEvent) (x : RawEvent) (fd : Int) :
    readyUnion p (raw ++ [x]) fd = (readyUnion p raw fd).union (x.readyFor p fd) := by
  unfold readyUnion
  rw [List.map_append, List.foldl_append]
  rfl

/-! ## Merging -/

/-- The output after the loop has scanned some raw events. -/
structure Merged (p : Poller) (raw : List RawEvent) (out : List PollEvent) : Prop where
  nodup : (out.map (·.fd)).Nodup
  listed : ∀ fd, fd ∈ out.map (·.fd) ↔ readyUnion p raw fd ≠ .none
  events : ∀ e ∈ out, e.events = readyUnion p raw e.fd

/-- Merging appends a descriptor the batch does not have. -/
theorem mergeReadyEvent_fds (fd : Int) (ready : IoEvents) (out : List PollEvent) :
    (mergeReadyEvent out fd ready).map (·.fd) =
      if fd ∈ out.map (·.fd) then out.map (·.fd) else out.map (·.fd) ++ [fd] := by
  induction out with
  | nil => rfl
  | cons e rest ih =>
      unfold mergeReadyEvent
      by_cases he : e.fd = fd
      · rw [if_pos he]
        simp [he]
      · rw [if_neg he, List.map_cons, ih, List.map_cons]
        by_cases hrest : fd ∈ rest.map (·.fd)
        · rw [if_pos hrest, if_pos (List.mem_cons_of_mem _ hrest)]
        · rw [if_neg hrest, if_neg]
          · rfl
          · intro habs
            rcases List.mem_cons.mp habs with habs | habs
            · exact he habs.symm
            · exact hrest habs

/-- An entry of the output after a merge is one of another descriptor, the joined one, or a
new one. -/
theorem mem_mergeReadyEvent {fd : Int} {ready : IoEvents} {e : PollEvent} :
    ∀ {out : List PollEvent}, (out.map (·.fd)).Nodup → e ∈ mergeReadyEvent out fd ready →
      (e.fd ≠ fd ∧ e ∈ out) ∨
      (e.fd = fd ∧ fd ∉ out.map (·.fd) ∧ e.events = ready) ∨
      (e.fd = fd ∧ ∃ e0 ∈ out, e0.fd = fd ∧ e.events = e0.events.union ready) := by
  intro out
  induction out with
  | nil =>
      intro _ he
      rw [mergeReadyEvent, List.mem_singleton] at he
      subst he
      exact .inr (.inl ⟨rfl, by simp, rfl⟩)
  | cons e0 rest ih =>
      intro hnodup he
      rw [List.map_cons, List.nodup_cons] at hnodup
      unfold mergeReadyEvent at he
      by_cases h0 : e0.fd = fd
      · rw [if_pos h0] at he
        rcases List.mem_cons.mp he with rfl | he
        · exact .inr (.inr ⟨h0, e0, List.mem_cons_self, h0, rfl⟩)
        · refine .inl ⟨fun habs => hnodup.1 ?_, List.mem_cons_of_mem _ he⟩
          rw [h0, ← habs]
          exact List.mem_map_of_mem he
      · rw [if_neg h0] at he
        rcases List.mem_cons.mp he with rfl | he
        · exact .inl ⟨h0, List.mem_cons_self⟩
        · rcases ih hnodup.2 he with ⟨hne, hmem⟩ | ⟨hfd, hnew, hev⟩ | ⟨hfd, e1, hmem, h1, hev⟩
          · exact .inl ⟨hne, List.mem_cons_of_mem _ hmem⟩
          · refine .inr (.inl ⟨hfd, ?_, hev⟩)
            rw [List.map_cons, List.mem_cons, not_or]
            exact ⟨fun habs => h0 habs.symm, hnew⟩
          · exact .inr (.inr ⟨hfd, e1, List.mem_cons_of_mem _ hmem, h1, hev⟩)

namespace Merged

variable {p : Poller} {raw : List RawEvent} {out : List PollEvent} {x : RawEvent}

/-- An event that says nothing of any descriptor is skipped. -/
theorem skip (h : Merged p raw out) (hx : ∀ fd, x.readyFor p fd = .none) :
    Merged p (raw ++ [x]) out := by
  have hsame : ∀ fd, readyUnion p (raw ++ [x]) fd = readyUnion p raw fd := by
    intro fd
    rw [readyUnion_append, hx, IoEvents.union_none]
  exact ⟨h.nodup, fun fd => by rw [hsame]; exact h.listed fd,
    fun e he => by rw [hsame]; exact h.events e he⟩

/-- An event that says something of one descriptor is joined. -/
theorem merge (h : Merged p raw out) {fd : Int} {ready : IoEvents} (hready : ready ≠ .none)
    (hx : ∀ g, x.readyFor p g = if g = fd then ready else .none) :
    Merged p (raw ++ [x]) (mergeReadyEvent out fd ready) := by
  have hfd : readyUnion p (raw ++ [x]) fd = (readyUnion p raw fd).union ready := by
    rw [readyUnion_append, hx, if_pos rfl]
  have hothers : ∀ g, g ≠ fd → readyUnion p (raw ++ [x]) g = readyUnion p raw g := by
    intro g hg
    rw [readyUnion_append, hx, if_neg hg, IoEvents.union_none]
  refine ⟨?_, ?_, ?_⟩
  · rw [mergeReadyEvent_fds]
    split
    · exact h.nodup
    · next hnew =>
      exact List.nodup_append'.mpr ⟨h.nodup, List.nodup_singleton _, by simpa using hnew⟩
  · intro g
    rw [mergeReadyEvent_fds]
    by_cases hg : g = fd
    · subst hg
      have hne : readyUnion p (raw ++ [x]) g ≠ .none := by
        rw [hfd]
        exact IoEvents.union_ne_none hready
      refine ⟨fun _ => hne, fun _ => ?_⟩
      split
      · assumption
      · simp
    · rw [hothers g hg, ← h.listed g]
      split
      · rfl
      · rw [List.mem_append, List.mem_singleton]
        exact ⟨fun hor => hor.resolve_right hg, .inl⟩
  · intro e he
    rcases mem_mergeReadyEvent h.nodup he with ⟨hne, hmem⟩ | ⟨he, hnew, hev⟩ |
      ⟨he, e0, hmem, h0, hev⟩
    · rw [hothers e.fd hne]
      exact h.events e hmem
    · have hnone : readyUnion p raw fd = .none := by
        by_contra habs
        exact hnew ((h.listed fd).mpr habs)
      rw [he, hfd, hnone, IoEvents.none_union, hev]
    · rw [he, hfd, hev, h.events e0 hmem, h0]

/-- **The loop of `croutine_poller_wait`.** -/
theorem translate (raw : List RawEvent) :
    ∀ {past : List RawEvent} {out : List PollEvent}, Merged p past out →
      (∀ x ∈ raw, x.isKevent = true) → Merged p (past ++ raw) (pollerTranslate p out raw) := by
  induction raw with
  | nil =>
      intro past out h _
      rw [List.append_nil]
      exact h
  | cons x rest ih =>
      intro past out h hall
      have hrest : ∀ y ∈ rest, y.isKevent = true := fun y hy => hall y (List.mem_cons_of_mem _ hy)
      have hassoc : past ++ x :: rest = (past ++ [x]) ++ rest := by simp
      rw [hassoc]
      cases x with
      | epoll token mask period => exact absurd (hall _ List.mem_cons_self) Bool.false_ne_true
      | kevent ident filter eof error =>
          unfold pollerTranslate
          by_cases hwake : p.isWake (.kevent ident filter eof error) = true
          · rw [if_pos hwake]
            refine ih (h.skip fun fd => ?_) hrest
            simp [RawEvent.readyFor, hwake]
          · rw [if_neg hwake]
            rw [Bool.not_eq_true] at hwake
            refine ih (h.merge (translateReadyEvent_ne_none filter eof error) fun g => ?_) hrest
            simp [RawEvent.readyFor, hwake, eq_comm]

theorem empty (p : Poller) : Merged p [] [] :=
  ⟨List.nodup_nil, fun fd => by simp [readyUnion], fun e he => absurd he List.not_mem_nil⟩

/-- The output announces what the raw events say. -/
theorem announces_iff (h : Merged p raw out) (fd : Int) (d : Filter) :
    Announces out fd d ↔ (readyUnion p raw fd).has d = true := by
  constructor
  · rintro ⟨e, he, rfl, hd⟩
    rw [← h.events e he]
    exact hd
  · intro hd
    have hne : readyUnion p raw fd ≠ .none := by
      intro habs
      rw [(IoEvents.eq_none_iff _).mp habs d] at hd
      exact absurd hd Bool.false_ne_true
    obtain ⟨e, he, rfl⟩ := List.mem_map.mp ((h.listed fd).mpr hne)
    exact ⟨e, he, rfl, by rw [h.events e he]; exact hd⟩

end Merged

/-- A descriptor has an event in the union if some raw event other than that of the wake
pipe is about it. -/
theorem readyUnion_ne_none (p : Poller) (fd : Int) (raw : List RawEvent) :
    readyUnion p raw fd ≠ .none ↔ ∃ filter eof error, .kevent fd filter eof error ∈ raw ∧
      ¬(fd = p.wakeReadFd ∧ filter = .read) := by
  induction raw using List.reverseRecOn with
  | nil => simp [readyUnion]
  | append_singleton raw x ih =>
      rw [readyUnion_append]
      by_cases hx : x.readyFor p fd = .none
      · rw [hx, IoEvents.union_none, ih]
        constructor
        · rintro ⟨filter, eof, error, hmem, hwake⟩
          exact ⟨filter, eof, error, List.mem_append_left _ hmem, hwake⟩
        · rintro ⟨filter, eof, error, hmem, hwake⟩
          rcases List.mem_append.mp hmem with hmem | hmem
          · exact ⟨filter, eof, error, hmem, hwake⟩
          · rw [List.mem_singleton] at hmem
            subst hmem
            simp only [RawEvent.readyFor, Poller.isWake, hwake, decide_false, and_self,
              if_true] at hx
            exact absurd hx (translateReadyEvent_ne_none filter eof error)
      · refine ⟨fun _ => ?_, fun _ => IoEvents.union_ne_none hx⟩
        cases x with
        | epoll token mask period => exact absurd rfl hx
        | kevent ident filter eof error =>
            unfold RawEvent.readyFor at hx
            dsimp only at hx
            split at hx
            · next hready =>
              obtain ⟨hwake, rfl⟩ := hready
              refine ⟨filter, eof, error, by simp, ?_⟩
              simpa [Poller.isWake] using hwake
            · exact absurd rfl hx

/-! ## Delivery -/

/-- kqueue takes every change that is not refused. -/
theorem kqueue_adjusts {o : PollerOracle} {p : Poller} {fd : Int} (hb : p.backend = .kqueue)
    (hok : ∀ d enable, o.filterOk fd d enable = true) : Adjusts o p fd := by
  have happly : ∀ (x : Poller) filter enable,
      (applyFilterChange o x fd filter enable).2 = true := by
    intro x filter enable
    unfold applyFilterChange
    rw [if_pos (hok filter enable)]
  have hsync : ∀ (x : Poller) old new filter,
      (syncFilter o x fd old new filter).2 = true := by
    intro x old new filter
    unfold syncFilter
    split
    · rfl
    · exact happly ..
  intro old new _ _
  unfold croutinePollerSet
  rw [hb]
  dsimp only
  unfold kqueuePollerSet
  split
  · rfl
  · have hread := hsync p old new .read
    split
    · next p1 heq =>
      rw [heq] at hread
      exact absurd hread Bool.false_ne_true
    · next p1 heq =>
      have hwrite := hsync p1 old new .write
      split
      · rfl
      · next p2 heq2 =>
        rw [heq2] at hwrite
        exact absurd hwrite Bool.false_ne_true

/-- Once the table is gone a batch finds no one. -/
theorem Gone.batch {s : Sys} (h : Gone s) (o : Oracle) (events : List PollEvent) :
    events.foldlM (applyPollEvent o) s = .ok s := by
  induction events with
  | nil => rfl
  | cons e rest ih =>
      rw [List.foldlM_cons, Res.bind_ok]
      refine ⟨s, ?_, ih⟩
      unfold applyPollEvent wakeWaitingTasksLocked
      rw [h.io]
      rfl

/-- A worker on kqueue that applies a batch gets through it, if nothing is refused. -/
theorem kqueue_batch_returns {o : Oracle} {s : Sys} (h : (runtime .kqueue).Reach s)
    (hlock : s.wk.lock = none) (ho : o.Grants) (events : List PollEvent) :
    ∃ s', events.foldlM (applyPollEvent o) (releasePoller s) = .ok s' := by
  by_cases hdown : s.life = .down
  · have hgone := (IoInv.reach h).gone hdown
    have hgone' : Gone (releasePoller s) := ⟨hgone.runq, hgone.io, hgone.watch⟩
    exact ⟨_, hgone'.batch o events⟩
  · have hstep : ∀ (x : Sys) (e : PollEvent), TaskInv x ∧ x.wk.lock = none ∧
        0 < x.runq.capacity ∧ x.poller.backend = .kqueue →
        ∃ x', applyPollEvent o x e = .ok x' ∧ TaskInv x' ∧ x'.wk.lock = none ∧
          0 < x'.runq.capacity ∧ x'.poller.backend = .kqueue := by
      rintro x e ⟨hx, hl, hring, hb⟩
      obtain ⟨x', n, hwake⟩ := hx.wakeIo_returns (fun _ => ho.grow _) hring
        (fun _ => kqueue_adjusts hb (ho.filter e.fd)) e.events true e.period
      refine ⟨x', Res.bind_ok.mpr ⟨_, hwake, rfl⟩, hx.wakeIo hl hwake,
        (wakeWaitingTasksLocked_woke hwake).fields.2.1.trans hl,
        (wakeWaitingTasksLocked_doubled hwake).pos hring, ?_⟩
      exact PollerChanges.invariant (I := fun p => p.backend = .kqueue)
        (fun _ _ hchange hp => hchange.backend.trans hp) (hx.wakeIo_changes hwake) hb
    have hring : 0 < (releasePoller s).runq.capacity := ring_reach (s := s) h hdown
    have hb : (releasePoller s).poller.backend = .kqueue := backend_reach (s := s) h hdown
    obtain ⟨s', hs', _⟩ := Res.foldlM_returns hstep events
      ⟨(TaskInv.reach h hdown).releasePoller, hlock, hring, hb⟩
    exact ⟨s', hs'⟩

/-- **No event of kqueue is lost.**  Whatever the raw events of a batch are, the output of
`croutine_poller_wait` lists each descriptor once, and exactly those with a raw event other
than the read event of the wake pipe; the events it gives a descriptor are the union of what
its raw events say.  From every state in which a worker can take the lock, applying the
output wakes each task parked on a reported descriptor and direction once and no other. -/
theorem kqueue_events_delivered {s : Sys} (h : (runtime .kqueue).Reach s)
    (hlock : s.wk.lock = none) (p : Poller) {raw : List RawEvent}
    (hraw : ∀ x ∈ raw, x.isKevent = true) :
    ((pollerTranslate p [] raw).map (·.fd)).Nodup ∧
    (pollerTranslate p [] raw).length ≤ raw.length ∧
    (∀ fd, fd ∈ (pollerTranslate p [] raw).map (·.fd) ↔
      ∃ filter eof error, .kevent fd filter eof error ∈ raw ∧
        ¬(fd = p.wakeReadFd ∧ filter = .read)) ∧
    (∀ e ∈ pollerTranslate p [] raw, e.events = readyUnion p raw e.fd) ∧
    (∀ o s', (pollerTranslate p [] raw).foldlM (applyPollEvent o) (releasePoller s) = .ok s' →
      ∃ woken, Delivered s (fun fd d => (readyUnion p raw fd).has d = true) true woken s') ∧
    (∀ o : Oracle, o.Grants →
      ∃ s', (pollerTranslate p [] raw).foldlM (applyPollEvent o) (releasePoller s) = .ok s') := by
  have hmerged := Merged.translate raw (Merged.empty p) hraw
  rw [List.nil_append] at hmerged
  refine ⟨hmerged.nodup, by simpa using pollerTranslate_length_le p raw [], ?_, hmerged.events,
    ?_, fun o ho => kqueue_batch_returns h hlock ho _⟩
  · intro fd
    rw [hmerged.listed, readyUnion_ne_none]
  · intro o s' hbatch
    obtain ⟨woken, hwoken⟩ : ∃ woken,
        Delivered (releasePoller s) (Announces (pollerTranslate p [] raw)) true woken s' := by
      by_cases hdown : s.life = .down
      · have hgone := (IoInv.reach h).gone hdown
        have hgone' : Gone (releasePoller s) := ⟨hgone.runq, hgone.io, hgone.watch⟩
        rw [hgone'.batch] at hbatch
        cases hbatch
        have hslot : ∀ fd d, (releasePoller s).io.slot fd d = none := by
          intro fd d
          rw [hgone'.io]
          rfl
        exact ⟨[], (List.append_nil _).symm, List.nodup_nil, fun t => by simp [hslot],
          fun fd d _ => hslot fd d, fun _ _ _ => rfl, fun t ht => absurd ht List.not_mem_nil,
          fun _ _ => rfl⟩
      · exact (TaskInv.reach h hdown).releasePoller.deliver_batch _ hlock hbatch
    have hunion := hwoken.congr hmerged.announces_iff
    exact ⟨woken, hunion.queue, hunion.nodup, hunion.mem, hunion.cleared, hunion.others,
      hunion.awake, hunion.kept⟩

/-- A batch in which descriptor 5 is reported twice, with an event of the wake pipe in
between. -/
def mixedBatch : List RawEvent :=
  [.kevent 5 .read false false, .kevent 3 .read false false, .kevent 5 .write true false]

theorem kqueue_events_delivered_parked :
    ∃ s s' woken, (runtime .kqueue).Reach s ∧ s.io.slot 5 .read = some 0 ∧
      pollerTranslate s.poller [] mixedBatch = [⟨5, .all, 0⟩] ∧
      (pollerTranslate s.poller [] mixedBatch).foldlM (applyPollEvent .calm) (releasePoller s) =
        .ok s' ∧
      Delivered s (fun fd d => (readyUnion s.poller mixedBatch fd).has d = true) true woken s' ∧
      0 ∈ woken := by
  have hreach : (runtime .kqueue).Reach
      ((runtime .kqueue).after (initial .kqueue 3 1 4 4) parkedOnFd) :=
    Machine.reach_after ⟨3, 1, 4, 4, by decide, by decide, rfl⟩ (by decide)
  have hraw : ∀ x ∈ mixedBatch, x.isKevent = true := by decide
  obtain ⟨_, _, _, _, hdelivers, hreturns⟩ := kqueue_events_delivered hreach (by decide)
    ((runtime .kqueue).after (initial .kqueue 3 1 4 4) parkedOnFd).poller hraw
  obtain ⟨s', hs'⟩ := hreturns .calm ⟨fun _ => rfl, fun _ _ _ => rfl, fun _ _ _ => rfl⟩
  obtain ⟨woken, hwoken⟩ := hdelivers .calm s' hs'
  exact ⟨_, s', woken, hreach, by decide, by decide, hs', hwoken,
    (hwoken.mem 0).mpr ⟨5, .read, by decide, by decide⟩⟩

end Croutine
