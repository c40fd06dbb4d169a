import Croutine.Periods
import Croutine.Runtime

/-!
# The filter of epoll events

`croutine_poller_wait` drops an event when the table of descriptors says that the
registration it was collected for is gone.  The table is compared by a flag and a wrapping
32-bit generation; what it should say is known from the kernel's interest list, where the
registrations are numbered without wrapping.

`pollerCalls` is the poller alone: any calls of `croutine_poller_set`, each with the events
the descriptor is registered for, and any changes of readiness.  In every state of it the
flag and the generation tell the registration in force from all earlier ones that are fewer
than `2 ^ 32` changes old.
-/

namespace Croutine

namespace Poller

/-- The events a descriptor is registered for. -/
def registeredEvents (p : Poller) (fd : Int) : IoEvents :=
  match p.interest fd with
  | some r => ⟨r.mask.input, r.mask.output⟩
  | none => .none

end Poller

/-- A call of `croutine_poller_set`, or a change of readiness in the kernel. -/
inductive PollerMove where
  | set (o : PollerOracle) (fd : Int) (newEvents : IoEvents)
  | ready (mask : Int → EpollMask)

/-- The epoll poller under any sequence of calls; callers pass the registered events as the
old ones. -/
def pollerCalls : Machine Poller PollerMove where
  init p := ∃ wakeFd, p = (initial .epoll wakeFd 1 1 1).poller
  step p
    | .set o fd newEvents =>
      if isInt fd then .ok (croutinePollerSet o p fd (p.registeredEvents fd) newEvents).1
      else .error .disabled
    | .ready mask => .ok { p with ready := mask }

/-- The table of descriptors and the interest list say the same. -/
structure Filed (p : Poller) : Prop where
  registered : Registered p
  watched : ∀ fd, p.Watches fd (p.registeredEvents fd)
  flagged : ∀ fd, p.inTable fd = true →
    (p.fdRegistered fd.toNat = true ↔ ∃ r, p.interest fd = some r)

namespace Filed

variable {p q : Poller} {fd : Int} {new : IoEvents} {ok : Bool}

/-- A descriptor without events has no registration. -/
theorem free (h : Filed p) (hnone : p.registeredEvents fd = .none) : p.interest fd = none := by
  have hwatch := (Poller.watches_epoll h.registered.backend).mp (h.watched fd)
  rw [if_pos hnone, Option.map_eq_none_iff] at hwatch
  exact hwatch

/-- Two descriptors of the table have two indices. -/
theorem toNat_ne {g : Int} (hfd : p.inTable fd = true) (hg : p.inTable g = true) (hne : g ≠ fd) :
    g.toNat ≠ fd.toNat := by
  have hpos := (Poller.inTable_iff.mp hfd).1
  have hpos' := (Poller.inTable_iff.mp hg).1
  omega

/-- A table that has grown says the same of the descriptors. -/
theorem grown (h : Filed p) (hg : p.Grown fd q) (g : Int) (hin : q.inTable g = true) :
    q.fdRegistered g.toNat = true ↔ ∃ r, p.interest g = some r := by
  obtain ⟨hpos, hlt⟩ := Poller.inTable_iff.mp hin
  by_cases hold : g.toNat < p.fdTableCapacity
  · rw [(hg.kept _ hold).2]
    exact h.flagged g (Poller.inTable_iff.mpr ⟨hpos, hold⟩)
  · rw [(hg.fresh _ (Nat.le_of_not_lt hold) hlt).2]
    refine ⟨fun habs => absurd habs (by simp), ?_⟩
    rintro ⟨r, hr⟩
    exact absurd (Poller.inTable_iff.mp (h.registered.entry g r hr).2.1).2 hold

/-- Every outcome of `poller_set_locked` keeps the flags right. -/
theorem epollSet_flagged (h : Filed p)
    (hset : EpollSet p fd (p.registeredEvents fd) new q ok) (g : Int) (hin : q.inTable g = true) :
    q.fdRegistered g.toNat = true ↔ ∃ r, q.interest g = some r := by
  cases hset with
  | same heq => exact h.flagged g hin
  | unchanged => exact h.flagged g hin
  | deleted hnone =>
      by_cases hfd : p.inTable fd = true
      · rw [if_pos hfd] at hin ⊢
        have hing : p.inTable g = true := hin
        by_cases hgfd : g = fd
        · subst hgfd
          simp [Poller.bump, Poller.setRegistered, Poller.setInterest]
        · have hne := toNat_ne hfd hing hgfd
          simpa [Poller.bump, Poller.setRegistered, Poller.setInterest, hgfd, hne] using
            h.flagged g hing
      · rw [if_neg hfd] at hin ⊢
        have hing : p.inTable g = true := hin
        have hgfd : g ≠ fd := fun heq => hfd (heq ▸ hing)
        simpa [Poller.setInterest, hgfd] using h.flagged g hing
  | @added hold hnew q1 hgrown hfree =>
      have hing : q1.inTable g = true := hin
      by_cases hgfd : g = fd
      · subst hgfd
        simp [Poller.register, Poller.setRegistered, Poller.setInterest]
      · have hne := toNat_ne hgrown.room hing hgfd
        have hq1 : q1.interest = p.interest := by rw [hgrown.fields]
        simpa [Poller.bump, Poller.register, Poller.setRegistered, Poller.setInterest, hgfd, hne,
          hq1] using h.grown hgrown g hing
  | @addFailed hold q1 hgrown =>
      have hq1 : q1.interest = p.interest := by rw [hgrown.fields]
      have hing : q1.inTable g = true := hin
      show q1.fdRegistered g.toNat = true ↔ ∃ r, q1.interest g = some r
      rw [hq1]
      exact h.grown hgrown g hing
  | @modified hold hnew r hreg =>
      have hing : p.inTable g = true := hin
      by_cases hgfd : g = fd
      · subst hgfd
        show p.fdRegistered g.toNat = true ↔ _
        rw [h.flagged g hing]
        simp [Poller.setInterest, hreg]
      · simpa [Poller.setInterest, hgfd] using h.flagged g hing

/-- What the kernel watches is read off its interest list. -/
theorem watches_registeredEvents (hb : p.backend = .epoll) {events : IoEvents}
    (h : p.Watches fd events) : p.registeredEvents fd = events := by
  rw [Poller.watches_epoll hb] at h
  unfold Poller.registeredEvents
  by_cases hnone : events = .none
  · rw [if_pos hnone, Option.map_eq_none_iff] at h
    rw [h, hnone]
  · rw [if_neg hnone, Option.map_eq_some_iff] at h
    obtain ⟨r, hr, hmask⟩ := h
    rw [hr]
    dsimp only
    rw [hmask]
    rfl

/-- `croutine_poller_set` keeps the registrations filed. -/
theorem set {o : PollerOracle} (h : Filed p) (hint : isInt fd = true) :
    Filed (croutinePollerSet o p fd (p.registeredEvents fd) new).1 := by
  have hb := h.registered.backend
  obtain ⟨q, ok, hq⟩ : ∃ q ok, croutinePollerSet o p fd (p.registeredEvents fd) new = (q, ok) :=
    ⟨_, _, rfl⟩
  have hset := croutinePollerSet_epoll hb hq
  rw [hq]
  have hlt : fd < 2 ^ 31 := by
    simp only [isInt, Bool.and_eq_true, decide_eq_true_eq] at hint
    exact hint.2
  have hreg := h.registered.epollSet hlt hset h.free
  refine ⟨hreg, fun g => ?_, h.epollSet_flagged hset⟩
  -- the kernel watches some set of events, so it is the one read off the list
  obtain ⟨events, hevents⟩ : ∃ events, q.Watches g events := by
    cases ok with
    | true =>
        obtain ⟨_, hnew, hothers⟩ := croutinePollerSet_ok hq (h.watched fd)
        by_cases hg : g = fd
        · exact ⟨new, hg ▸ hnew⟩
        · exact ⟨_, hothers g _ hg (h.watched g)⟩
    | false =>
        refine ⟨p.registeredEvents g, ?_⟩
        rw [Poller.watches_epoll hreg.backend, hset.interest.2.2.2 rfl]
        exact (Poller.watches_epoll hb).mp (h.watched g)
  rw [watches_registeredEvents hreg.backend hevents]
  exact hevents

/-- **The check of flag and generation** lets an event pass exactly if the registration it
was collected for is in force, provided that fewer than `2 ^ 32` changes of generation lie
between. -/
theorem translate {mask : EpollMask} {period : Nat} (h : Filed p) (hpos : 0 ≤ fd)
    (hlt : fd < 2 ^ 31) (hbegun : p.Begun fd period)
    (hwrap : p.bumps fd.toNat < p.began period + 2 ^ 32) :
    epollTranslate p (fdToken (p.began period % 2 ^ 32) fd) mask period =
      if (p.interest fd).map (·.period) = some period ∧ fromEpollEvents mask ≠ .none then
        some ⟨fd, fromEpollEvents mask, period⟩
      else none := by
  have hgen := @fdToken_generation fd _ (Nat.mod_lt (p.began period) (show 0 < 2 ^ 32 by decide))
  have hpast := hbegun.past
  have hpass : (!p.inTable fd || !p.fdRegistered fd.toNat ||
      decide (p.fdGenerations fd.toNat ≠ p.began period % 2 ^ 32)) = false ↔
      (p.interest fd).map (·.period) = some period := by
    simp only [Bool.or_eq_false_iff, Bool.not_eq_false', decide_eq_false_iff_not, not_not,
      Option.map_eq_some_iff]
    constructor
    · rintro ⟨⟨hin, hflag⟩, hmatch⟩
      obtain ⟨r, hr⟩ := (h.flagged fd hin).mp hflag
      rw [h.registered.generation _ (Poller.inTable_iff.mp hin).2] at hmatch
      exact ⟨r, hr, hbegun.current (by omega) r hr⟩
    · rintro ⟨r, hr, hperiod⟩
      obtain ⟨_, hin, ⟨_, hbegan⟩, _⟩ := h.registered.entry fd r hr
      refine ⟨⟨hin, (h.flagged fd hin).mpr ⟨r, hr⟩⟩, ?_⟩
      rw [h.registered.generation _ (Poller.inTable_iff.mp hin).2, ← hbegan, hperiod]
  unfold epollTranslate
  dsimp only
  rw [tokenFd_fdToken hpos hlt, hgen]
  by_cases hforce : (p.interest fd).map (·.period) = some period
  · rw [hpass.mpr hforce, if_neg (by simp)]
    by_cases hnone : fromEpollEvents mask = .none
    · rw [if_pos hnone, if_neg (by simp [hnone])]
    · rw [if_neg hnone, if_pos ⟨hforce, hnone⟩]
  · have hstop := mt hpass.mp hforce
    rw [Bool.not_eq_false] at hstop
    rw [if_pos hstop, if_neg (fun hp => hforce hp.1)]

end Filed

/-- The first poller is filed. -/
theorem Filed.initial (wakeFd : Int) : Filed (initial .epoll wakeFd 1 1 1).poller where
  registered := ⟨rfl, fun _ _ hr => absurd hr (by simp [Croutine.initial]),
    fun _ hn => absurd hn (by simp [Croutine.initial]), fun _ _ => rfl⟩
  watched _ := rfl
  flagged fd hin := absurd (Poller.inTable_iff.mp hin).2 (by simp [Croutine.initial])

/-- **Filed registrations, step.** A call of the poller keeps them filed and keeps the periods.
-/
theorem Filed.step {p q : Poller} {a : PollerMove} (h : Filed p)
    (hstep : pollerCalls.step p a = .ok q) : Filed q ∧ p.Later q := by
  cases a with
  | set o fd newEvents =>
      have hstep : (if isInt fd then
          .ok (croutinePollerSet o p fd (p.registeredEvents fd) newEvents).1
        else .error .disabled : Res Poller) = .ok q := hstep
      split at hstep
      · next hint =>
        cases hstep
        exact ⟨h.set hint, (croutinePollerSet_epoll h.registered.backend rfl).later⟩
      · exact absurd hstep (by simp)
  | ready mask =>
      cases hstep
      exact ⟨⟨⟨h.registered.backend, h.registered.entry, h.registered.generation,
        h.registered.untouched⟩, h.watched, h.flagged⟩, .ready p mask⟩

/-- **The table is right in every state of the poller.** -/
theorem Filed.reach {p : Poller} (h : pollerCalls.Reach p) : Filed p := by
  refine Machine.ReachVia.invariant (I := Filed) ?_ (fun _ _ _ _ hI _ hs => (hI.step hs).1) h
  rintro p ⟨wakeFd, rfl⟩
  exact .initial wakeFd

/-! ## A batch -/

/-- What should be reported of an item collected in the state `p` when the filter runs in
the state `q`: the descriptor with the translated bits, if the registration it had is still
in force and some bit is left. -/
def Reported.inForce (p q : Poller) : Reported → Option PollEvent
  | .epoll fd mask =>
    match p.interest fd, q.interest fd with
    | some r, some r' =>
      if r'.period = r.period ∧ fromEpollEvents mask ≠ .none then
        some ⟨fd, fromEpollEvents mask, r.period⟩
      else none
    | _, _ => none
  | .wake | .kevent _ _ _ _ => none

/-- No descriptor has the token of the wake event, whatever its generation. -/
theorem fdToken_ne_wakeToken {fd : Int} (generation : Nat) (hpos : 0 ≤ fd) (hlt : fd < 2 ^ 31) :
    fdToken generation fd ≠ wakeToken := by
  unfold fdToken wakeToken
  omega

/-- One item of a batch. -/
theorem Filed.translate_report {p q : Poller} (hp : Filed p) (hq : Filed q)
    (hlater : p.Later q) (hwrap : ∀ n, q.bumps n < p.bumps n + 2 ^ 32)
    {wakePending : Bool} {x : Reported} {raw : RawEvent}
    (hx : p.report wakePending x = some raw) (out : List PollEvent) (rest : List RawEvent) :
    pollerTranslate q out (raw :: rest) =
      pollerTranslate q (out ++ (x.inForce p q).toList) rest := by
  have hb := hp.registered.backend
  unfold Poller.report at hx
  cases x with
  | wake =>
      dsimp only at hx
      rw [hb] at hx
      split at hx
      · cases hx
        rw [pollerTranslate, if_pos (by simp [Poller.isWake])]
        simp [Reported.inForce]
      · exact absurd hx (by simp)
  | epoll fd mask =>
      dsimp only at hx
      rw [hb] at hx
      split at hx
      · next _ r _ hr =>
        split at hx
        · cases hx
          obtain ⟨hlt, hin, ⟨hle, hbegan⟩, htoken⟩ := hp.registered.entry fd r hr
          obtain ⟨hpos, hcap⟩ := Poller.inTable_iff.mp hin
          have hsame := hlater.began r.period hle
          rw [hp.registered.generation _ hcap, ← hbegan, ← hsame] at htoken
          have hwake : q.isWake (.epoll r.token mask r.period) = false := by
            rw [htoken]
            exact decide_eq_false (fdToken_ne_wakeToken _ hpos hlt)
          have hfew : q.bumps fd.toNat < q.began r.period + 2 ^ 32 := by
            rw [hsame, hbegan]
            exact hwrap _
          rw [pollerTranslate, if_neg (by rw [hwake]; simp), htoken,
            hq.translate hpos hlt (hlater.begun fd r.period (hp.registered.begun hr)) hfew]
          congr 2
          unfold Reported.inForce
          dsimp only
          rw [hr]
          cases hr' : q.interest fd with
          | none => simp
          | some r' => simp
        · exact absurd hx (by simp)
      · exact absurd hx (by simp)
  | kevent fd filter eof error =>
      dsimp only at hx
      rw [hb] at hx
      simp at hx

/-- A batch is filtered item by item, in order. -/
theorem Filed.translate_batch {p q : Poller} (hp : Filed p) (hq : Filed q)
    (hlater : p.Later q) (hwrap : ∀ n, q.bumps n < p.bumps n + 2 ^ 32)
    {wakePending : Bool} :
    ∀ (batch : List Reported) {raw : List RawEvent} (out : List PollEvent),
      batch.mapM (p.report wakePending) = some raw →
      pollerTranslate q out raw = out ++ batch.filterMap (Reported.inForce p q) := by
  intro batch
  induction batch with
  | nil =>
      intro raw out h
      cases Option.some.inj h
      simp [pollerTranslate]
  | cons x rest ih =>
      intro raw out h
      rw [List.mapM_cons] at h
      obtain ⟨y, hy, h⟩ := Option.bind_eq_some_iff.mp h
      obtain ⟨ys, hys, h⟩ := Option.bind_eq_some_iff.mp h
      cases Option.some.inj h
      rw [hp.translate_report hq hlater hwrap hy, ih _ hys, List.filterMap_cons]
      cases hforce : x.inForce p q <;> simp

/-- **The epoll filter is exact.**  A batch is collected in any state `p` of the poller and
filtered after any further calls, in the state `q`.  If no descriptor has changed its
generation `2 ^ 32` times in between, exactly the items whose registration is still in force
and whose bits mean something are reported, in order.  The wake event is never taken for a
descriptor. -/
theorem epoll_filter_exact {p q : Poller} (h : pollerCalls.Reach p) {wakePending : Bool}
    {batch : List Reported} {raw : List RawEvent}
    (hraw : batch.mapM (p.report wakePending) = some raw) {window : List PollerMove}
    (hrun : pollerCalls.run p window = .ok q)
    (hwrap : ∀ n, q.bumps n < p.bumps n + 2 ^ 32) :
    pollerTranslate q [] raw = batch.filterMap (Reported.inForce p q) ∧
    (pollerTranslate q [] raw).length ≤ raw.length ∧
    ∀ fd generation, 0 ≤ fd → isInt fd = true → generation < 2 ^ 32 →
      fdToken generation fd ≠ wakeToken := by
  have hp := Filed.reach h
  obtain ⟨_, hq, hlater⟩ := Machine.ReachVia.run_invariant
    (I := fun x => Filed x ∧ p.Later x)
    (fun x a x' _ hI _ hstep => ⟨(hI.1.step hstep).1, hI.2.trans (hI.1.step hstep).2⟩)
    window h ⟨hp, .refl p⟩ (fun _ _ _ => trivial) hrun
  have heq := hp.translate_batch hq hlater hwrap batch [] hraw
  rw [List.nil_append] at heq
  refine ⟨heq, ?_, fun fd generation hpos hint _ => ?_⟩
  · simpa using pollerTranslate_length_le q raw []
  · simp only [isInt, Bool.and_eq_true, decide_eq_true_eq] at hint
    exact fdToken_ne_wakeToken generation hpos hint.2

/-- Descriptors 5 and 6 are registered and ready to be read. -/
def twoReady : List PollerMove :=
  [.set Oracle.calm.poller 5 ⟨true, false⟩, .set Oracle.calm.poller 6 ⟨true, false⟩,
    .ready fun _ => { EpollMask.empty with input := true }]

/-- Descriptor 5 is deleted and registered anew while its event is under way. -/
def registersAnew : List PollerMove :=
  [.set Oracle.calm.poller 5 .none, .set Oracle.calm.poller 5 ⟨true, false⟩]

theorem epoll_filter_exact_anew :
    ∃ p q raw, pollerCalls.Reach p ∧ pollerCalls.run p registersAnew = .ok q ∧
      [Reported.wake, .epoll 5 { EpollMask.empty with input := true },
        .epoll 6 { EpollMask.empty with input := true }].mapM (p.report true) = some raw ∧
      pollerTranslate q [] raw = [⟨6, ⟨true, false⟩, 2⟩] := by
  have hreach : pollerCalls.Reach
      (pollerCalls.after (initial .epoll 3 1 1 1).poller twoReady) :=
    Machine.reach_after ⟨3, rfl⟩ (by decide +kernel)
  have hrun := Machine.run_eq_after (M := pollerCalls)
    (s := pollerCalls.after (initial .epoll 3 1 1 1).poller twoReady) (l := registersAnew)
    (by decide +kernel)
  have hraw : [Reported.wake, .epoll 5 { EpollMask.empty with input := true },
      .epoll 6 { EpollMask.empty with input := true }].mapM
        ((pollerCalls.after (initial .epoll 3 1 1 1).poller twoReady).report true) =
      some [.epoll wakeToken { EpollMask.empty with input := true } 0,
        .epoll (fdToken 1 5) { EpollMask.empty with input := true } 1,
        .epoll (fdToken 1 6) { EpollMask.empty with input := true } 2] := by decide +kernel
  have hexact := (epoll_filter_exact hreach hraw hrun ?_).1
  · exact ⟨_, _, _, hreach, hrun, hraw, hexact.trans (by decide +kernel)⟩
  · intro n
    have hp : (pollerCalls.after (initial .epoll 3 1 1 1).poller twoReady).bumps =
        Function.update (Function.update (fun _ => 0) 5 1) 6 1 := rfl
    have hq : (pollerCalls.after (pollerCalls.after (initial .epoll 3 1 1 1).poller twoReady)
        registersAnew).bumps = Function.update (Function.update (Function.update
          (Function.update (fun _ => 0) 5 1) 6 1) 5 2) 5 3 := rfl
    rw [hp, hq]
    by_cases hn : n = 5
    · subst hn
      decide
    · simp [hn]

end Croutine
