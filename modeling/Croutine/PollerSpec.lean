import Mathlib.Tactic.Common
import Croutine.Poller

/-!
# What changing a registration does

The outcomes of `croutine_poller_set` on both back ends.  On epoll a change of
interest adds, modifies or deletes a registration, and on kqueue it adds and
deletes filters one at a time.  `Poller.Watches` is what the kernel then knows of a
descriptor; it follows the requested events through every success, and through
every failure to add one direction.
-/

namespace Croutine

/-- The kernel watches the descriptor for exactly these directions. -/
def Poller.Watches (p : Poller) (fd : Int) (events : IoEvents) : Prop :=
  match p.backend with
  | .epoll =>
    (p.interest fd).map (·.mask) =
      if events = .none then none else some (toEpollEvents events)
  | .kqueue => p.filters fd = events

/-! ## epoll -/

/-- The capacity that the doubling loop stops at is large enough, and not smaller than before.
-/
theorem fdCapacityFor_some {needed : Nat} :
    ∀ (rounds capacity result : Nat), fdCapacityFor needed rounds capacity = some result →
      needed ≤ result ∧ capacity ≤ result := by
  intro rounds
  induction rounds with
  | zero =>
      intro capacity result h
      exact absurd h (by simp [fdCapacityFor])
  | succ n ih =>
      intro capacity result h
      unfold fdCapacityFor at h
      split at h
      · split at h
        · exact absurd h (by simp)
        · obtain ⟨hneeded, hcap⟩ := ih _ _ h
          exact ⟨hneeded, by omega⟩
      · next hlt =>
        cases h
        exact ⟨by omega, Nat.le_refl _⟩

/-- The fd table has room for `fd`: it is the old one, or a larger copy of it with
zeroes behind. -/
structure Poller.Grown (p : Poller) (fd : Int) (q : Poller) : Prop where
  fields : q = { p with
    fdGenerations := q.fdGenerations, fdRegistered := q.fdRegistered,
    fdTableCapacity := q.fdTableCapacity }
  room : q.inTable fd = true
  larger : p.fdTableCapacity ≤ q.fdTableCapacity
  kept : ∀ n, n < p.fdTableCapacity →
    q.fdGenerations n = p.fdGenerations n ∧ q.fdRegistered n = p.fdRegistered n
  fresh : ∀ n, p.fdTableCapacity ≤ n → n < q.fdTableCapacity →
    q.fdGenerations n = 0 ∧ q.fdRegistered n = false

/-- `ensure_fd_capacity` leaves room for the descriptor. -/
theorem ensureFdCapacity_some {o : PollerOracle} {p q : Poller} {fd : Int}
    (h : ensureFdCapacity o p fd = some q) : p.Grown fd q := by
  unfold ensureFdCapacity at h
  split at h
  · exact absurd h (by simp)
  · next hneg =>
    have hpos : 0 ≤ fd := by omega
    split at h
    · next hroom =>
      cases h
      refine ⟨rfl, ?_, Nat.le_refl _, fun n _ => ⟨rfl, rfl⟩, fun n h1 h2 => by omega⟩
      simp only [Poller.inTable, hpos, decide_true, Bool.true_and, decide_eq_true_eq]
      omega
    · dsimp only at h
      split at h
      · exact absurd h (by simp)
      · next capacity hcap =>
        obtain ⟨hneeded, hstart⟩ := fdCapacityFor_some _ _ _ hcap
        split at h
        · cases h
          refine ⟨rfl, ?_, ?_, ?_, ?_⟩
          · simp only [Poller.inTable, hpos, decide_true, Bool.true_and, decide_eq_true_eq]
            omega
          · show p.fdTableCapacity ≤ capacity
            split at hstart <;> omega
          · intro n hn
            simp [hn]
          · intro n hn _
            simp [Nat.not_lt.mpr hn]
        · exact absurd h (by simp)

/-- The outcomes of `poller_set_locked`. -/
inductive EpollSet (p : Poller) (fd : Int) (old new : IoEvents) : Poller → Bool → Prop
  | same (heq : old = new) : EpollSet p fd old new p true
  | unchanged : EpollSet p fd old new p false
  | deleted (hnone : new = .none) :
      EpollSet p fd old new
        (if p.inTable fd then ((p.setInterest fd none).setRegistered fd false).bump fd
          else p.setInterest fd none) true
  | added (hold : old = .none) (hnew : new ≠ .none) {q : Poller} (hgrown : p.Grown fd q)
      (hfree : p.interest fd = none) :
      EpollSet p fd old new
        (((q.bump fd).register fd (toEpollEvents new)
          (fdToken ((q.bump fd).fdGenerations fd.toNat) fd)).setRegistered fd true) true
  | addFailed (hold : old = .none) {q : Poller} (hgrown : p.Grown fd q) :
      EpollSet p fd old new (q.bump fd) false
  | modified (hold : old ≠ .none) (hnew : new ≠ .none) {r : Registration}
      (hreg : p.interest fd = some r) :
      EpollSet p fd old new
        (p.setInterest fd (some { r with
          mask := toEpollEvents new, token := fdToken (p.fdGenerations fd.toNat) fd })) true

/-- An `EPOLL_CTL_DEL` that succeeds takes the descriptor out of the interest list. -/
theorem Poller.ctlDel_some {p q : Poller} {ok : Bool} {fd : Int}
    (h : p.ctlDel ok fd = some q) : q = p.setInterest fd none := by
  unfold Poller.ctlDel at h
  split at h
  · exact (Option.some.inj h).symm
  · exact absurd h (by simp)

/-- **What `poller_set_locked` does**, outcome by outcome. -/
theorem pollerSetLocked_cases {o : PollerOracle} {p q : Poller} {fd : Int}
    {old new : IoEvents} {ok : Bool} (h : pollerSetLocked o p fd old new = (q, ok)) :
    EpollSet p fd old new q ok := by
  unfold pollerSetLocked at h
  split at h
  · next heq =>
    obtain ⟨rfl, rfl⟩ := Prod.mk.inj h
    exact .same heq
  · split at h
    · next hnone =>
      split at h
      · next q1 hdel =>
        obtain ⟨rfl, rfl⟩ := Prod.mk.inj h
        rw [Poller.ctlDel_some hdel]
        exact .deleted hnone
      · obtain ⟨rfl, rfl⟩ := Prod.mk.inj h
        exact .unchanged
    · next hnew =>
      split at h
      · next hold =>
        split at h
        · obtain ⟨rfl, rfl⟩ := Prod.mk.inj h
          exact .unchanged
        · next q1 hensure =>
          have hgrown := ensureFdCapacity_some hensure
          dsimp only at h
          split at h
          · next r hadd =>
            obtain ⟨rfl, rfl⟩ := Prod.mk.inj h
            unfold Poller.ctlAdd at hadd
            split at hadd
            · exact absurd hadd (by simp)
            · next hfree =>
              split at hadd
              · cases hadd
                refine .added hold hnew hgrown ?_
                have hinterest : (q1.bump fd).interest = p.interest := by
                  show q1.interest = p.interest
                  rw [hgrown.fields]
                rwa [hinterest] at hfree
              · exact absurd hadd (by simp)
          · obtain ⟨rfl, rfl⟩ := Prod.mk.inj h
            exact .addFailed hold hgrown
      · next hold =>
        split at h
        · obtain ⟨rfl, rfl⟩ := Prod.mk.inj h
          exact .unchanged
        · split at h
          · next q1 hmod =>
            obtain ⟨rfl, rfl⟩ := Prod.mk.inj h
            unfold Poller.ctlMod at hmod
            split at hmod
            · exact absurd hmod (by simp)
            · next r hreg =>
              split at hmod
              · cases hmod
                exact .modified hold hnew hreg
              · exact absurd hmod (by simp)
          · obtain ⟨rfl, rfl⟩ := Prod.mk.inj h
            exact .unchanged

/-- A change on epoll concerns one descriptor, and a failed one no registration. -/
theorem EpollSet.interest {p q : Poller} {fd : Int} {old new : IoEvents} {ok : Bool}
    (h : EpollSet p fd old new q ok) :
    q.backend = p.backend ∧ q.filters = p.filters ∧
      (∀ g, g ≠ fd → q.interest g = p.interest g) ∧
      (ok = false → q.interest = p.interest) := by
  cases h with
  | same heq => exact ⟨rfl, rfl, fun _ _ => rfl, fun _ => rfl⟩
  | unchanged => exact ⟨rfl, rfl, fun _ _ => rfl, fun _ => rfl⟩
  | deleted hnone =>
      split <;> exact ⟨rfl, rfl, fun g hg => Function.update_of_ne hg _ _, fun h => by simp at h⟩
  | @added hold hnew q1 hgrown hfree =>
      have hf := hgrown.fields
      refine ⟨?_, ?_, ?_, fun h => by simp at h⟩
      · show q1.backend = p.backend
        rw [hf]
      · show q1.filters = p.filters
        rw [hf]
      · intro g hg
        show Function.update q1.interest fd _ g = p.interest g
        rw [Function.update_of_ne hg, hf]
  | @addFailed hold q1 hgrown =>
      have hf := hgrown.fields
      refine ⟨?_, ?_, fun g _ => ?_, fun _ => ?_⟩
      · show q1.backend = p.backend
        rw [hf]
      · show q1.filters = p.filters
        rw [hf]
      · show q1.interest g = p.interest g
        rw [hf]
      · show q1.interest = p.interest
        rw [hf]
  | modified hold hnew hreg =>
      exact ⟨rfl, rfl, fun g hg => Function.update_of_ne hg _ _, fun h => by simp at h⟩

/-- After a successful change the registration of the descriptor has the mask of
the new events. -/
theorem EpollSet.mask {p q : Poller} {fd : Int} {old new : IoEvents}
    (h : EpollSet p fd old new q true)
    (hold : (p.interest fd).map (·.mask) =
      if old = .none then none else some (toEpollEvents old)) :
    (q.interest fd).map (·.mask) =
      if new = .none then none else some (toEpollEvents new) := by
  cases h with
  | same heq => rw [← heq]; exact hold
  | deleted hnone =>
      rw [if_pos hnone]
      split <;> simp [Poller.setInterest, Poller.setRegistered, Poller.bump]
  | added hold' hnew hgrown hfree =>
      rw [if_neg hnew]
      simp [Poller.register, Poller.setInterest, Poller.setRegistered]
  | modified hold' hnew hreg =>
      rw [if_neg hnew]
      simp [Poller.setInterest]

/-! ## kqueue -/

/-- Putting a direction where it is changes nothing. -/
theorem IoEvents.put_has (events : IoEvents) (filter : Filter) :
    events.put filter (events.has filter) = events := by
  cases filter <;> rfl

variable {o : PollerOracle} {p q : Poller} {fd : Int} {old new : IoEvents} {filter : Filter}

/-- A change that the kernel accepted adds or deletes one filter. -/
theorem applyFilterChange_ok {enable : Bool}
    (h : applyFilterChange o p fd filter enable = (q, true)) :
    q = { p with filters := Function.update p.filters fd ((p.filters fd).put filter enable) } := by
  unfold applyFilterChange at h
  split at h
  · exact (Prod.mk.inj h).1.symm
  · exact absurd (Prod.mk.inj h).2 (by simp)

/-- A change that the kernel refused changes nothing. -/
theorem applyFilterChange_failed {enable : Bool}
    (h : applyFilterChange o p fd filter enable = (q, false)) : q = p := by
  unfold applyFilterChange at h
  split at h
  · exact absurd (Prod.mk.inj h).2 (by simp)
  · exact (Prod.mk.inj h).1.symm

/-- A direction that is synchronised is watched as the new interest says. -/
theorem syncFilter_ok (hold : (p.filters fd).has filter = old.has filter)
    (h : syncFilter o p fd old new filter = (q, true)) :
    q = { p with
      filters := Function.update p.filters fd ((p.filters fd).put filter (new.has filter)) } := by
  unfold syncFilter at h
  split at h
  · next hsame =>
    obtain ⟨rfl, _⟩ := Prod.mk.inj h
    rw [← hsame, ← hold, IoEvents.put_has, Function.update_eq_self]
  · exact applyFilterChange_ok h

/-- A direction is not synchronised only where the interest changes. -/
theorem syncFilter_failed (h : syncFilter o p fd old new filter = (q, false)) :
    q = p ∧ old.has filter ≠ new.has filter := by
  unfold syncFilter at h
  split at h
  · exact absurd (Prod.mk.inj h).2 (by simp)
  · next hne => exact ⟨applyFilterChange_failed h, hne⟩

/-- The kqueue back end watches the new interest when all changes were accepted. -/
theorem kqueuePollerSet_ok (hold : p.filters fd = old)
    (h : kqueuePollerSet o p fd old new = (q, true)) :
    q = { p with filters := Function.update p.filters fd new } := by
  unfold kqueuePollerSet at h
  split at h
  · next heq =>
    obtain ⟨rfl, _⟩ := Prod.mk.inj h
    rw [← heq, ← hold, Function.update_eq_self]
  · split at h
    · exact absurd (Prod.mk.inj h).2 (by simp)
    · next p1 hread =>
      have hp1 := syncFilter_ok (by rw [hold]) hread
      split at h
      · next p2 hwrite =>
        obtain ⟨rfl, _⟩ := Prod.mk.inj h
        have hf1 : p1.filters fd = old.put .read (new.has .read) := by
          rw [hp1, ← hold]
          exact Function.update_self ..
        have hwriteOld : (p1.filters fd).has .write = old.has .write := by
          rw [hf1]; rfl
        rw [syncFilter_ok hwriteOld hwrite, hf1, hp1]
        simp [Function.update_idem, IoEvents.put, IoEvents.has]
      · exact absurd (Prod.mk.inj h).2 (by simp)

/-- A failed attempt to add one direction leaves the filters as they were. -/
theorem kqueuePollerSet_failed {direction : Filter}
    (hnew : new = old.union (IoEvents.none.put direction true))
    (h : kqueuePollerSet o p fd old new = (q, false)) : q = p := by
  unfold kqueuePollerSet at h
  split at h
  · exact absurd (Prod.mk.inj h).2 (by simp)
  · split at h
    · next p1 hread =>
      obtain ⟨rfl, _⟩ := Prod.mk.inj h
      exact (syncFilter_failed hread).1
    · next p1 hread =>
      split at h
      · exact absurd (Prod.mk.inj h).2 (by simp)
      · next p2 hwrite =>
        obtain ⟨rfl, hne⟩ := syncFilter_failed hwrite
        obtain ⟨rfl, _⟩ := Prod.mk.inj h
        -- only the write filter was to change, so there is nothing to take back
        have hdir : direction = .write := by
          cases direction with
          | read => simp [hnew, IoEvents.union, IoEvents.put, IoEvents.has, IoEvents.none] at hne
          | write => rfl
        have hsame : old.has .read = new.has .read := by
          simp [hnew, hdir, IoEvents.union, IoEvents.put, IoEvents.has, IoEvents.none]
        unfold syncFilter at hread
        rw [if_pos hsame] at hread
        unfold reverseFilter
        rw [if_pos hsame]
        exact (Prod.mk.inj hread).1.symm

/-! ## Either back end -/

/-- What the epoll back end watches is in the interest list of the kernel. -/
theorem Poller.watches_epoll (hb : p.backend = .epoll) {events : IoEvents} :
    p.Watches fd events ↔ (p.interest fd).map (·.mask) =
      if events = .none then none else some (toEpollEvents events) := by
  unfold Poller.Watches
  rw [hb]

/-- What the kqueue back end watches are its filters. -/
theorem Poller.watches_kqueue (hb : p.backend = .kqueue) {events : IoEvents} :
    p.Watches fd events ↔ p.filters fd = events := by
  unfold Poller.Watches
  rw [hb]

/-- **A successful change.**  The kernel then watches the descriptor for the new
events and every other descriptor as before. -/
theorem croutinePollerSet_ok (h : croutinePollerSet o p fd old new = (q, true))
    (hold : p.Watches fd old) :
    q.backend = p.backend ∧ q.Watches fd new ∧
      ∀ g events, g ≠ fd → p.Watches g events → q.Watches g events := by
  unfold croutinePollerSet at h
  cases hb : p.backend with
  | epoll =>
      rw [hb] at h
      have hset := pollerSetLocked_cases h
      obtain ⟨hbackend, _, hothers, _⟩ := hset.interest
      have hqb : q.backend = .epoll := hbackend.trans hb
      refine ⟨hqb, ?_, ?_⟩
      · rw [Poller.watches_epoll hqb]
        exact hset.mask ((Poller.watches_epoll hb).mp hold)
      · intro g events hg hw
        rw [Poller.watches_epoll hqb, hothers g hg]
        exact (Poller.watches_epoll hb).mp hw
  | kqueue =>
      rw [hb] at h
      have hq := kqueuePollerSet_ok ((Poller.watches_kqueue hb).mp hold) h
      have hqb : q.backend = .kqueue := by rw [hq]; exact hb
      refine ⟨hqb, ?_, ?_⟩
      · rw [Poller.watches_kqueue hqb, hq]
        exact Function.update_self ..
      · intro g events hg hw
        rw [Poller.watches_kqueue hqb, hq]
        exact (Function.update_of_ne hg _ _).trans ((Poller.watches_kqueue hb).mp hw)

/-- **A failed attempt to add one direction** leaves what the kernel watches. -/
theorem croutinePollerSet_failed {direction : Filter}
    (hnew : new = old.union (IoEvents.none.put direction true))
    (h : croutinePollerSet o p fd old new = (q, false)) :
    q.backend = p.backend ∧ ∀ g events, p.Watches g events → q.Watches g events := by
  unfold croutinePollerSet at h
  cases hb : p.backend with
  | epoll =>
      rw [hb] at h
      obtain ⟨hbackend, _, _, hsame⟩ := (pollerSetLocked_cases h).interest
      have hqb : q.backend = .epoll := hbackend.trans hb
      refine ⟨hqb, ?_⟩
      intro g events hw
      rw [Poller.watches_epoll hqb, hsame rfl]
      exact (Poller.watches_epoll hb).mp hw
  | kqueue =>
      rw [hb] at h
      rw [kqueuePollerSet_failed hnew h]
      exact ⟨hb, fun _ _ hw => hw⟩

/-- On epoll `croutine_poller_set` is `poller_set_locked`. -/
theorem croutinePollerSet_epoll {o : PollerOracle} {p q : Poller} {fd : Int}
    {old new : IoEvents} {ok : Bool} (hb : p.backend = .epoll)
    (h : croutinePollerSet o p fd old new = (q, ok)) : EpollSet p fd old new q ok := by
  unfold croutinePollerSet at h
  rw [hb] at h
  exact pollerSetLocked_cases h

/-! ## The length of a batch -/

/-- A merge adds one event at most. -/
theorem mergeReadyEvent_length_le (out : List PollEvent) (fd : Int) (ready : IoEvents) :
    (mergeReadyEvent out fd ready).length ≤ out.length + 1 := by
  induction out with
  | nil => exact Nat.le_refl _
  | cons e rest ih =>
      unfold mergeReadyEvent
      split
      · exact Nat.le_succ _
      · exact Nat.succ_le_succ ih

/-- `croutine_poller_wait` reports at most as many events as the kernel did. -/
theorem pollerTranslate_length_le (p : Poller) :
    ∀ (raw : List RawEvent) (out : List PollEvent),
      (pollerTranslate p out raw).length ≤ out.length + raw.length := by
  intro raw
  induction raw with
  | nil =>
      intro out
      exact Nat.le_refl _
  | cons x rest ih =>
      intro out
      have hgrow : ∀ out' : List PollEvent, out'.length ≤ out.length + 1 →
          (pollerTranslate p out' rest).length ≤ out.length + (x :: rest).length := by
        intro out' hle
        have := ih out'
        rw [List.length_cons]
        omega
      unfold pollerTranslate
      split
      · exact hgrow out (Nat.le_succ _)
      · cases x with
        | epoll token mask period =>
            refine hgrow _ ?_
            rw [List.length_append]
            cases epollTranslate p token mask period <;> simp
        | kevent ident filter eof error => exact hgrow _ (mergeReadyEvent_length_le _ _ _)

/-! ## A batch of epoll events -/

def RawEvent.isKevent : RawEvent → Bool
  | .kevent _ _ _ _ => true
  | .epoll _ _ _ => false

/-- What the filter makes of an epoll event. -/
def RawEvent.pass (p : Poller) (x : RawEvent) : Option PollEvent :=
  match x with
  | .epoll token mask period =>
    if token = wakeToken then none else epollTranslate p token mask period
  | .kevent _ _ _ _ => none

/-- Epoll events are filtered one by one, in order. -/
theorem pollerTranslate_epoll (p : Poller) :
    ∀ (raw : List RawEvent) (out : List PollEvent), (∀ x ∈ raw, x.isKevent = false) →
      pollerTranslate p out raw = out ++ raw.filterMap (RawEvent.pass p) := by
  intro raw
  induction raw with
  | nil =>
      intro out _
      simp [pollerTranslate]
  | cons x rest ih =>
      intro out hall
      have hrest : ∀ y ∈ rest, y.isKevent = false := fun y hy => hall y (List.mem_cons_of_mem _ hy)
      cases x with
      | kevent ident filter eof error =>
          exact absurd (hall _ List.mem_cons_self) (by simp [RawEvent.isKevent])
      | epoll token mask period =>
          rw [pollerTranslate, List.filterMap_cons, RawEvent.pass]
          by_cases hwake : token = wakeToken
          · rw [if_pos (by simp [Poller.isWake, hwake]), if_pos hwake, ih out hrest]
          · rw [if_neg (by simp [Poller.isWake, hwake]), if_neg hwake]
            rw [ih _ hrest]
            cases epollTranslate p token mask period <;> simp

/-- The descriptor of a translated event is the one in its token. -/
theorem epollTranslate_fd {p : Poller} {token : Nat} {mask : EpollMask} {period : Nat}
    {e : PollEvent} (h : epollTranslate p token mask period = some e) : e.fd = tokenFd token := by
  unfold epollTranslate at h
  dsimp only at h
  split at h
  · exact absurd h (by simp)
  · split at h
    · exact absurd h (by simp)
    · rw [← Option.some.inj h]

end Croutine
