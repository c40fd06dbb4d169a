import Croutine.PollerSpec

/-!
# Registration periods

On epoll every registration carries a token made of the descriptor and a 32-bit
generation, and the generation changes when the descriptor is added and when it is
deleted.  `Registered` ties tokens and generations to the number of changes so far,
which does not wrap, and registration periods to the number of changes at which they
began.  An event whose generation matches comes from the current period, unless `2 ^ 32`
changes lie between its report and the check.
-/

namespace Croutine

/-- The fd table and the registrations of an epoll poller are consistent. -/
structure Registered (p : Poller) : Prop where
  backend : p.backend = .epoll
  entry : ∀ fd r, p.interest fd = some r → fd < 2 ^ 31 ∧ p.inTable fd = true ∧
    (r.period ≤ p.periods ∧ p.began r.period = p.bumps fd.toNat) ∧
    r.token = fdToken (p.fdGenerations fd.toNat) fd
  generation : ∀ n, n < p.fdTableCapacity → p.fdGenerations n = p.bumps n % 2 ^ 32
  untouched : ∀ n, p.fdTableCapacity ≤ n → p.bumps n = 0

/-- A descriptor is in the table if its number is below the capacity. -/
theorem Poller.inTable_iff {p : Poller} {fd : Int} :
    p.inTable fd = true ↔ 0 ≤ fd ∧ fd.toNat < p.fdTableCapacity := by
  simp [Poller.inTable]

namespace Registered

variable {p q : Poller} {fd : Int}

/-- Growing the table keeps it consistent. -/
theorem grown (h : Registered p) (hg : p.Grown fd q) : Registered q := by
  have hf := hg.fields
  have hinterest : q.interest = p.interest := by rw [hf]
  have hbumps : q.bumps = p.bumps := by rw [hf]
  refine ⟨?_, ?_, ?_, ?_⟩
  · rw [hf]; exact h.backend
  · intro g r hr
    rw [hinterest] at hr
    obtain ⟨hlt, hin, hperiod, htoken⟩ := h.entry g r hr
    obtain ⟨hpos, hcap⟩ := Poller.inTable_iff.mp hin
    refine ⟨hlt, Poller.inTable_iff.mpr ⟨hpos, Nat.lt_of_lt_of_le hcap hg.larger⟩, ?_, ?_⟩
    · rw [hf]; exact hperiod
    · rw [(hg.kept _ hcap).1]; exact htoken
  · intro n hn
    rw [hbumps]
    by_cases hcap : n < p.fdTableCapacity
    · rw [(hg.kept n hcap).1]
      exact h.generation n hcap
    · have hle : p.fdTableCapacity ≤ n := by omega
      rw [h.untouched n hle]
      exact (hg.fresh n hle hn).1
  · intro n hn
    rw [hbumps]
    exact h.untouched n (Nat.le_trans hg.larger hn)

/-- The generation of a descriptor without a registration changes. -/
theorem bump (h : Registered p) (hin : p.inTable fd = true) (hfree : p.interest fd = none) :
    Registered (p.bump fd) := by
  obtain ⟨hpos, hcap⟩ := Poller.inTable_iff.mp hin
  refine ⟨h.backend, ?_, ?_, ?_⟩
  · intro g r hr
    obtain ⟨hlt, hing, hperiod, htoken⟩ := h.entry g r hr
    have hne : g.toNat ≠ fd.toNat := by
      intro heq
      have hgfd : g = fd := by
        have := (Poller.inTable_iff.mp hing).1
        omega
      have hr' : p.interest fd = some r := hgfd ▸ hr
      rw [hfree] at hr'
      simp at hr'
    refine ⟨hlt, hing, ?_, ?_⟩
    · show _ ∧ _ = Function.update p.bumps fd.toNat _ g.toNat
      rw [Function.update_of_ne hne]; exact hperiod
    · show r.token = fdToken (Function.update p.fdGenerations fd.toNat _ g.toNat) g
      rw [Function.update_of_ne hne]; exact htoken
  · intro n hn
    show Function.update p.fdGenerations fd.toNat _ n = Function.update p.bumps fd.toNat _ n % _
    by_cases hnfd : n = fd.toNat
    · subst hnfd
      rw [Function.update_self, Function.update_self, h.generation _ hcap]
      omega
    · rw [Function.update_of_ne hnfd, Function.update_of_ne hnfd]
      exact h.generation n hn
  · intro n hn
    have hnfd : n ≠ fd.toNat := by
      intro heq
      have : p.fdTableCapacity ≤ n := hn
      omega
    show Function.update p.bumps fd.toNat _ n = 0
    rw [Function.update_of_ne hnfd]
    exact h.untouched n hn

/-- Dropping a registration keeps the table consistent. -/
theorem setInterest_none (h : Registered p) : Registered (p.setInterest fd none) := by
  refine ⟨h.backend, ?_, h.generation, h.untouched⟩
  intro g r hr
  by_cases hg : g = fd
  · subst hg
    simp [Poller.setInterest] at hr
  · exact h.entry g r (by simpa [Poller.setInterest, hg] using hr)

/-- A registration with the current generation keeps the table consistent. -/
theorem setInterest_some (h : Registered p) (hlt : fd < 2 ^ 31) (hin : p.inTable fd = true)
    {r : Registration} (hperiod : r.period ≤ p.periods ∧ p.began r.period = p.bumps fd.toNat)
    (htoken : r.token = fdToken (p.fdGenerations fd.toNat) fd) :
    Registered (p.setInterest fd (some r)) := by
  refine ⟨h.backend, ?_, h.generation, h.untouched⟩
  intro g x hx
  by_cases hg : g = fd
  · subst hg
    have hxr : r = x := by simpa [Poller.setInterest] using hx
    subst hxr
    exact ⟨hlt, hin, hperiod, htoken⟩
  · exact h.entry g x (by simpa [Poller.setInterest, hg] using hx)

/-- A new period begins at the number of changes so far. -/
theorem register {mask : EpollMask} (h : Registered p) (hlt : fd < 2 ^ 31)
    (hin : p.inTable fd = true) :
    Registered (p.register fd mask (fdToken (p.fdGenerations fd.toNat) fd)) := by
  refine ⟨h.backend, ?_, h.generation, h.untouched⟩
  intro g x hx
  by_cases hg : g = fd
  · subst hg
    simp only [Poller.register, Poller.setInterest, Function.update_self,
      Option.some.injEq] at hx
    subst hx
    exact ⟨hlt, hin, ⟨Nat.le_refl _, Function.update_self ..⟩, rfl⟩
  · obtain ⟨hlt', hin', ⟨hle, hbegan⟩, htoken⟩ :=
      h.entry g x (by simpa [Poller.register, Poller.setInterest, hg] using hx)
    refine ⟨hlt', hin', ⟨Nat.le_succ_of_le hle, ?_⟩, htoken⟩
    exact (Function.update_of_ne (Nat.ne_of_lt (Nat.lt_succ_of_le hle)) _ _).trans hbegan

/-- Flags do not matter. -/
theorem setRegistered (h : Registered p) (b : Bool) : Registered (p.setRegistered fd b) :=
  ⟨h.backend, h.entry, h.generation, h.untouched⟩

/-- Every outcome of `poller_set_locked` keeps the table consistent. -/
theorem epollSet {old new : IoEvents} {ok : Bool} (h : Registered p) (hlt : fd < 2 ^ 31)
    (hset : EpollSet p fd old new q ok) (hfree : old = .none → p.interest fd = none) :
    Registered q := by
  cases hset with
  | same heq => exact h
  | unchanged => exact h
  | deleted hnone =>
      split
      · next hin =>
        refine (h.setInterest_none.setRegistered false).bump hin ?_
        simp [Poller.setInterest, Poller.setRegistered]
      · exact h.setInterest_none
  | @added hold hnew q1 hgrown hfree' =>
      have hq1 := h.grown hgrown
      have hnone : q1.interest fd = none := by rw [hgrown.fields]; exact hfree'
      have hq2 := hq1.bump hgrown.room hnone
      exact (hq2.register hlt hgrown.room).setRegistered true
  | @addFailed hold q1 hgrown =>
      have hnone : q1.interest fd = none := by rw [hgrown.fields]; exact hfree hold
      exact (h.grown hgrown).bump hgrown.room hnone
  | @modified hold hnew r hreg =>
      obtain ⟨_, hin, hperiod, _⟩ := h.entry fd r hreg
      exact h.setInterest_some hlt hin hperiod rfl

end Registered

/-! ## What a change does to the periods -/

variable {p q : Poller} {fd : Int} {old new : IoEvents} {ok : Bool}

/-- Changes of generation are only ever counted up. -/
theorem EpollSet.bumps_le (h : EpollSet p fd old new q ok) (n : Nat) :
    p.bumps n ≤ q.bumps n := by
  have hbump : ∀ x : Poller, x.bumps n ≤ (x.bump fd).bumps n := by
    intro x
    show x.bumps n ≤ Function.update x.bumps fd.toNat _ n
    by_cases hn : n = fd.toNat
    · subst hn
      rw [Function.update_self]
      omega
    · exact Nat.le_of_eq (Function.update_of_ne hn _ _).symm
  cases h with
  | same heq => exact Nat.le_refl _
  | unchanged => exact Nat.le_refl _
  | deleted hnone =>
      split
      · exact hbump ((p.setInterest fd none).setRegistered fd false)
      · exact Nat.le_refl _
  | @added hold hnew q1 hgrown hfree =>
      have hq1 : q1.bumps = p.bumps := by rw [hgrown.fields]
      rw [← hq1]
      exact hbump q1
  | @addFailed hold q1 hgrown =>
      have hq1 : q1.bumps = p.bumps := by rw [hgrown.fields]
      rw [← hq1]
      exact hbump q1
  | modified hold hnew hreg => exact Nat.le_refl _

/-- A registration found after a change was there before with its period, unless the
change added it, and then it has changed the generation. -/
theorem EpollSet.period (h : EpollSet p fd old new q ok) {g : Int} {r : Registration}
    (hr : q.interest g = some r) :
    (g = fd ∧ old = .none ∧ p.interest fd = none ∧ p.bumps fd.toNat < q.bumps fd.toNat) ∨
      ∃ r', p.interest g = some r' ∧ r'.period = r.period := by
  obtain ⟨_, _, hothers, _⟩ := h.interest
  by_cases hg : g = fd
  · subst hg
    cases h with
    | same heq => exact .inr ⟨r, hr, rfl⟩
    | unchanged => exact .inr ⟨r, hr, rfl⟩
    | deleted hnone =>
        split at hr <;> simp [Poller.setInterest, Poller.setRegistered, Poller.bump] at hr
    | @added hold hnew q1 hgrown hfree =>
        refine .inl ⟨rfl, hold, hfree, ?_⟩
        have hq1 : q1.bumps = p.bumps := by rw [hgrown.fields]
        show p.bumps g.toNat < Function.update q1.bumps g.toNat _ g.toNat
        rw [Function.update_self, hq1]
        exact Nat.lt_succ_self _
    | @addFailed hold q1 hgrown =>
        refine .inr ⟨r, ?_, rfl⟩
        have hr' : q1.interest g = some r := hr
        rwa [hgrown.fields] at hr'
    | @modified hold hnew r' hreg =>
        refine .inr ⟨r', hreg, ?_⟩
        simp only [Poller.setInterest, Function.update_self, Option.some.injEq] at hr
        rw [← hr]
  · exact .inr ⟨r, by rw [← hothers g hg]; exact hr, rfl⟩

/-- Periods that have begun stay as they are. -/
theorem EpollSet.began (h : EpollSet p fd old new q ok) :
    p.periods ≤ q.periods ∧ ∀ n, n ≤ p.periods → q.began n = p.began n := by
  cases h with
  | same heq | unchanged | modified hold hnew hreg => exact ⟨Nat.le_refl _, fun _ _ => rfl⟩
  | deleted hnone => split <;> exact ⟨Nat.le_refl _, fun _ _ => rfl⟩
  | @added hold hnew q1 hgrown hfree =>
      have hperiods : q1.periods = p.periods := by rw [hgrown.fields]
      have hbegan : q1.began = p.began := by rw [hgrown.fields]
      refine ⟨?_, fun n hn => ?_⟩
      · show p.periods ≤ q1.periods + 1
        rw [hperiods]
        exact Nat.le_succ _
      · show Function.update q1.began (q1.periods + 1) _ n = p.began n
        rw [hperiods, hbegan]
        exact Function.update_of_ne (Nat.ne_of_lt (Nat.lt_succ_of_le hn)) _ _
  | @addFailed hold q1 hgrown =>
      refine ⟨Nat.le_of_eq ?_, fun n _ => ?_⟩
      · show p.periods = q1.periods
        rw [hgrown.fields]
      · show q1.began n = p.began n
        rw [hgrown.fields]

/-- The period has begun on the descriptor, and while the generation has not changed since,
no registration but its own is in force there. -/
structure Poller.Begun (p : Poller) (fd : Int) (period : Nat) : Prop where
  known : period ≤ p.periods
  past : p.began period ≤ p.bumps fd.toNat
  current : p.began period = p.bumps fd.toNat →
    ∀ r, p.interest fd = some r → r.period = period

/-- The period of the registration in force. -/
theorem Registered.begun (h : Registered p) {r : Registration} (hr : p.interest fd = some r) :
    p.Begun fd r.period := by
  obtain ⟨_, _, ⟨hle, hbegan⟩, _⟩ := h.entry fd r hr
  refine ⟨hle, Nat.le_of_eq hbegan, fun _ r' hr' => ?_⟩
  rw [hr] at hr'
  rw [Option.some.inj hr']

/-- No change of a registration lets another one pass for that of an earlier period. -/
theorem EpollSet.begun (h : EpollSet p fd old new q ok) {g : Int} {period : Nat}
    (hp : p.Begun g period) : q.Begun g period := by
  obtain ⟨hperiods, hbegan⟩ := h.began
  have hsame := hbegan period hp.known
  have hle := h.bumps_le g.toNat
  refine ⟨Nat.le_trans hp.known hperiods, ?_, fun heq r hr => ?_⟩
  · rw [hsame]
    exact Nat.le_trans hp.past hle
  · have hpast := hp.past
    rw [hsame] at heq
    rcases h.period hr with ⟨rfl, _, _, hlt⟩ | ⟨r', hr', hr''⟩
    · omega
    · rw [← hr'']
      exact hp.current (by omega) r' hr'

/-- What later changes keep: the periods that have begun, and that no other registration
passes for one of them. -/
structure Poller.Later (p q : Poller) : Prop where
  periods : p.periods ≤ q.periods
  began : ∀ n, n ≤ p.periods → q.began n = p.began n
  begun : ∀ g period, p.Begun g period → q.Begun g period

theorem Poller.Later.refl (p : Poller) : p.Later p :=
  ⟨Nat.le_refl _, fun _ _ => rfl, fun _ _ h => h⟩

theorem Poller.Later.trans {x : Poller} (h : p.Later q) (h' : q.Later x) : p.Later x :=
  ⟨Nat.le_trans h.periods h'.periods,
    fun n hn => (h'.began n (Nat.le_trans hn h.periods)).trans (h.began n hn),
    fun g period hp => h'.begun g period (h.begun g period hp)⟩

/-- Readiness changes no registration. -/
theorem Poller.Later.ready (p : Poller) (mask : Int → EpollMask) :
    p.Later { p with ready := mask } :=
  ⟨Nat.le_refl _, fun _ _ => rfl, fun _ _ h => ⟨h.known, h.past, h.current⟩⟩

/-- What `croutine_poller_set` does on epoll is such a change. -/
theorem EpollSet.later (h : EpollSet p fd old new q ok) : p.Later q :=
  ⟨h.began.1, h.began.2, fun _ _ => h.begun⟩

/-! ## Tokens -/

/-- A token gives its descriptor back. -/
theorem tokenFd_fdToken {g : Nat} (hpos : 0 ≤ fd) (hlt : fd < 2 ^ 31) :
    tokenFd (fdToken g fd) = fd := by
  have hnat : fd.toNat < 2 ^ 31 := by omega
  have hmod : fdToken g fd % 2 ^ 32 = fd.toNat := by
    unfold fdToken
    omega
  unfold tokenFd
  rw [hmod, Int.bmod_def]
  omega

/-- A token gives its generation back. -/
theorem fdToken_generation {g : Nat} (hg : g < 2 ^ 32) :
    fdToken g fd / 2 ^ 32 % 2 ^ 32 = g := by
  unfold fdToken
  omega

/-- A raw event names a registration period that has begun, and its token is the one that
the registration had then. -/
def RawEvent.Known (p : Poller) : RawEvent → Prop
  | .epoll token _ period => token = wakeToken ∨
    ∃ fd, 0 ≤ fd ∧ fd < 2 ^ 31 ∧ token = fdToken (p.began period % 2 ^ 32) fd ∧
      p.Begun fd period
  | .kevent _ _ _ _ => False

/-- An event that was known stays known. -/
theorem RawEvent.Known.later {raw : RawEvent} (h : raw.Known p) (hlater : p.Later q) :
    raw.Known q := by
  cases raw with
  | kevent ident filter eof error => exact h
  | epoll token mask period =>
      rcases h with hwake | ⟨g, hpos, hlt, htoken, hbegun⟩
      · exact .inl hwake
      · refine .inr ⟨g, hpos, hlt, ?_, hlater.begun g period hbegun⟩
        rw [hlater.began period hbegun.known]
        exact htoken

/-- The registration of the event's descriptor, if there is one, is of its period. -/
def PollEvent.Current (p : Poller) (e : PollEvent) : Prop :=
  ∀ r, p.interest e.fd = some r → r.period = e.period

/-- What the kernel reports of a consistent table is known. -/
theorem Registered.report {wakePending : Bool} {x : Reported} {raw : RawEvent}
    (h : Registered p) (hx : p.report wakePending x = some raw) : raw.Known p := by
  unfold Poller.report at hx
  cases x with
  | wake =>
      dsimp only at hx
      rw [h.backend] at hx
      split at hx
      · cases hx
        exact .inl rfl
      · exact absurd hx (by simp)
  | epoll fd mask =>
      dsimp only at hx
      rw [h.backend] at hx
      split at hx
      · next _ r _ hr =>
        split at hx
        · cases hx
          obtain ⟨hlt, hin, ⟨_, hbegan⟩, htoken⟩ := h.entry fd r hr
          obtain ⟨hpos, hcap⟩ := Poller.inTable_iff.mp hin
          refine .inr ⟨fd, hpos, hlt, ?_, h.begun hr⟩
          rw [htoken, h.generation _ hcap, hbegan]
        · exact absurd hx (by simp)
      · exact absurd hx (by simp)
  | kevent fd filter eof error =>
      dsimp only at hx
      rw [h.backend] at hx
      simp at hx

/-- **The generation check.**  An event that passes it is of the current period,
provided that fewer than `2 ^ 32` changes of generation lie behind it. -/
theorem Registered.translate {token : Nat} {mask : EpollMask} {period : Nat} {e : PollEvent}
    (h : Registered p) (hknown : (RawEvent.epoll token mask period).Known p)
    (hwake : token ≠ wakeToken)
    (hwrap : p.bumps (tokenFd token).toNat < p.began period + 2 ^ 32)
    (he : epollTranslate p token mask period = some e) :
    e.Current p := by
  rcases hknown with habs | ⟨fd, hpos, hlt, htoken, hbegun⟩
  · exact absurd habs hwake
  · have hfd : tokenFd token = fd := by rw [htoken]; exact tokenFd_fdToken hpos hlt
    have hgen : token / 2 ^ 32 % 2 ^ 32 = p.began period % 2 ^ 32 := by
      rw [htoken]
      exact fdToken_generation (Nat.mod_lt _ (by decide))
    unfold epollTranslate at he
    dsimp only at he
    rw [hfd, hgen] at he
    rw [hfd] at hwrap
    split at he
    · exact absurd he (by simp)
    · next hcheck =>
      simp only [Bool.or_eq_true, Bool.not_eq_true', decide_eq_true_eq, not_or,
        Bool.not_eq_false, not_not] at hcheck
      obtain ⟨⟨hin, _⟩, hmatch⟩ := hcheck
      obtain ⟨_, hcap⟩ := Poller.inTable_iff.mp hin
      split at he
      · exact absurd he (by simp)
      · cases he
        have hpast := hbegun.past
        rw [h.generation _ hcap] at hmatch
        exact hbegun.current (by omega)

/-- A known event is an epoll event. -/
theorem RawEvent.Known.not_kevent {x : RawEvent} (h : x.Known p) : x.isKevent = false := by
  cases x with
  | epoll token mask period => rfl
  | kevent ident filter eof error => exact absurd h id

/-- Every event that leaves the filter is the translation of a raw event that is not
the wake event. -/
theorem pollerTranslate_mem (raw : List RawEvent) (out : List PollEvent)
    (hknown : ∀ x ∈ raw, x.Known p) (e : PollEvent) (he : e ∈ pollerTranslate p out raw) :
    e ∈ out ∨ ∃ token mask period, RawEvent.epoll token mask period ∈ raw ∧
      token ≠ wakeToken ∧ epollTranslate p token mask period = some e := by
  rw [pollerTranslate_epoll p raw out fun x hx => (hknown x hx).not_kevent] at he
  rcases List.mem_append.mp he with he | he
  · exact .inl he
  · obtain ⟨x, hx, hpass⟩ := List.mem_filterMap.mp he
    cases x with
    | kevent ident filter eof error => exact absurd hpass (by simp [RawEvent.pass])
    | epoll token mask period =>
        rw [RawEvent.pass] at hpass
        split at hpass
        · exact absurd hpass (by simp)
        · next hwake => exact .inr ⟨token, mask, period, hx, hwake, hpass⟩

end Croutine
