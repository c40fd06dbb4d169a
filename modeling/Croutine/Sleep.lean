import Croutine.Lib.Count
import Croutine.Life

/-!
# Sleeping and waking workers

A worker sleeps in one of two places: on the condition variable, where a signal
reaches it, or inside the poller with an infinite timeout, where only the wake
descriptor does.

`Workers.Roles` says who holds the poller role and what `idle_workers` counts.
On top of it `SleepInv` states that a non-empty run queue has a worker that is not
asleep, and that after a request to stop no worker is, up to the poller wakes that
threads have promised and not yet made.
-/

namespace Croutine

namespace Pc

/-- Between setting and clearing `poller_waiter_active`. -/
def polls : Pc → Bool
  | .polling _ | .polled _ | .filtered _ | .pollError => true
  | _ => false

/-- Counted by `idle_workers`. -/
def idle : Pc → Bool
  | .condWait _ _ => true
  | _ => false

@[simp] theorem polls_signal (p : Pc) : p.signal.polls = p.polls := by
  cases p <;> rfl

@[simp] theorem idle_signal (p : Pc) : p.signal.idle = p.idle := by
  cases p <;> rfl

@[simp] theorem unsignalled_signal (p : Pc) : p.signal.unsignalled = false := by
  cases p <;> rfl

@[simp] theorem signal_eq_polling (p : Pc) (timeout : Timeout) :
    p.signal = .polling timeout ↔ p = .polling timeout := by
  cases p <;> simp [signal]

theorem idle_of_unsignalled {p : Pc} (h : p.unsignalled = true) : p.idle = true := by
  cases p with
  | condWait signalled checked => rfl
  | _ => exact absurd h (by simp [unsignalled])

end Pc

theorem Signals.polling {wk wk' : Workers} (h : Signals wk wk') {w : WorkerId}
    {timeout : Timeout} : wk'.pc w = .polling timeout ↔ wk.pc w = .polling timeout := by
  rcases h w with heq | heq <;> simp [heq]

namespace Workers

def idleCount (wk : Workers) : Nat :=
  (List.range wk.count).countP fun w => (wk.pc w).idle

/-- Who polls and who is counted as idle. -/
structure Roles (wk : Workers) : Prop where
  bounded : ∀ w, wk.pc w ≠ .notStarted → w < wk.count
  idle : wk.idleWorkers = wk.idleCount
  active : wk.pollerWaiterActive = true ↔ ∃ w, (wk.pc w).polls = true
  single : ∀ v w, (wk.pc v).polls = true → (wk.pc w).polls = true → v = w
  attended : ∀ w, (wk.pc w).unsignalled = true → wk.pollerWaiterActive = true

namespace Roles

variable {wk wk' : Workers}

theorem signals (h : Roles wk) (hsig : Signals wk wk') (hcount : wk'.count = wk.count)
    (hidle : wk'.idleWorkers = wk.idleWorkers)
    (hactive : wk'.pollerWaiterActive = wk.pollerWaiterActive) : Roles wk' := by
  have hpolls : ∀ w, (wk'.pc w).polls = (wk.pc w).polls := by
    intro w
    rcases hsig w with heq | heq <;> simp [heq]
  have hcond : ∀ w, (wk'.pc w).idle = (wk.pc w).idle := by
    intro w
    rcases hsig w with heq | heq <;> simp [heq]
  refine ⟨?_, ?_, ?_, ?_, ?_⟩
  · intro w hw
    rw [hcount]
    exact h.bounded w (hsig.notStarted hw)
  · rw [hidle, h.idle, idleCount, idleCount, hcount]
    simp only [hcond]
  · rw [hactive, h.active]
    simp only [hpolls]
  · intro v w hv hw
    rw [hpolls] at hv hw
    exact h.single v w hv hw
  · intro w hw
    rw [hactive]
    rcases hsig w with heq | heq
    · exact h.attended w (by rwa [heq] at hw)
    · rw [heq] at hw
      exact absurd hw (by simp)

/-- One worker moves, and the counters follow what its two points contribute. -/
theorem move (h : Roles wk) {w : WorkerId} {p : Pc} (hw : w < wk.count)
    (hpc : wk'.pc = Function.update wk.pc w p) (hcount : wk'.count = wk.count)
    (hidle : wk'.idleWorkers + (wk.pc w).idle.toNat = wk.idleWorkers + p.idle.toNat)
    (hactive : wk'.pollerWaiterActive = true ↔
      p.polls = true ∨ ∃ v ≠ w, (wk.pc v).polls = true)
    (hsingle : p.polls = true → ∀ v ≠ w, (wk.pc v).polls = false)
    (hattended : p.unsignalled = true ∨ (∃ v ≠ w, (wk.pc v).unsignalled = true) →
      wk'.pollerWaiterActive = true) : Roles wk' := by
  have hself : wk'.pc w = p := by rw [hpc, Function.update_self]
  have hother : ∀ v, v ≠ w → wk'.pc v = wk.pc v :=
    fun v hv => by rw [hpc, Function.update_of_ne hv]
  refine ⟨?_, ?_, ?_, ?_, ?_⟩
  · intro v hv
    rw [hcount]
    by_cases hvw : v = w
    · subst hvw; exact hw
    · exact h.bounded v (by rwa [hother v hvw] at hv)
  · have hmove : (wk.setPc w p).idleCount + (wk.pc w).idle.toNat =
        wk.idleCount + p.idle.toNat :=
      List.countP_range_update Pc.idle wk.pc w p hw
    have hnew : wk'.idleCount = (wk.setPc w p).idleCount := by
      rw [idleCount, idleCount, hcount, hpc]; rfl
    have hold := h.idle
    omega
  · rw [hactive]
    constructor
    · rintro (hp | ⟨v, hv, hp⟩)
      · exact ⟨w, by rwa [hself]⟩
      · exact ⟨v, by rwa [hother v hv]⟩
    · rintro ⟨v, hp⟩
      by_cases hvw : v = w
      · subst hvw; exact .inl (by rwa [hself] at hp)
      · exact .inr ⟨v, hvw, by rwa [hother v hvw] at hp⟩
  · -- two pollers would be the moving worker and another one
    intro u v hu hv
    by_cases huw : u = w <;> by_cases hvw : v = w
    · rw [huw, hvw]
    · subst huw
      rw [hself] at hu
      rw [hother v hvw, hsingle hu v hvw] at hv
      exact absurd hv (by simp)
    · subst hvw
      rw [hself] at hv
      rw [hother u huw, hsingle hv u huw] at hu
      exact absurd hu (by simp)
    · rw [hother u huw] at hu
      rw [hother v hvw] at hv
      exact h.single u v hu hv
  · intro v hv
    refine hattended ?_
    by_cases hvw : v = w
    · subst hvw; exact .inl (by rwa [hself] at hv)
    · exact .inr ⟨v, hvw, by rwa [hother v hvw] at hv⟩

/-- A worker moves between two points of the same role. -/
theorem setPc (h : Roles wk) {w : WorkerId} {p : Pc} (hw : w < wk.count)
    (hpolls : p.polls = (wk.pc w).polls) (hidle : p.idle = (wk.pc w).idle)
    (huns : p.unsignalled = false) : Roles (wk.setPc w p) := by
  refine h.move hw rfl rfl (by rw [hidle]; rfl) ?_ ?_ ?_
  · show wk.pollerWaiterActive = true ↔ _
    rw [h.active, hpolls]
    constructor
    · rintro ⟨v, hv⟩
      by_cases hvw : v = w
      · subst hvw; exact .inl hv
      · exact .inr ⟨v, hvw, hv⟩
    · rintro (hv | ⟨v, _, hv⟩)
      · exact ⟨w, hv⟩
      · exact ⟨v, hv⟩
  · intro hp v hv
    by_contra hne
    exact hv (h.single v w (by simpa using hne) (by rwa [hpolls] at hp))
  · rintro (hu | ⟨v, _, hu⟩)
    · rw [huns] at hu
      exact absurd hu (by simp)
    · exact h.attended v hu

/-- Nobody polls while the role is free. -/
theorem polls_eq_false (h : Roles wk) (hfree : wk.pollerWaiterActive = false) (v : WorkerId) :
    (wk.pc v).polls = false := by
  by_contra hne
  have := h.active.mpr ⟨v, by simpa using hne⟩
  rw [hfree] at this
  exact absurd this (by simp)

/-- A worker takes the free poller role. -/
theorem startPoll (h : Roles wk) {w : WorkerId} {p : Pc} (hw : w < wk.count)
    (hfree : wk.pollerWaiterActive = false) (hpolls : p.polls = true)
    (hidle : p.idle = (wk.pc w).idle) :
    Roles { wk.setPc w p with pollerWaiterActive := true } :=
  h.move hw rfl rfl (by rw [hidle]; rfl) ⟨fun _ => .inl hpolls, fun _ => rfl⟩
    (fun _ v _ => h.polls_eq_false hfree v) fun _ => rfl

/-- The poller gives up its role, and every waiter is signalled. -/
theorem stopPoll (h : Roles wk) {w : WorkerId} {p : Pc} (hw : (wk.pc w).polls = true)
    (hpolls : p.polls = false) (hidle : p.idle = false) :
    Roles { wk.condBroadcast.setPc w p with pollerWaiterActive := false } := by
  have hb : Roles wk.condBroadcast := h.signals (Signals.condBroadcast wk) rfl rfl rfl
  have hbpc : ∀ v, wk.condBroadcast.pc v = (wk.pc v).signal := fun _ => rfl
  have hother : ∀ v, v ≠ w → (wk.condBroadcast.pc v).polls = false := by
    intro v hv
    by_contra hne
    exact hv (hb.single v w (by simpa using hne) (by rw [hbpc, Pc.polls_signal]; exact hw))
  have hold : (wk.condBroadcast.pc w).idle = false := by
    rw [hbpc, Pc.idle_signal]
    cases hpc : wk.pc w with
    | condWait signalled checked => rw [hpc] at hw; exact absurd hw (by simp [Pc.polls])
    | _ => rfl
  refine hb.move (w := w) (p := p) ?_ rfl rfl (by rw [hold, hidle]; rfl) ?_ ?_ ?_
  · refine h.bounded w fun hns => ?_
    rw [hns] at hw
    exact absurd hw (by simp [Pc.polls])
  · refine ⟨fun hf => absurd hf (by simp), ?_⟩
    rintro (hp | ⟨v, hv, hp⟩)
    · rw [hpolls] at hp; exact absurd hp (by simp)
    · rw [hother v hv] at hp; exact absurd hp (by simp)
  · intro hp
    rw [hpolls] at hp
    exact absurd hp (by simp)
  · rintro (hu | ⟨v, _, hu⟩)
    · rw [Pc.idle_of_unsignalled hu] at hidle
      exact absurd hidle (by simp)
    · rw [hbpc, Pc.unsignalled_signal] at hu
      exact absurd hu (by simp)

/-- A move of a worker that does not poll, while the role stays as it is. -/
theorem moveIdle (h : Roles wk) {w : WorkerId} {p : Pc} (hw : w < wk.count)
    (hpolls : (wk.pc w).polls = false) (hpc : p.polls = false) {idle : Nat}
    (hidle : idle + (wk.pc w).idle.toNat = wk.idleWorkers + p.idle.toNat)
    (huns : p.unsignalled = true → wk.pollerWaiterActive = true) :
    Roles { wk.setPc w p with idleWorkers := idle } := by
  refine h.move hw rfl rfl hidle ?_ ?_ ?_
  · show wk.pollerWaiterActive = true ↔ _
    rw [h.active, hpc]
    constructor
    · rintro ⟨v, hv⟩
      refine .inr ⟨v, ?_, hv⟩
      rintro rfl
      rw [hpolls] at hv
      exact absurd hv (by simp)
    · rintro (hv | ⟨v, _, hv⟩)
      · exact absurd hv (by simp)
      · exact ⟨v, hv⟩
  · intro hp
    rw [hpc] at hp
    exact absurd hp (by simp)
  · rintro (hu | ⟨v, _, hu⟩)
    · exact huns hu
    · exact h.attended v hu

/-- A worker enters the condition variable. -/
theorem fallAsleep (h : Roles wk) {w : WorkerId} {checked : Bool}
    (hw : w < wk.count) (hpolls : (wk.pc w).polls = false)
    (hidle : (wk.pc w).idle = false) (hactive : wk.pollerWaiterActive = true) :
    Roles { wk.setPc w (.condWait false checked) with
      idleWorkers := wk.idleWorkers + 1 } :=
  h.moveIdle hw hpolls rfl (by rw [hidle]; rfl) fun _ => hactive

/-- A worker is back from the condition variable. -/
theorem leaveCond (h : Roles wk) {w : WorkerId} {signalled checked : Bool} {p : Pc}
    (hw : wk.pc w = .condWait signalled checked)
    (hpolls : p.polls = false) (hidle : p.idle = false) :
    Roles { wk.setPc w p with idleWorkers := wk.idleWorkers - 1 } := by
  have hlt : w < wk.count := h.bounded w (by rw [hw]; simp)
  have hpos : 0 < wk.idleWorkers := by
    rw [h.idle, idleCount, List.countP_pos_iff]
    exact ⟨w, List.mem_range.mpr hlt, by rw [hw]; rfl⟩
  refine h.moveIdle hlt (by rw [hw]; rfl) hpolls ?_ ?_
  · rw [hw, hidle]
    simp only [Pc.idle, Bool.toNat_true, Bool.toNat_false]
    omega
  · intro hu
    rw [Pc.idle_of_unsignalled hu] at hidle
    exact absurd hidle (by simp)

end Roles

end Workers

/-! ## Wakes that reach somebody -/

namespace Workers

/-- Asleep on the condition variable or in the poller, with no wakeup addressed to
it. -/
def Unaddressed (wk : Workers) (w : WorkerId) : Prop :=
  (wk.pc w).unsignalled = true ∨ (wk.pc w = .polling .infinite ∧ wk.wakePending = false)

/-- A started worker that has not exited and is not asleep. -/
def Awake (wk : Workers) (w : WorkerId) : Prop :=
  (wk.pc w).alive = true ∧ ¬wk.Unaddressed w

/-- If a worker is left at all, one is awake or a promised poller wake will reach
the one that polls. -/
def Responsive (wk : Workers) : Prop :=
  (∃ w, (wk.pc w).alive = true) →
    (∃ w, wk.Awake w) ∨ (wk.owes ≠ [] ∧ ∃ w, wk.pc w = .polling .infinite)

/-- Nobody is asleep, except a poller that a promised wake will reach. -/
def Alerted (wk : Workers) : Prop :=
  (∀ w, (wk.pc w).unsignalled = false) ∧
    ∀ w, wk.pc w = .polling .infinite → wk.wakePending = true ∨ wk.owes ≠ []

variable {wk wk' : Workers}

theorem Alerted.responsive (h : Alerted wk) : Responsive wk := by
  rintro ⟨w, hw⟩
  by_cases hawake : wk.Unaddressed w
  · rcases hawake with hu | ⟨hpoll, hpending⟩
    · rw [h.1 w] at hu
      exact absurd hu (by simp)
    · refine .inr ⟨(h.2 w hpoll).resolve_left ?_, w, hpoll⟩
      rw [hpending]
      simp
  · exact .inl ⟨w, hw, hawake⟩

/-- Signals and wakes only help. -/
theorem Awake.signals {w : WorkerId} (h : Awake wk w) (hsig : Signals wk wk')
    (hpending : wk.wakePending = true → wk'.wakePending = true) : Awake wk' w := by
  refine ⟨by rw [hsig.alive w]; exact h.1, ?_⟩
  rintro (hu | ⟨hpoll, hp⟩)
  · rcases hsig w with heq | heq
    · exact h.2 (.inl (by rwa [heq] at hu))
    · rw [heq] at hu
      exact absurd hu (by simp)
  · refine h.2 (.inr ⟨hsig.polling.mp hpoll, ?_⟩)
    by_contra hne
    rw [hpending (by simpa using hne)] at hp
    exact absurd hp (by simp)

theorem Alerted.signals (h : Alerted wk) (hsig : Signals wk wk')
    (hpending : wk.wakePending = true → wk'.wakePending = true)
    (howes : wk.owes ≠ [] → wk'.wakePending = true ∨ wk'.owes ≠ []) : Alerted wk' := by
  refine ⟨fun w => ?_, fun w hw => ?_⟩
  · rcases hsig w with heq | heq
    · rw [heq]; exact h.1 w
    · rw [heq]; simp
  · rcases h.2 w (hsig.polling.mp hw) with hp | ho
    · exact .inl (hpending hp)
    · exact howes ho

/-- A worker that moves to a point where it is not asleep alerts nobody less. -/
theorem Alerted.move (h : Alerted wk) {w : WorkerId} {p : Pc}
    (hpc : wk'.pc = Function.update wk.pc w p) (hpending : wk'.wakePending = wk.wakePending)
    (howes : wk'.owes = wk.owes) (huns : p.unsignalled = false)
    (hpoll : p ≠ .polling .infinite) : Alerted wk' := by
  refine ⟨fun v => ?_, fun v hv => ?_⟩
  · by_cases hvw : v = w
    · subst hvw; rw [hpc, Function.update_self]; exact huns
    · rw [hpc, Function.update_of_ne hvw]; exact h.1 v
  · by_cases hvw : v = w
    · subst hvw
      rw [hpc, Function.update_self] at hv
      exact absurd hv hpoll
    · rw [hpc, Function.update_of_ne hvw] at hv
      rw [hpending, howes]
      exact h.2 v hv

theorem mem_unsignalled {w : WorkerId} (h : Roles wk) :
    w ∈ wk.unsignalled ↔ (wk.pc w).unsignalled = true := by
  simp only [unsignalled, List.mem_filter, List.mem_range, and_iff_right_iff_imp]
  intro hw
  refine h.bounded w fun hns => ?_
  rw [hns] at hw
  exact absurd hw (by simp [Pc.unsignalled])

/-- A signal reaches a waiter if there is one. -/
theorem condSignal_reaches (h : Roles wk) (pick : List WorkerId → Nat)
    (hu : ∃ w, (wk.pc w).unsignalled = true) :
    ∃ w, (wk.pc w).unsignalled = true ∧
      (wk.condSignal pick).pc w = (wk.pc w).signal := by
  rcases wk.condSignal_cases pick with ⟨hnil, _⟩ | ⟨w, hw, heq⟩
  · obtain ⟨w, hw⟩ := hu
    have := (mem_unsignalled h).mpr hw
    rw [hnil] at this
    exact absurd this (by simp)
  · exact ⟨w, (mem_unsignalled h).mp hw, by rw [heq]; simp [setPc]⟩

theorem condSignal_eq (h : Roles wk) (pick : List WorkerId → Nat)
    (hu : ∀ w, (wk.pc w).unsignalled = false) : wk.condSignal pick = wk := by
  rcases wk.condSignal_cases pick with ⟨_, heq⟩ | ⟨w, hw, _⟩
  · exact heq
  · have := (mem_unsignalled h).mp hw
    rw [hu w] at this
    exact absurd this (by simp)

theorem awake_of_signalled {w : WorkerId} (hu : (wk.pc w).unsignalled = true)
    (heq : wk'.pc w = (wk.pc w).signal) : Awake wk' w := by
  have hidle := Pc.idle_of_unsignalled hu
  cases hpc : wk.pc w with
  | condWait signalled checked =>
      rw [hpc] at heq
      refine ⟨by rw [heq]; rfl, ?_⟩
      rintro (hu' | ⟨hp, _⟩)
      · rw [heq] at hu'; exact absurd hu' (by simp)
      · rw [heq] at hp; exact absurd hp (by simp [Pc.signal])
  | _ => rw [hpc] at hidle; exact absurd hidle (by simp [Pc.idle])

/-- Some worker is idle while the counter is positive. -/
theorem exists_idle (h : Roles wk) (hpos : wk.idleWorkers ≠ 0) :
    ∃ w, (wk.pc w).idle = true := by
  rw [h.idle, idleCount] at hpos
  obtain ⟨w, _, hw⟩ := List.countP_pos_iff.mp (Nat.pos_of_ne_zero hpos)
  exact ⟨w, hw⟩

/-- After the wakeups of `worker_wake_task_locked` some worker is awake, if one is
left. -/
theorem wakeForTask_responsive (h : Roles wk) (pick : List WorkerId → Nat) :
    Responsive (wk.wakeForTask pick) := by
  rintro ⟨w, halive⟩
  left
  have hpc := (wk.wakeForTask_fields pick).2.2.2.2.2
  by_cases hu : ∃ v, (wk.pc v).unsignalled = true
  · obtain ⟨v, hv, heq⟩ := condSignal_reaches h pick hu
    exact ⟨v, awake_of_signalled hv (by rw [hpc]; exact heq)⟩
  · have hu : ∀ v, (wk.pc v).unsignalled = false := by simpa using hu
    have hsame := condSignal_eq h pick hu
    rw [hpc, hsame] at halive
    by_cases hpoll : wk.pc w = .polling .infinite
    · have hactive : wk.pollerWaiterActive = true := h.active.mpr ⟨w, by rw [hpoll]; rfl⟩
      by_cases hidle : wk.idleWorkers = 0
      · -- nobody is idle, so the poller is woken
        refine ⟨w, by rw [hpc, hsame]; exact halive, ?_⟩
        rintro (hu' | ⟨_, hp⟩)
        · rw [hpc, hsame, hu w] at hu'; exact absurd hu' (by simp)
        · simp [wakeForTask, hsame, hidle, hactive, pollerWake] at hp
      · -- an idle worker was signalled before
        obtain ⟨v, hv⟩ := exists_idle h hidle
        refine ⟨v, ?_, ?_⟩
        · rw [hpc, hsame]
          cases hpcv : wk.pc v with
          | condWait signalled checked => rfl
          | _ => rw [hpcv] at hv; exact absurd hv (by simp [Pc.idle])
        · rintro (hu' | ⟨hp, _⟩)
          · rw [hpc, hsame, hu v] at hu'; exact absurd hu' (by simp)
          · rw [hpc, hsame] at hp
            rw [hp] at hv
            exact absurd hv (by simp [Pc.idle])
    · refine ⟨w, by rw [hpc, hsame]; exact halive, ?_⟩
      rintro (hu' | ⟨hp, _⟩)
      · rw [hpc, hsame, hu w] at hu'; exact absurd hu' (by simp)
      · rw [hpc, hsame] at hp; exact hpoll hp

end Workers

/-! ## The invariant -/

structure SleepInv (s : Sys) : Prop where
  roles : s.wk.Roles
  alerted : s.stopping = true → s.wk.Alerted
  responsive : s.runq.tasks ≠ [] → s.wk.Responsive

namespace SleepInv

variable {s s' : Sys} {w : WorkerId}

/-- Signals, wakes and promises of wakes keep the invariant when the run queue
gains nothing. -/
theorem signals (h : SleepInv s) (hsig : Signals s.wk s'.wk)
    (hcount : s'.wk.count = s.wk.count) (hidle : s'.wk.idleWorkers = s.wk.idleWorkers)
    (hactive : s'.wk.pollerWaiterActive = s.wk.pollerWaiterActive)
    (hpending : s.wk.wakePending = true → s'.wk.wakePending = true)
    (howes : s.wk.owes ≠ [] → s'.wk.wakePending = true ∨ s'.wk.owes ≠ [])
    (hstop : s'.stopping = true → s.stopping = true)
    (hqueue : s'.runq.tasks ≠ [] → s.runq.tasks ≠ []) : SleepInv s' := by
  refine ⟨h.roles.signals hsig hcount hidle hactive,
    fun hs => (h.alerted (hstop hs)).signals hsig hpending howes, ?_⟩
  rintro hq ⟨v, hv⟩
  rcases h.responsive (hqueue hq) ⟨v, by rw [← hsig.alive v]; exact hv⟩ with
    ⟨u, hu⟩ | ⟨ho, u, hu⟩
  · exact .inl ⟨u, hu.signals hsig hpending⟩
  · rcases howes ho with hp | ho'
    · refine .inl ⟨u, by rw [hsig.polling.mpr hu]; rfl, ?_⟩
      rintro (hx | ⟨_, hx⟩)
      · rw [hsig.polling.mpr hu] at hx; exact absurd hx (by simp [Pc.unsignalled])
      · rw [hp] at hx; exact absurd hx (by simp)
    · exact .inr ⟨ho', u, hsig.polling.mpr hu⟩

/-- The acting worker ends up awake, so only the roles and the stop flags matter. -/
theorem ofAwake (hroles : s'.wk.Roles) (halert : s'.stopping = true → s'.wk.Alerted)
    (hawake : s'.wk.Awake w) : SleepInv s' :=
  ⟨hroles, halert, fun _ _ => .inl ⟨w, hawake⟩⟩

/-- A wake, and with it every channel operation, keeps the invariant. -/
theorem wakes (hs : SleepInv s) (h : Wakes s s') : SleepInv s' := by
  refine Wakes.invariant (I := SleepInv) ?_ ?_ h hs
  · exact fun x κ hx => ⟨hx.roles, hx.alerted, hx.responsive⟩
  · intro o x t success x' hx hwake
    obtain ⟨_, cap, _, rfl⟩ := workerWakeTaskLocked_some hwake
    obtain ⟨hcount, _, howes, hidle, hactive, _⟩ := x.wk.wakeForTask_fields o.pick
    have hsig := Signals.wakeForTask o.pick x.wk
    have hpending : x.wk.wakePending = true → (x.wk.wakeForTask o.pick).wakePending = true := by
      intro hp
      have := (x.wk.condSignal_fields o.pick).2.2.2.2.2
      unfold Workers.wakeForTask
      dsimp only
      split
      · rfl
      · rw [this]; exact hp
    exact ⟨hx.roles.signals hsig hcount hidle hactive,
      fun hstop => (hx.alerted hstop).signals hsig hpending fun ho => .inr (by rwa [howes]),
      fun _ => Workers.wakeForTask_responsive hx.roles o.pick⟩

/-- A worker moves to another point of the same role that is not a sleeping one. -/
theorem move {p : Pc} (h : SleepInv s) (hw : w < s.wk.count)
    (hpc : s'.wk.pc = Function.update s.wk.pc w p) (hcount : s'.wk.count = s.wk.count)
    (hidleWorkers : s'.wk.idleWorkers = s.wk.idleWorkers)
    (hactive : s'.wk.pollerWaiterActive = s.wk.pollerWaiterActive)
    (hpending : s'.wk.wakePending = s.wk.wakePending) (howes : s'.wk.owes = s.wk.owes)
    (hpolls : p.polls = (s.wk.pc w).polls) (hidle : p.idle = (s.wk.pc w).idle)
    (halive : p.alive = true) (huns : p.unsignalled = false)
    (hpoll : p ≠ .polling .infinite) (hstop : s'.stopping = s.stopping) : SleepInv s' := by
  have hself : s'.wk.pc w = p := by rw [hpc, Function.update_self]
  refine ofAwake (w := w) ?_ ?_ ⟨by rw [hself]; exact halive, ?_⟩
  · refine (h.roles.setPc hw hpolls hidle huns).signals (fun v => .inl ?_) hcount hidleWorkers
      hactive
    rw [hpc]; rfl
  · rw [hstop]
    exact fun hs => (h.alerted hs).move hpc hpending howes huns hpoll
  · rintro (hu | ⟨hp, _⟩)
    · rw [hself, huns] at hu; exact absurd hu (by simp)
    · rw [hself] at hp; exact hpoll hp

/-- One iteration of the scheduling loop by a worker in no role. -/
theorem loopOutcome {checked : Bool} (h : SleepInv s) (hw : w < s.wk.count)
    (hpolls : (s.wk.pc w).polls = false) (hidle : (s.wk.pc w).idle = false)
    (hout : LoopOutcome w checked s s') : SleepInv s' := by
  have hgoing : ∀ {x : Sys}, s.stopping = false → x.stopping = s.stopping →
      x.stopping = true → x.wk.Alerted := by
    intro x hgo heq hx
    rw [heq, hgo] at hx
    exact absurd hx (by simp)
  cases hout with
  | exit hstop =>
      have halert : (s.wk.setPc w .exited).Alerted :=
        (h.alerted hstop).move rfl rfl rfl rfl (by simp)
      exact ⟨h.roles.setPc hw hpolls.symm hidle.symm rfl, fun _ => halert,
        fun _ => halert.responsive⟩
  | @poll hgo hfree timeout htimeout =>
      refine ⟨h.roles.startPoll hw hfree rfl hidle.symm, hgoing hgo rfl, fun hq _ => ?_⟩
      refine .inl ⟨w, by simp [Workers.setPc, Pc.alive], ?_⟩
      rintro (hu | ⟨hp, _⟩)
      · simp [Workers.setPc, Pc.unsignalled] at hu
      · refine hq (htimeout ?_)
        simpa [Workers.setPc] using hp
  | dispatch hgo hqueue =>
      exact h.move hw rfl rfl rfl rfl rfl rfl hpolls.symm hidle.symm rfl rfl (by simp) rfl
  | sleep hgo hactive hqueue =>
      exact ⟨h.roles.fallAsleep hw hpolls hidle hactive, hgoing hgo rfl,
        fun hq => absurd hqueue hq⟩

end SleepInv

/-- The loop body does not look at the program point it replaces. -/
theorem LoopOutcome.setPc {w : WorkerId} {checked : Bool} {s s' : Sys}
    (h : LoopOutcome w checked s s') (p : Pc) :
    LoopOutcome w checked (s.setPc w p) s' := by
  have hidem : ∀ pc', (s.setPc w p).wk.setPc w pc' = s.wk.setPc w pc' := by
    intro pc'
    simp [Sys.setPc, Workers.setPc]
  cases h with
  | exit hstop =>
      have := @LoopOutcome.exit w checked (s.setPc w p) hstop
      simpa [Sys.setPc] using this
  | poll hgo hfree htimeout =>
      have := @LoopOutcome.poll w checked (s.setPc w p) hgo hfree _ htimeout
      rw [hidem] at this
      exact this
  | dispatch hgo hqueue =>
      have := @LoopOutcome.dispatch w checked (s.setPc w p) hgo _ _ hqueue
      rw [hidem] at this
      exact this
  | sleep hgo hactive hqueue =>
      have := @LoopOutcome.sleep w checked (s.setPc w p) hgo hactive
        hqueue
      rw [hidem] at this
      exact this

/-! ## Preservation -/

theorem IoWoke.setPc {s s' : Sys} {n : Nat} (h : IoWoke s s' n) {w : WorkerId} {p : Pc}
    (hpc : p.signal = p) : IoWoke (s.setPc w p) (s'.setPc w p) n := by
  refine ⟨h.ch, h.ledger, h.freeLog, h.nextTask, h.spawns, h.shutdownRequested,
    h.schedulerMainFinished, h.mainSpawned, h.life, h.isMain, ?_, ?_⟩
  · intro hn
    obtain ⟨hrunq, hwk⟩ := h.none hn
    exact ⟨hrunq, by simp only [Sys.setPc, hwk]⟩
  · intro hn
    have hpcs : Function.update (fun v => (s.wk.pc v).signal) w p =
        fun v => (Function.update s.wk.pc w p v).signal := by
      funext v
      by_cases hv : v = w
      · subst hv; simp [hpc]
      · simp [hv]
    simp only [Sys.setPc, h.some hn, Workers.condBroadcast, hpcs]

namespace SleepInv

variable {s s' : Sys} {w : WorkerId}

/-- A broadcast leaves the poller as the only worker that may be asleep, and it is
promised a wake. -/
theorem broadcast (h : SleepInv s) (hpc : s'.wk.pc = s.wk.condBroadcast.pc)
    (hcount : s'.wk.count = s.wk.count) (hidle : s'.wk.idleWorkers = s.wk.idleWorkers)
    (hactive : s'.wk.pollerWaiterActive = s.wk.pollerWaiterActive)
    (hpending : s'.wk.wakePending = s.wk.wakePending)
    (howes : s.wk.owes ≠ [] → s'.wk.owes ≠ [])
    (hstop : s'.stopping = true → s.stopping = true ∨ s'.wk.owes ≠ [])
    (hpoll : (∃ v, (s.wk.pc v).polls = true) → s'.wk.owes ≠ []) : SleepInv s' := by
  have hsig : Signals s.wk s'.wk := fun v => .inr (by rw [hpc]; rfl)
  have hawake : ∀ v, (s'.wk.pc v).unsignalled = false := by
    intro v
    rw [hpc]
    exact Pc.unsignalled_signal _
  refine ⟨h.roles.signals hsig hcount hidle hactive, fun hs => ?_, ?_⟩
  · rcases hstop hs with hs | ho
    · exact (h.alerted hs).signals hsig (by rw [hpending]; exact id) fun ho => .inr (howes ho)
    · exact ⟨hawake, fun _ _ => .inr ho⟩
  · rintro _ ⟨v, hv⟩
    by_cases hun : s'.wk.Unaddressed v
    · rcases hun with hu | ⟨hp, _⟩
      · rw [hawake v] at hu
        exact absurd hu (by simp)
      · exact .inr ⟨hpoll ⟨v, by rw [hsig.polling.mp hp]; rfl⟩, v, hp⟩
    · exact .inl ⟨v, hv, hun⟩

/-- An I/O wake by a thread that is not the poller. -/
theorem forget {n : Nat} {θ : Thread} (hs : SleepInv s) (h : IoWoke s s' n) :
    SleepInv (if 0 < n ∧ s'.wk.pollerWaiterActive then s'.mapWk (·.owe θ) else s') := by
  have hstop : s'.stopping = s.stopping := by
    rw [Sys.stopping, Sys.stopping, h.shutdownRequested, h.schedulerMainFinished]
  rcases Nat.eq_zero_or_pos n with hn | hn
  · obtain ⟨hrunq, hwk⟩ := h.none hn
    rw [if_neg (by omega)]
    exact ⟨by rw [hwk]; exact hs.roles, by rw [hwk, hstop]; exact hs.alerted,
      by rw [hwk, hrunq]; exact hs.responsive⟩
  · have hwk := h.some hn
    split
    · refine hs.broadcast (by simp [Sys.mapWk, Workers.owe, hwk]) ?_ ?_ ?_ ?_ ?_ ?_ ?_
      all_goals simp only [Sys.mapWk, Workers.owe, hwk]
      · rfl
      · rfl
      · rfl
      · rfl
      · exact fun _ => by simp
      · exact fun hx => .inl (by rw [← hstop]; exact hx)
      · exact fun _ => by simp
    · next hnot =>
      have hfree : s.wk.pollerWaiterActive ≠ true := by
        intro ha
        exact hnot ⟨hn, by rw [hwk]; exact ha⟩
      refine hs.broadcast (by rw [hwk]) (by rw [hwk]; rfl) (by rw [hwk]; rfl) (by rw [hwk]; rfl)
        (by rw [hwk]; rfl) (by rw [hwk]; exact id) (fun hx => .inl (by rw [← hstop]; exact hx)) ?_
      exact fun hp => absurd (hs.roles.active.mpr hp) hfree

/-- The poller applies a batch after it gave up its role. -/
theorem pollBatch {o : Oracle} {events : List PollEvent} {p : Pc}
    (hfix : p.signal = p) (hs : SleepInv (s.setPc w p))
    (hfree : s.wk.pollerWaiterActive = false)
    (h : events.foldlM (applyPollEvent o) s = .ok s') :
    SleepInv (s'.setPc w p) ∧ s'.wk.count = s.wk.count := by
  refine (Res.foldlM_induct (I := fun x => (SleepInv (x.setPc w p) ∧
    x.wk.count = s.wk.count) ∧ x.wk.pollerWaiterActive = false) ?_ events ⟨⟨hs, rfl⟩, hfree⟩ h).1
  rintro x e x' ⟨⟨hx, hcount⟩, hxfree⟩ hstep
  obtain ⟨n, hwake⟩ := applyPollEvent_ok hstep
  have hwoke := wakeWaitingTasksLocked_woke hwake
  obtain ⟨hcount', _, hactive⟩ := hwoke.fields
  have hforget := hx.forget (θ := .runtime) (hwoke.setPc (w := w) hfix)
  rw [if_neg (by
    rintro ⟨_, ha⟩
    rw [show (x'.setPc w p).wk.pollerWaiterActive = x'.wk.pollerWaiterActive from rfl,
      hactive, hxfree] at ha
    exact absurd ha (by simp))] at hforget
  exact ⟨⟨hforget, hcount'.trans hcount⟩, hactive.trans hxfree⟩

/-- The poller leaves its role because the runtime stops. -/
theorem releaseExit (h : SleepInv s) (hpolls : (s.wk.pc w).polls = true) :
    SleepInv ((releasePoller s).setPc w .exited) := by
  have hroles := h.roles.stopPoll (w := w) (p := .exited) hpolls rfl rfl
  have halert : ((releasePoller s).setPc w .exited).wk.Alerted := by
    refine ⟨fun v => ?_, fun v hv => ?_⟩
    · by_cases hvw : v = w
      · subst hvw; simp [Sys.setPc, Pc.unsignalled]
      · simp [Sys.setPc, releasePoller, Sys.mapWk, Workers.condBroadcast, hvw]
    · exfalso
      by_cases hvw : v = w
      · subst hvw; simp [Sys.setPc] at hv
      · have hp : s.wk.pc v = .polling .infinite := by
          simpa [Sys.setPc, releasePoller, Sys.mapWk, Workers.condBroadcast, hvw] using hv
        exact hvw (h.roles.single v w (by rw [hp]; rfl) hpolls)
  exact ⟨hroles, fun _ => halert, fun _ => halert.responsive⟩

/-- Nothing that matters to sleeping workers changed. -/
theorem same (h : SleepInv s) (hwk : s'.wk = s.wk) (hrunq : s'.runq.tasks = s.runq.tasks)
    (hstop : s'.stopping = s.stopping) : SleepInv s' :=
  ⟨by rw [hwk]; exact h.roles, by rw [hwk, hstop]; exact h.alerted,
    by rw [hwk, hrunq]; exact h.responsive⟩

/-- No worker is left, so the run queue may hold anything. -/
theorem quiet (h : SleepInv s) (hwk : s'.wk = s.wk)
    (hquiet : ∀ v, (s.wk.pc v).alive = false) (hstop : s'.stopping = s.stopping) :
    SleepInv s' := by
  refine ⟨by rw [hwk]; exact h.roles, by rw [hwk, hstop]; exact h.alerted, ?_⟩
  rintro _ ⟨v, hv⟩
  rw [hwk, hquiet v] at hv
  exact absurd hv (by simp)

theorem chanView (hs : SleepInv s) (h : ChanView s s') : SleepInv s' := by
  cases h with
  | memory κ => exact hs.same rfl rfl rfl
  | wakes hlock h => exact hs.wakes h
  | @park hlock s1 h w t hpc hframe frame =>
      have h1 := hs.wakes h
      have hpc1 : s1.wk.pc w = .running t := by
        rw [h.signals.fixed (by rw [hpc]; rfl), hpc]
      unfold workerParkCurrentOnChannelLocked
      split
      · exact h1.same rfl rfl rfl
      · exact h1.move (h1.roles.bounded w (by rw [hpc1]; simp)) rfl rfl rfl rfl rfl rfl
          (by rw [hpc1]; rfl) (by rw [hpc1]; rfl) rfl rfl (by simp) rfl
  | @shutdown hlock o θ s1 life hlife h =>
      have hwakes := croutineChannelShutdownAllLocked_wakes h
      have h1 : s1.wk.Roles := by
        have hsig := hwakes.signals
        have hcore := hwakes.sameCore
        exact hs.roles.signals hsig hcore.count hcore.idleWorkers
          hcore.pollerWaiterActive
      have halert : (s1.wk.condBroadcast.owe θ).Alerted :=
        ⟨fun v => Pc.unsignalled_signal _, fun _ _ => .inr (by simp [Workers.owe])⟩
      refine ⟨?_, fun _ => halert, fun _ => halert.responsive⟩
      exact h1.signals (Signals.condBroadcast s1.wk) rfl rfl rfl
  | returned hpc κ => exact hs.same rfl rfl rfl

/-- The critical section of `worker_spawn`. -/
theorem spawnPublish {o : Oracle} {θ : Thread} {t : TaskId} (h : SleepInv s) :
    SleepInv (workerSpawnPublish o s θ t) := by
  have hfail : SleepInv (spawnFailed
      (cleanupTask { s with spawns := s.spawns.erase (θ, t) } t) (s.tasks t).isMain) := by
    rw [spawnFailed_eq]
    exact h.same rfl rfl rfl
  rcases workerSpawnPublish_cases o s θ t with heq | ⟨_, s1, hpush, heq⟩ <;> rw [heq]
  · exact hfail
  · have hs1 : s1.wk = s.wk ∧ s1.stopping = s.stopping := by
      rcases taskQueuePush_some hpush with ⟨_, rfl⟩ | ⟨_, cap, _, rfl⟩ <;> exact ⟨rfl, rfl⟩
    obtain ⟨hwk, hstop⟩ := hs1
    have hr1 : s1.wk.Roles := by rw [hwk]; exact h.roles
    have howes := (s1.wk.condSignal_fields o.pick).2.2.1
    obtain ⟨hpc, hcount, _, hidle, hactive, hpend⟩ :=
      published_fields s1 o θ t (s.tasks t).isMain
    have hsig := published_signals s1 o θ t (s.tasks t).isMain
    -- the poller is promised a wake exactly when there is one
    have hcases : (published s1 o θ t (s.tasks t).isMain).wk =
        if s1.wk.pollerWaiterActive then (s1.wk.condSignal o.pick).owe θ
        else s1.wk.condSignal o.pick := rfl
    refine ⟨hr1.signals hsig hcount hidle hactive, ?_, ?_⟩
    · intro hs
      have hs : s.stopping = true := by rw [← hstop]; exact hs
      have halert := h.alerted hs
      rw [← hwk] at halert
      refine halert.signals hsig (by rw [hpend]; exact id) fun ho => .inr ?_
      rw [hcases]
      split
      · simp [Workers.owe]
      · rwa [howes]
    · rintro _ ⟨v, hv⟩
      by_cases hu : ∃ u, (s1.wk.pc u).unsignalled = true
      · obtain ⟨u, hun, heq⟩ := Workers.condSignal_reaches hr1 o.pick hu
        exact .inl ⟨u, Workers.awake_of_signalled hun (by rw [hpc]; exact heq)⟩
      · by_cases hun : (published s1 o θ t (s.tasks t).isMain).wk.Unaddressed v
        · rcases hun with hun | ⟨hp, _⟩
          · rcases hsig v with heq | heq
            · exact absurd ⟨v, by rw [← heq]; exact hun⟩ hu
            · rw [heq] at hun; exact absurd hun (by simp)
          · have hact : s1.wk.pollerWaiterActive = true :=
              hr1.active.mpr ⟨v, by rw [hsig.polling.mp hp]; rfl⟩
            refine .inr ⟨?_, v, hp⟩
            rw [hcases, if_pos hact]
            simp [Workers.owe]
        · exact .inl ⟨v, hv, hun⟩

/-- A worker outside both sleeping places goes on to another such point. -/
theorem goesOn {v : WorkerId} {old new : Pc} (h : SleepInv s) (hold : s.wk.pc v = old)
    (hpc : s'.wk.pc = Function.update s.wk.pc v new) (hcount : s'.wk.count = s.wk.count)
    (hidle : s'.wk.idleWorkers = s.wk.idleWorkers)
    (hactive : s'.wk.pollerWaiterActive = s.wk.pollerWaiterActive)
    (hpend : s'.wk.wakePending = s.wk.wakePending) (howes : s'.wk.owes = s.wk.owes)
    (hne : old ≠ .notStarted) (hpolls : new.polls = old.polls) (hid : new.idle = old.idle)
    (halive : new.alive = true) (huns : new.unsignalled = false)
    (hpoll : new ≠ .polling .infinite) (hstop : s'.stopping = s.stopping) : SleepInv s' := by
  subst hold
  exact h.move (h.roles.bounded v hne) hpc hcount hidle hactive hpend howes hpolls hid halive
    huns hpoll hstop

/-- The allocations of a spawn concern no worker. -/
theorem spawnAlloc {θ : Thread} {r : SpawnRequest} (h : SleepInv s) :
    SleepInv (workerSpawnAlloc s θ r) := by
  have hfail : ∀ x : Sys, x.wk = s.wk → x.runq.tasks = s.runq.tasks → x.stopping = s.stopping →
      SleepInv (spawnFailed x r.isMain) := by
    intro x hwk htasks hstop
    rw [spawnFailed_eq]
    exact h.same hwk htasks hstop
  rcases workerSpawnAlloc_cases s θ r with heq | ⟨l, _, heq⟩ | heq <;> rw [heq]
  · exact hfail s rfl rfl rfl
  · exact hfail _ rfl rfl rfl
  · exact h.same rfl rfl rfl

/-- A task that waits for a descriptor leaves its worker awake. -/
theorem waitIo {o : Oracle} {t : TaskId} {fd : Int} {events : IoEvents} (h : SleepInv s)
    (hpc : s.wk.pc w = .running t) : SleepInv (workerParkCurrentOnIo o s w t fd events) := by
  rcases workerParkCurrentOnIo_form o s w t fd events with
    ⟨_, _, heq⟩ | ⟨_, _, _, _, heq⟩ <;> rw [heq]
  · exact h.same rfl rfl rfl
  · exact h.goesOn hpc rfl rfl rfl rfl rfl rfl (by simp) rfl rfl rfl rfl (by simp) rfl

/-- The main task wakes everybody when it ends. -/
theorem finishSched {t : TaskId} (h : SleepInv s) (hpc : s.wk.pc w = .finishSched t) :
    SleepInv ({ s with schedulerMainFinished := true }.mapWk fun wk =>
      (wk.condBroadcast.setPc w (.switching t .finished)).owe (.worker w)) := by
  have hb : s.wk.condBroadcast.Roles :=
    h.roles.signals (Signals.condBroadcast s.wk) rfl rfl rfl
  have hpcb : s.wk.condBroadcast.pc w = .finishSched t := by
    show (s.wk.pc w).signal = _
    rw [hpc]; rfl
  have halert : ((s.wk.condBroadcast.setPc w (.switching t .finished)).owe
      (.worker w)).Alerted := by
    refine ⟨fun v => ?_, fun _ _ => .inr (by simp [Workers.owe])⟩
    by_cases hv : v = w
    · subst hv; simp [Workers.owe, Workers.setPc, Pc.unsignalled]
    · simp [Workers.owe, Workers.setPc, Workers.condBroadcast, hv]
  refine ⟨?_, fun _ => halert, fun _ => halert.responsive⟩
  refine (hb.setPc (w := w) (p := .switching t .finished)
    (h.roles.bounded w (by rw [hpc]; simp)) ?_ ?_ rfl).signals (fun _ => .inl rfl) rfl rfl rfl
  · rw [hpcb]; rfl
  · rw [hpcb]; rfl

/-- The worker that requeues a task is awake itself. -/
theorem requeue {o : Oracle} {t : TaskId} (h : SleepInv s) (hpc : s.wk.pc w = .requeue t)
    (hrequeue : requeueTask o w t s = .ok s') : SleepInv s' := by
  obtain ⟨s2, hpush, rfl⟩ := requeueTask_ok hrequeue
  have hs2 : s2.wk = s.wk ∧ s2.stopping = s.stopping := by
    rcases taskQueuePush_some hpush with ⟨_, rfl⟩ | ⟨_, cap, _, rfl⟩ <;> exact ⟨rfl, rfl⟩
  obtain ⟨hwk, hstop⟩ := hs2
  have hsig := Signals.condSignal o.pick s.wk
  obtain ⟨hcount, _, howes, hidle, hactive, hpending⟩ := s.wk.condSignal_fields o.pick
  have hroles := h.roles.signals hsig hcount hidle hactive
  have hpc' : (s.wk.condSignal o.pick).pc w = .requeue t := by
    rw [hsig.fixed (by rw [hpc]; rfl), hpc]
  refine ofAwake (w := w) ?_ ?_ ⟨by simp [Sys.mapWk, Workers.setPc, Pc.alive], ?_⟩
  · show ((s2.wk.condSignal o.pick).setPc w (.top false)).Roles
    rw [hwk]
    refine hroles.setPc (by rw [hcount]; exact h.roles.bounded w (by rw [hpc]; simp)) ?_ ?_ rfl
    · rw [hpc']; rfl
    · rw [hpc']; rfl
  · intro hs
    have halert := h.alerted (by rw [← hstop]; exact hs)
    have hsignalled := halert.signals hsig (by rw [hpending]; exact id)
      fun ho => .inr (by rwa [howes])
    refine hsignalled.move (w := w) (p := .top false) ?_ ?_ ?_ rfl (by simp)
    · show ((s2.wk.condSignal o.pick).setPc w (.top false)).pc = _
      rw [hwk]; rfl
    · show (s2.wk.condSignal o.pick).wakePending = _
      rw [hwk]
    · show (s2.wk.condSignal o.pick).owes = _
      rw [hwk]
  · rintro (hu | ⟨hp, _⟩)
    · simp [Sys.mapWk, Workers.setPc, Pc.unsignalled] at hu
    · simp [Sys.mapWk, Workers.setPc] at hp

/-- The loop body overwrites the program point, so the worker may be moved out of
`pthread_cond_wait` first. -/
theorem condReturn {signalled checked : Bool} (h : SleepInv s)
    (hpc : s.wk.pc w = .condWait signalled checked) : SleepInv (leaveCondWait w checked s) := by
  have hout := (loopBody_outcome w checked
    (s.mapWk fun wk => { wk with idleWorkers := wk.idleWorkers - 1 })).setPc (.top checked)
  have hlt : w < s.wk.count := h.roles.bounded w (by rw [hpc]; simp)
  have hout0 : SleepInv
      ((s.mapWk fun wk => { wk with idleWorkers := wk.idleWorkers - 1 }).setPc w
        (.top checked)) := by
    refine ofAwake (w := w) (h.roles.leaveCond hpc rfl rfl) ?_
      ⟨by simp [Sys.setPc, Pc.alive], ?_⟩
    · intro hs
      exact (h.alerted hs).move (w := w) (p := .top checked) rfl rfl rfl rfl (by simp)
    · rintro (hu | ⟨hp, _⟩)
      · simp [Sys.setPc, Pc.unsignalled] at hu
      · simp [Sys.setPc] at hp
  exact hout0.loopOutcome hlt (by simp [Sys.setPc, Pc.polls])
    (by simp [Sys.setPc, Pc.idle]) hout

/-- The poller may drain the wake token: it is awake, and no other worker polls. -/
theorem filterBatch {raw : List RawEvent} (h : SleepInv s) (hpc : s.wk.pc w = .polled raw) :
    SleepInv (s.mapWk fun wk =>
      { wk.setPc w (.filtered (pollerTranslate s.poller [] raw)) with
        wakePending := wk.wakePending && !raw.any s.poller.isWake }) := by
  refine ofAwake (w := w) ?_ ?_ ⟨by simp [Sys.mapWk, Workers.setPc, Pc.alive], ?_⟩
  · exact (h.roles.setPc (w := w) (h.roles.bounded w (by rw [hpc]; simp))
      (by rw [hpc]; rfl) (by rw [hpc]; rfl) rfl).signals (fun _ => .inl rfl) rfl rfl rfl
  · intro hs
    refine ⟨fun v => ?_, fun v hv => ?_⟩
    · by_cases hvw : v = w
      · subst hvw; simp [Sys.mapWk, Workers.setPc, Pc.unsignalled]
      · simpa [Sys.mapWk, Workers.setPc, hvw] using (h.alerted hs).1 v
    · exfalso
      by_cases hvw : v = w
      · subst hvw; simp [Sys.mapWk, Workers.setPc] at hv
      · have hp : s.wk.pc v = .polling .infinite := by
          simpa [Sys.mapWk, Workers.setPc, hvw] using hv
        exact hvw (h.roles.single v w (by rw [hp]; rfl) (by rw [hpc]; rfl))
  · rintro (hu | ⟨hp, _⟩)
    · simp [Sys.mapWk, Workers.setPc, Pc.unsignalled] at hu
    · simp [Sys.mapWk, Workers.setPc] at hp

/-- The worker gives up the role of the poller, applies its batch and goes round its loop. -/
theorem pollReturn {o : Oracle} {events : List PollEvent} (h : SleepInv s)
    (hpc : s.wk.pc w = .filtered events) (hpoll : leavePoll o w events s = .ok s') :
    SleepInv s' := by
  have hpolls : (s.wk.pc w).polls = true := by rw [hpc]; rfl
  rcases leavePoll_ok hpoll with ⟨_, rfl⟩ | ⟨hgoing, s2, hbatch, hout⟩
  · exact h.releaseExit hpolls
  · have hrelease : SleepInv ((releasePoller s).setPc w (.top true)) := by
      refine ofAwake (w := w) (h.roles.stopPoll (p := .top true) hpolls rfl rfl) ?_
        ⟨by simp [Sys.setPc, Pc.alive], ?_⟩
      · intro hs
        have hs : s.stopping = true := hs
        rw [hgoing] at hs
        exact absurd hs (by simp)
      · rintro (hu | ⟨hp, _⟩)
        · simp [Sys.setPc, Pc.unsignalled] at hu
        · simp [Sys.setPc] at hp
    obtain ⟨h2, hcount⟩ := hrelease.pollBatch rfl rfl hbatch
    have hlt : w < s.wk.count := h.roles.bounded w (by rw [hpc]; simp)
    refine h2.loopOutcome ?_ (by simp [Sys.setPc, Pc.polls]) (by simp [Sys.setPc, Pc.idle])
      (hout.setPc (.top true))
    show w < s2.wk.count
    rw [hcount]
    exact hlt

/-- Initialization finds no poller. -/
theorem runtimeInit (h : SleepInv s) (hlife : LifeInv s) (hl : s.life = .preInit) :
    SleepInv { s with
      shutdownRequested := false, schedulerMainFinished := false, mainFinished := false
      mainSpawned := false, life := .inited
      wk := { s.wk with pollerWaiterActive := false } } := by
  have hquiet := hlife.quiet (by rw [hl]; rfl)
  have hfree : s.wk.pollerWaiterActive = false := by
    by_contra hne
    obtain ⟨v, hv⟩ := h.roles.active.mp (by simpa using hne)
    have hvq := hquiet v
    cases hpc : s.wk.pc v <;> rw [hpc] at hv hvq <;> simp [Pc.polls, Pc.alive] at hv hvq
  refine h.quiet ?_ hquiet ?_
  · show { s.wk with pollerWaiterActive := false } = s.wk
    rw [← hfree]
  · exact (hlife.fresh hl).symm

/-- A worker starts awake. -/
theorem createWorker {k : Nat} (h : SleepInv s) (hlife : LifeInv s)
    (hl : s.life = .creating k) (hk : k < s.wk.count) :
    SleepInv { s.setPc k (.top false) with life := .creating (k + 1) } := by
  have hpc : s.wk.pc k = .notStarted := by
    by_contra hne
    have hlt := hlife.started k hne
    rw [hl] at hlt
    exact absurd hlt (Nat.lt_irrefl k)
  exact h.move (w := k) (p := .top false) hk rfl rfl rfl rfl rfl rfl (by rw [hpc]; rfl)
    (by rw [hpc]; rfl) rfl rfl (by simp) rfl

/-- When `worker_deinit` empties the run queue, no worker is left. -/
theorem deinitDrain (h : SleepInv s) (hlife : LifeInv s) (hl : s.life = .shutJoin) :
    SleepInv { workerDeinitDrain s with life := .drained } := by
  have hframe := (DrainFrame.deinit s).eq
  refine h.quiet ?_ (hlife.quiet (by rw [hl]; rfl)) ?_
  · show (workerDeinitDrain s).wk = s.wk
    rw [hframe]
  · show (workerDeinitDrain s).stopping = s.stopping
    rw [hframe]; rfl

/-- **Every step of the scheduler keeps the invariant.** -/
theorem schedStep {a : Action} (h : SleepInv s) (hlife : LifeInv s)
    (hstep : SchedStep s a s') : SleepInv s' := by
  cases hstep with
  | spawnAlloc hspawn hl => exact h.spawnAlloc
  | spawnPublish hlock hmem => exact h.spawnPublish
  | forgetFd hlock hint hforget =>
      rcases workerForgetFd_ok hforget with ⟨_, rfl⟩ | ⟨_, s1, n, hwake, rfl⟩
      · exact h
      · exact h.forget (wakeWaitingTasksLocked_woke hwake)
  | pollerWake hmem =>
      exact h.signals (fun _ => .inl rfl) rfl rfl rfl (fun _ => rfl) (fun _ => .inl rfl) id id
  | waitIo hlock hint hpc hframe => exact h.waitIo hpc
  | yield hpc hframe | finishMain hpc | release hpc | cleanup hpc | kernelReturn hpc hbatch
  | kernelError hpc | resume hpc =>
      exact h.goesOn hpc rfl rfl rfl rfl rfl rfl (by simp) rfl rfl rfl rfl (by simp) rfl
  | taskReturn hpc hframe =>
      unfold Croutine.taskReturn
      dsimp only
      split <;>
        exact h.goesOn hpc rfl rfl rfl rfl rfl rfl (by simp) rfl rfl rfl rfl (by simp) rfl
  | finishSched hlock hpc => exact h.finishSched hpc
  | switchOut hpc =>
      split <;>
        exact h.goesOn hpc rfl rfl rfl rfl rfl rfl (by simp) rfl rfl rfl rfl (by simp) rfl
  | @reread hlock w t st hpc =>
      rcases afterReread_cases s t st with heq | heq | heq <;> rw [heq] <;>
        exact h.goesOn hpc rfl rfl rfl rfl rfl rfl (by simp) rfl rfl rfl rfl (by simp) rfl
  | requeue hlock hpc hrequeue => exact h.requeue hpc hrequeue
  | @loop hlock w checked hpc =>
      exact h.loopOutcome (h.roles.bounded w (by rw [hpc]; simp)) (by rw [hpc]; rfl)
        (by rw [hpc]; rfl) (loopBody_outcome w checked s)
  | condReturn hlock hpc => exact h.condReturn hpc
  | filterBatch hpc => exact h.filterBatch hpc
  | pollReturn hlock hpc hpoll => exact h.pollReturn hpc hpoll
  | pollFailed hlock hpc hpoll =>
      obtain ⟨_, rfl⟩ := leavePollError_ok hpoll
      exact h.releaseExit (by rw [hpc]; rfl)
  | runtimeInit hlock hl => exact h.runtimeInit hlife hl
  | createWorker hl hk howes => exact h.createWorker hlife hl hk
  | returnIo hpc hframe | setReady fd mask | runCall hl | waitForMain hl
  | joinWorkers hl hall => exact h.same rfl rfl rfl
  | deinitDrain hlock hl => exact h.deinitDrain hlife hl
  | deinitClose hl => exact h.quiet rfl (hlife.quiet (by rw [hl]; rfl)) rfl

/-- **Sleeping workers.**  The invariant holds in every state of every run. -/
theorem reach {backend : Backend} {allowed : Sys → Action → Prop}
    (h : (runtime backend).ReachVia allowed s) : SleepInv s := by
  refine Machine.ReachVia.invariant ?_ ?_ h
  · rintro x ⟨wakeFd, workers, runCapacity, ioCapacity, _, _, rfl⟩
    refine ⟨⟨fun w hw => absurd rfl hw, ?_, ?_, ?_, ?_⟩, fun hs => absurd hs (by
      simp [initial, Sys.stopping]), fun hq => absurd rfl hq⟩
    · simp [initial, Workers.idleCount, Pc.idle]
    · simp [initial, Pc.polls]
    · intro v w hv
      exact absurd hv (by simp [initial, Pc.polls])
    · intro w hw
      exact absurd hw (by simp [initial, Pc.unsignalled])
  · intro x a x' hreach hx _ hstep
    rcases step_kind hstep with hc | hs
    · exact hx.chanView hc.view
    · exact hx.schedStep (LifeInv.reach hreach) hs

end SleepInv

end Croutine
