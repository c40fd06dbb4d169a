import Croutine.Calls
import Croutine.Lib.Intrusive

/-!
# The channel registry

`croutine_channel_create` links a channel in front of the list that starts at
`channel_registry`, and `croutine_channel_destroy` connects the neighbours of the channel
it releases.  `Registry` is that list with the pointers of the source, and `tracked`
runs it beside the runtime, together with the channels created and destroyed so far.

`TrackedInv` says that the pointers always represent the list of registered channels,
that this list has the channels created and not destroyed, each once, and that a
destroyed channel is never written again.
-/

namespace Croutine

open Intrusive

/-- `channel_registry` with the `registry_next` and `registry_prev` fields. -/
structure Registry where
  head : Option ChanId
  links : Links ChanId

namespace Registry

/-- Before any channel was created. -/
def empty : Registry := ⟨none, ⟨fun _ => none, fun _ => none⟩⟩

/-- The end of `croutine_channel_create`.  The new channel came zeroed from `calloc`. -/
def insert (r : Registry) (c : ChanId) : Registry where
  head := some c
  links := { r.links with prev := Function.update r.links.prev c none }.connect (some c) r.head

/-- The unlinking of `croutine_channel_destroy`. -/
def remove (r : Registry) (c : ChanId) : Registry where
  head := match r.links.prev c with
    | some _ => r.head
    | none => r.links.next c
  links := r.links.connect (r.links.prev c) (r.links.next c)

/-- The pointers represent the list. -/
structure Represents (r : Registry) (l : List ChanId) : Prop where
  head : r.head = l.head?
  chained : Chained r.links l

/-- Inserting a channel at the head of the list. -/
theorem Represents.insert {r : Registry} {l : List ChanId} {c : ChanId} (h : r.Represents l)
    (hnodup : l.Nodup) (hc : c ∉ l) : (r.insert c).Represents (c :: l) := by
  have hfresh : Chained { r.links with prev := Function.update r.links.prev c none } l := by
    intro front x back hl
    have hx : x ≠ c := by
      rintro rfl
      exact hc (by rw [hl]; simp)
    obtain ⟨hprev, hnext⟩ := h.chained front x back hl
    exact ⟨(Function.update_of_ne hx _ _).trans hprev, hnext⟩
  refine ⟨rfl, ?_⟩
  unfold Registry.insert
  rw [h.head]
  exact hfresh.pushFront hnodup hc (Function.update_self _ _ _)

/-- Unlinking a channel from the list. -/
theorem Represents.remove {r : Registry} {l : List ChanId} {c : ChanId} (h : r.Represents l)
    (hnodup : l.Nodup) (hc : c ∈ l) : (r.remove c).Represents (l.erase c) := by
  obtain ⟨front, back, hl⟩ := List.append_of_mem hc
  subst hl
  have hfront : c ∉ front := by
    intro hmem
    exact (List.nodup_append.mp hnodup).2.2 c hmem c List.mem_cons_self rfl
  obtain ⟨hprev, hnext⟩ := h.chained front c back rfl
  rw [List.erase_append_right _ hfront, List.erase_cons_head]
  refine ⟨?_, h.chained.remove hnodup⟩
  unfold Registry.remove
  dsimp only
  rw [hprev, hnext]
  cases front with
  | nil => rfl
  | cons x front =>
      have hlast : ∃ y, (x :: front).getLast? = some y :=
        ⟨_, List.getLast?_eq_some_getLast (List.cons_ne_nil x front)⟩
      obtain ⟨y, hy⟩ := hlast
      rw [hy]
      exact h.head

end Registry

namespace Chans

/-- `croutine_channel_create` returns a channel. -/
def creates (elemSize capacity : Nat) (allocOk : Bool) : Bool :=
  !(decide (capacity ≠ 0) && decide (elemSize > sizeMax / capacity)) && allocOk

/-- The result of `croutine_channel_destroy`. -/
def destroyable (κ : Chans) (c : ChanId) : Bool :=
  (κ.chan c).closed && (κ.queue c .send).isEmpty && (κ.queue c .recv).isEmpty

end Chans

/-- `croutine_channel_create` in one branch: the channel is made and registered, or nothing
happens. -/
theorem croutineChannelCreate_eq (κ : Chans) (elemSize capacity : Nat) (allocOk : Bool) :
    croutineChannelCreate κ elemSize capacity allocOk =
      if Chans.creates elemSize capacity allocOk then
        { κ.setChan κ.nextChan { elemSize := elemSize, capacity := capacity } with
          registry := κ.nextChan :: κ.registry
          nextChan := κ.nextChan + 1 }
      else κ := by
  unfold croutineChannelCreate Chans.creates
  by_cases hbig : capacity ≠ 0 ∧ elemSize > sizeMax / capacity <;> cases allocOk <;> simp [hbig]

/-- `croutine_channel_destroy` in one branch: the channel is unlinked, or nothing happens. -/
theorem croutineChannelDestroy_eq (κ : Chans) (c : ChanId) :
    croutineChannelDestroy κ c =
      if κ.destroyable c then { κ with registry := κ.registry.erase c } else κ := rfl

/-! ## What a step does to the set of channels -/

/-- The same channels are registered, and the others are not written. -/
structure SameChannels (κ κ' : Chans) : Prop where
  registry : κ'.registry = κ.registry
  nextChan : κ'.nextChan = κ.nextChan
  chan : ∀ c, c ∉ κ.registry → κ'.chan c = κ.chan c

namespace SameChannels

variable {κ κ' κ'' : Chans} {s s' : Sys} {P : List SelectCase → Prop} {a : Action}

theorem refl (κ : Chans) : SameChannels κ κ := ⟨rfl, rfl, fun _ _ => rfl⟩

theorem trans (h : SameChannels κ κ') (h' : SameChannels κ' κ'') : SameChannels κ κ'' := by
  refine ⟨h'.registry.trans h.registry, h'.nextChan.trans h.nextChan, fun c hc => ?_⟩
  exact (h'.chan c (by rw [h.registry]; exact hc)).trans (h.chan c hc)

/-- Nothing but the history, the memory and the clock. -/
theorem of_eq (hregistry : κ'.registry = κ.registry) (hnext : κ'.nextChan = κ.nextChan)
    (hchan : κ'.chan = κ.chan) : SameChannels κ κ' :=
  ⟨hregistry, hnext, fun c _ => by rw [hchan]⟩

/-- Waiters move on registered channels. -/
theorem moves (hmoves : WaitMoves s s') (hchan : ∀ c, c ∉ s.ch.registry →
    s'.ch.chan c = s.ch.chan c) : SameChannels s.ch s'.ch :=
  ⟨hmoves.keeps.1, hmoves.keeps.2.1, hchan⟩

/-- A step that writes one registered channel leaves the set of channels. -/
theorem onlyAt {c : ChanId} (hmoves : WaitMoves s s') (hc : c ∈ s.ch.registry)
    (honly : s.ch.OnlyAt c s'.ch) : SameChannels s.ch s'.ch :=
  moves hmoves fun c' hc' => honly c' fun heq => hc' (heq ▸ hc)

/-- Linking a waiter into a registered channel leaves the set of channels. -/
theorem park {c : ChanId} {w : WaiterId} {x : Waiter} (hc : c ∈ κ.registry) :
    SameChannels κ (κ.park c w x) := by
  have honly := Chans.OnlyQueues.park κ c w x
  refine ⟨honly.registry, honly.nextChan, fun c' hc' => ?_⟩
  exact Chans.OnlyAt.setChan _ c _ c' fun heq => hc' (heq ▸ hc)

/-- Parking on a registered channel leaves the set of channels. -/
theorem parkOnChannel {w : WorkerId} {t : TaskId} {op : Direction} {k : CallId} {c : ChanId}
    {slot : Addr} (hrun : s.shutdownRequested = false) (hc : c ∈ s.ch.registry) :
    SameChannels s.ch (Croutine.parkOnChannel s w t op k c slot).ch := by
  rw [(@parkOnChannel_eq s w t op k c slot hrun).1]
  exact park hc

/-- Registering a select whose channels are registered leaves the set of channels. -/
theorem selectRegister {t : TaskId} {k : CallId} :
    ∀ (cases : List SelectCase) (i : Nat) {κ : Chans},
      (∀ cs ∈ cases, ∀ c, cs.channel = some c → c ∈ κ.registry) →
      SameChannels κ (Croutine.selectRegister t k i cases κ) := by
  intro cases
  induction cases with
  | nil => intro i κ _; exact .refl κ
  | cons cs rest ih =>
      intro i κ hreg
      have hrest : ∀ x ∈ rest, ∀ c, x.channel = some c → c ∈ κ.registry :=
        fun x hx => hreg x (List.mem_cons_of_mem _ hx)
      rw [Croutine.selectRegister]
      cases hchan : cs.channel with
      | none =>
          have hlay : SameChannels κ
              { κ with waiter := Function.update κ.waiter ⟨k, i⟩ (selectWaiter t k i cs) } :=
            .of_eq rfl rfl rfl
          exact hlay.trans (ih (i + 1) hrest)
      | some c =>
          have hpark := park (w := ⟨k, i⟩) (x := selectWaiter t k i cs)
            (hreg cs List.mem_cons_self c hchan)
          refine hpark.trans (ih (i + 1) fun x hx c' hc' => ?_)
          rw [hpark.registry]
          exact hrest x hx c' hc'

/-- A scrub unlinks waiters of registered channels. -/
theorem scrub {k : CallId} (l : List Nat) :
    ∀ {κ : Chans}, (∀ w c, (κ.waiter w).channel = some c → c ∈ κ.registry) →
      SameChannels κ (l.foldl (scrubWaiter k) κ) := by
  induction l with
  | nil => intro κ _; exact .refl κ
  | cons i rest ih =>
      intro κ hreg
      have hround : SameChannels κ (scrubWaiter k κ i) ∧
          ∀ w c, ((scrubWaiter k κ i).waiter w).channel = some c → c ∈ κ.registry := by
        unfold scrubWaiter
        split
        · exact ⟨.refl κ, hreg⟩
        · next c hc =>
          refine ⟨⟨rfl, rfl, fun c' hc' => ?_⟩, fun w c' hw => ?_⟩
          · exact Chans.OnlyAt.setChan κ c _ c' fun heq => hc' (heq ▸ hreg _ c hc)
          · by_cases hwi : w = ⟨k, i⟩
            · rw [hwi] at hw
              simp [Chans.waitQueueUnlink, Chans.setLink] at hw
            · refine hreg w c' ?_
              simpa [Chans.waitQueueUnlink, Chans.setLink, Chans.setQueue, Chans.setChan, hwi]
                using hw
      rw [List.foldl_cons]
      refine hround.1.trans (ih fun w c hw => ?_)
      rw [hround.1.registry]
      exact hround.2 w c hw

/-- The closes of a shutdown leave the set of channels. -/
theorem shutdownAll {o : Oracle} (h : croutineChannelShutdownAllLocked o s = .ok s') :
    SameChannels s.ch s'.ch := by
  refine moves (croutineChannelShutdownAllLocked_moves h) fun c hc => ?_
  refine Res.foldlM_induct_mem (I := fun x => x.ch.chan c = s.ch.chan c) _ ?_ rfl h
  intro x c' x' hc' hx hclose
  have hne : c ≠ c' := fun heq => hc (heq ▸ hc')
  exact (channelCloseLocked_onlyAt hclose c hne).trans hx

/-- The try phase of a select works on the channels of its cases. -/
theorem tryCases {o : Oracle} {k : CallId} {cases : List SelectCase} {order : List Nat}
    {fired : Option (Nat × SelectStatus)}
    (hreg : ∀ cs ∈ cases, ∀ c, cs.channel = some c → c ∈ s.ch.registry)
    (h : selectTryCases o k cases order s = .ok (s', fired)) : SameChannels s.ch s'.ch := by
  refine moves (selectTryCases_moves h) fun c hc => selectTryCases_chan (fun cs hcs heq => ?_) h
  exact hc (hreg cs hcs c heq)

end SameChannels

/-- A step creates a channel, destroys one, or keeps the set of channels. -/
theorem ChanStep.channels {P : List SelectCase → Prop} {s s' : Sys} {a : Action}
    (hwait : WaitInv s.ch s.tasks)
    (hrunning : ∀ w t, s.wk.pc w = .running t → (s.tasks t).state = .runnable)
    (hstep : ChanStep P s a s') :
    (∃ θ elemSize capacity allocOk, a = .channelCreate θ elemSize capacity allocOk ∧
      s'.ch = croutineChannelCreate s.ch elemSize capacity allocOk) ∨
    (∃ θ c, a = .channelDestroy θ c ∧ c ∈ s.ch.registry ∧ s'.ch = croutineChannelDestroy s.ch c) ∨
    ((∀ θ elemSize capacity allocOk, a ≠ .channelCreate θ elemSize capacity allocOk) ∧
      (∀ θ c, a ≠ .channelDestroy θ c) ∧ SameChannels s.ch s'.ch) := by
  have htick : SameChannels s.ch s.ticked.ch := .of_eq rfl rfl rfl
  have hrecord : ∀ {κ : Chans} (e : Event), SameChannels s.ch κ → SameChannels s.ch (κ.record e) :=
    fun e h => h.trans (.of_eq rfl rfl rfl)
  cases hstep with
  | userWrite a bs => exact .inr (.inr ⟨by simp, by simp, .of_eq rfl rfl rfl⟩)
  | create hlock elemSize capacity allocOk =>
      exact .inl ⟨_, elemSize, capacity, allocOk, rfl, rfl⟩
  | destroy hlock hc => exact .inr (.inl ⟨_, _, rfl, hc, rfl⟩)
  | trySend hlock hc htry =>
      exact .inr (.inr ⟨by simp, by simp, htick.trans (.onlyAt htry.moves hc htry.onlyAt)⟩)
  | sendReturn hlock hc htry htask =>
      exact .inr (.inr ⟨by simp, by simp,
        hrecord _ (htick.trans (.onlyAt htry.moves hc htry.onlyAt))⟩)
  | sendPark hlock hc htry hpc hframe =>
      have h1 := htick.trans (.onlyAt htry.moves hc htry.onlyAt)
      exact .inr (.inr ⟨by simp, by simp,
        h1.trans (.parkOnChannel htry.blocked_running (by rw [h1.registry]; exact hc))⟩)
  | tryRecv hlock hc htry =>
      exact .inr (.inr ⟨by simp, by simp, htick.trans (.onlyAt htry.moves hc htry.onlyAt)⟩)
  | recvReturn hlock hc htry htask =>
      exact .inr (.inr ⟨by simp, by simp,
        hrecord _ (htick.trans (.onlyAt htry.moves hc htry.onlyAt))⟩)
  | recvPark hlock hc htry hpc hframe =>
      have h1 := htick.trans (.onlyAt htry.moves hc htry.onlyAt)
      exact .inr (.inr ⟨by simp, by simp,
        h1.trans (.parkOnChannel htry.blocked_running (by rw [h1.registry]; exact hc))⟩)
  | close hlock hc hclose =>
      exact .inr (.inr ⟨by simp, by simp,
        .onlyAt (channelCloseLocked_moves hclose) hc (channelCloseLocked_onlyAt hclose)⟩)
  | shutdown hlock ha hlife hclose =>
      have hall := SameChannels.shutdownAll hclose
      refine .inr (.inr ⟨?_, ?_, hall⟩)
      · rintro θ e cap ok rfl; simp [Action.requestsShutdown] at ha
      · rintro θ c rfl; simp [Action.requestsShutdown] at ha
  | selectEmpty hlock => exact .inr (.inr ⟨by simp, by simp, .of_eq rfl rfl rfl⟩)
  | selectFired hlock hP hreg htry | selectDefault hlock hP hreg htry hwhy =>
      exact .inr (.inr ⟨by simp, by simp, hrecord _ (htick.trans (.tryCases hreg htry))⟩)
  | @selectPark hlock hasDefault o choice cases s1 w t hP hreg htry hsome hpc hact =>
      have h1 := htick.trans (.tryCases hreg htry)
      have hset : SameChannels s.ch (s1.ch.setSelect s.ch.clock {}) :=
        h1.trans (.of_eq rfl rfl rfl)
      have hpark := hset.trans (SameChannels.selectRegister (t := t) (k := s.ch.clock) cases 0
        fun cs hcs c hc => by rw [hset.registry]; exact hreg cs hcs c hc)
      refine .inr (.inr ⟨by simp, by simp, ?_⟩)
      unfold workerParkCurrentOnChannelLocked
      split
      · exact hpark
      · exact hpark
  | @returnSingle w t op call c parked hpc hframe hlock =>
      rw [hwait.returnFromSingle_eq (hrunning w t hpc) hframe]
      exact .inr (.inr ⟨by simp, by simp, .of_eq rfl rfl rfl⟩)
  | @returnSelect w t call cases parked hpc hframe hlock =>
      obtain ⟨index, status, heq⟩ := WaitInv.returnFromSelect_eq s.ch call cases
        (parked && (s.tasks t).channelWakeSuccess)
      rw [heq]
      exact .inr (.inr ⟨by simp, by simp, hrecord _ (.scrub _ hwait.registered)⟩)

/-- A channel that was not created yet has never been written. -/
theorem chan_fresh {backend : Backend} {allowed : Sys → Action → Prop} {s : Sys}
    (h : (runtime backend).ReachVia allowed s) {c : ChanId} (hc : s.ch.nextChan ≤ c) :
    s.ch.chan c = {} := by
  refine Machine.ReachVia.invariant (I := fun x => ∀ c, x.ch.nextChan ≤ c → x.ch.chan c = {})
    ?_ ?_ h c hc
  · intro x hx c _
    obtain ⟨wakeFd, workers, runCapacity, ioCapacity, _, _, rfl⟩ := hx
    rfl
  · intro x a x' hreach hx _ hstep c hc
    rcases step_chan hreach hstep with hch | hu
    · rcases hch.channels (WaitInv.reach hreach) fun w t hpc => running_runnable hreach hpc with
        ⟨θ, elemSize, capacity, allocOk, _, heq⟩ | ⟨θ, c', _, _, heq⟩ | ⟨_, _, hsame⟩
      · rw [heq, croutineChannelCreate_eq] at hc ⊢
        split at hc
        · next hok =>
          have hlt : x.ch.nextChan < c := hc
          rw [if_pos hok]
          simpa [Chans.setChan, Nat.ne_of_gt hlt] using hx c (Nat.le_of_lt hlt)
        · next hok =>
          rw [if_neg hok]
          exact hx c hc
      · rw [heq, croutineChannelDestroy_eq] at hc ⊢
        split at hc
        · next hok => rw [if_pos hok]; exact hx c hc
        · next hok => rw [if_neg hok]; exact hx c hc
      · rw [hsame.nextChan] at hc
        rw [hsame.chan c fun hmem =>
          Nat.not_lt.mpr hc ((WaitInv.reach hreach).created c hmem)]
        exact hx c hc
    · rw [hu.ch] at hc ⊢
      exact hx c hc

/-! ## The registry beside the runtime -/

/-- A run with the pointers of the registry, the channels created so far, and those
destroyed so far as they were then. -/
structure Tracked where
  sys : Sys
  registry : Registry
  created : List ChanId
  destroyed : List (ChanId × Channel)

/-- What a step that leads to `s'` does to the registry. -/
def Tracked.follow (x : Tracked) (a : Action) (s' : Sys) : Tracked :=
  match a with
  | .channelCreate _ elemSize capacity allocOk =>
    if Chans.creates elemSize capacity allocOk then
      { x with
        sys := s'
        registry := x.registry.insert x.sys.ch.nextChan
        created := x.sys.ch.nextChan :: x.created }
    else { x with sys := s' }
  | .channelDestroy _ c =>
    if x.sys.ch.destroyable c then
      { x with
        sys := s'
        registry := x.registry.remove c
        destroyed := (c, x.sys.ch.chan c) :: x.destroyed }
    else { x with sys := s' }
  | _ => { x with sys := s' }

/-- The runtime with its registry. -/
def tracked (backend : Backend) : Machine Tracked Action where
  init x := (runtime backend).init x.sys ∧ x.registry = .empty ∧ x.created = [] ∧ x.destroyed = []
  step x a := step x.sys a >>= fun s' => .ok (x.follow a s')

/-- The tracked run is over the states of the runtime. -/
theorem Tracked.follow_sys (x : Tracked) (a : Action) (s' : Sys) : (x.follow a s').sys = s' := by
  unfold Tracked.follow
  split
  · split <;> rfl
  · split <;> rfl
  · rfl

/-- Only creation and destruction touch what is tracked. -/
theorem Tracked.follow_other {x : Tracked} {a : Action} {s' : Sys}
    (hcreate : ∀ θ elemSize capacity allocOk, a ≠ .channelCreate θ elemSize capacity allocOk)
    (hdestroy : ∀ θ c, a ≠ .channelDestroy θ c) : x.follow a s' = { x with sys := s' } := by
  unfold Tracked.follow
  split
  · next θ e cap ok => exact absurd rfl (hcreate θ e cap ok)
  · next θ c => exact absurd rfl (hdestroy θ c)
  · rfl

/-- A step of the tracked machine is a step of the runtime, followed. -/
theorem tracked_step {backend : Backend} {x x' : Tracked} {a : Action}
    (h : (tracked backend).step x a = .ok x') :
    ∃ s', step x.sys a = .ok s' ∧ x' = x.follow a s' := by
  obtain ⟨s', hs', hx'⟩ := Res.bind_ok.mp h
  exact ⟨s', hs', (Except.ok.inj hx').symm⟩

/-- A tracked run is a run of the runtime. -/
theorem Tracked.reachVia {backend : Backend} {allowed : Sys → Action → Prop} {x : Tracked}
    (h : (tracked backend).ReachVia (fun y a => allowed y.sys a) x) :
    (runtime backend).ReachVia allowed x.sys := by
  refine Machine.ReachVia.invariant (I := fun y => (runtime backend).ReachVia allowed y.sys)
    ?_ ?_ h
  · exact fun y hy => .init hy.1
  · intro y a y' _ hy ha hstep
    obtain ⟨s', hs', rfl⟩ := tracked_step hstep
    rw [Tracked.follow_sys]
    exact .step hy ha hs'

/-- Every run of the runtime can be tracked. -/
theorem Tracked.of_reachVia {backend : Backend} {allowed : Sys → Action → Prop} {s : Sys}
    (h : (runtime backend).ReachVia allowed s) :
    ∃ x, (tracked backend).ReachVia (fun y a => allowed y.sys a) x ∧ x.sys = s := by
  refine Machine.ReachVia.invariant (I := fun s => ∃ x : Tracked,
    (tracked backend).ReachVia (fun y a => allowed y.sys a) x ∧ x.sys = s) ?_ ?_ h
  · exact fun s hs => ⟨⟨s, .empty, [], []⟩, .init ⟨hs, rfl, rfl, rfl⟩, rfl⟩
  · rintro s a s' _ ⟨x, hx, rfl⟩ ha hstep
    refine ⟨x.follow a s', .step hx ha ?_, Tracked.follow_sys x a s'⟩
    show step x.sys a >>= _ = _
    rw [show step x.sys a = .ok s' from hstep]
    rfl

structure TrackedInv (x : Tracked) : Prop where
  represents : x.registry.Represents x.sys.ch.registry
  nodup : x.sys.ch.registry.Nodup
  members : ∀ c, c ∈ x.sys.ch.registry ↔ c ∈ x.created ∧ ∀ ch, (c, ch) ∉ x.destroyed
  created : ∀ c ∈ x.created, c < x.sys.ch.nextChan
  gone : ∀ c ch, (c, ch) ∈ x.destroyed → c ∈ x.created ∧ x.sys.ch.chan c = ch

namespace TrackedInv

variable {x : Tracked} {s' : Sys} {a : Action}

/-- The set of channels stays as it is. -/
theorem same (h : TrackedInv x) (hsame : SameChannels x.sys.ch s'.ch) :
    TrackedInv { x with sys := s' } := by
  refine ⟨?_, ?_, ?_, ?_, ?_⟩ <;> dsimp only
  · rw [hsame.registry]; exact h.represents
  · rw [hsame.registry]; exact h.nodup
  · rw [hsame.registry]; exact h.members
  · rw [hsame.nextChan]; exact h.created
  · intro c ch hmem
    obtain ⟨hcreated, hchan⟩ := h.gone c ch hmem
    have hout : c ∉ x.sys.ch.registry := fun hreg => ((h.members c).mp hreg).2 ch hmem
    exact ⟨hcreated, (hsame.chan c hout).trans hchan⟩

/-- Creating a channel keeps the invariant. -/
theorem create {θ : Thread} {elemSize capacity : Nat} {allocOk : Bool} (h : TrackedInv x)
    (hs' : s'.ch = croutineChannelCreate x.sys.ch elemSize capacity allocOk) :
    TrackedInv (x.follow (.channelCreate θ elemSize capacity allocOk) s') := by
  rw [croutineChannelCreate_eq] at hs'
  unfold Tracked.follow
  dsimp only
  split
  · next hok =>
    rw [if_pos hok] at hs'
    have hnew : x.sys.ch.nextChan ∉ x.created :=
      fun hmem => Nat.lt_irrefl _ (h.created _ hmem)
    have hfresh : x.sys.ch.nextChan ∉ x.sys.ch.registry :=
      fun hmem => hnew ((h.members _).mp hmem).1
    refine ⟨?_, ?_, ?_, ?_, ?_⟩ <;> dsimp only <;> rw [hs']
    · exact h.represents.insert h.nodup hfresh
    · exact List.nodup_cons.mpr ⟨hfresh, h.nodup⟩
    · intro c
      show c ∈ x.sys.ch.nextChan :: x.sys.ch.registry ↔ _
      rw [List.mem_cons, List.mem_cons, h.members c]
      constructor
      · rintro (rfl | ⟨hc, hlive⟩)
        · exact ⟨.inl rfl, fun ch hmem => hnew (h.gone _ ch hmem).1⟩
        · exact ⟨.inr hc, hlive⟩
      · rintro ⟨rfl | hc, hlive⟩
        · exact .inl rfl
        · exact .inr ⟨hc, hlive⟩
    · intro c hc
      rcases List.mem_cons.mp hc with rfl | hc
      · exact Nat.lt_succ_self _
      · exact Nat.lt_succ_of_lt (h.created c hc)
    · intro c ch hmem
      obtain ⟨hc, hchan⟩ := h.gone c ch hmem
      have hne : c ≠ x.sys.ch.nextChan := fun heq => hnew (heq ▸ hc)
      exact ⟨List.mem_cons_of_mem _ hc, (Chans.OnlyAt.setChan x.sys.ch _ _ c hne).trans hchan⟩
  · next hok =>
    rw [if_neg hok] at hs'
    exact h.same (hs' ▸ .refl _)

/-- Destroying a registered channel keeps the invariant. -/
theorem destroy {θ : Thread} {c : ChanId} (h : TrackedInv x) (hc : c ∈ x.sys.ch.registry)
    (hs' : s'.ch = croutineChannelDestroy x.sys.ch c) :
    TrackedInv (x.follow (.channelDestroy θ c) s') := by
  rw [croutineChannelDestroy_eq] at hs'
  unfold Tracked.follow
  dsimp only
  split
  · next hok =>
    rw [if_pos hok] at hs'
    refine ⟨?_, ?_, ?_, ?_, ?_⟩ <;> dsimp only <;> rw [hs']
    · exact h.represents.remove h.nodup hc
    · exact h.nodup.erase c
    · intro c'
      show c' ∈ x.sys.ch.registry.erase c ↔ _
      rw [h.nodup.mem_erase_iff, h.members c']
      constructor
      · rintro ⟨hne, hcreated, hlive⟩
        refine ⟨hcreated, fun ch hmem => ?_⟩
        rcases List.mem_cons.mp hmem with heq | hmem
        · exact hne (Prod.mk.inj heq).1
        · exact hlive ch hmem
      · rintro ⟨hcreated, hlive⟩
        refine ⟨?_, hcreated, fun ch hmem => hlive ch (List.mem_cons_of_mem _ hmem)⟩
        rintro rfl
        exact hlive _ List.mem_cons_self
    · exact h.created
    · intro c' ch hmem
      rcases List.mem_cons.mp hmem with heq | hmem
      · obtain ⟨rfl, rfl⟩ := Prod.mk.inj heq
        exact ⟨((h.members c').mp hc).1, rfl⟩
      · exact h.gone c' ch hmem
  · next hok =>
    rw [if_neg hok] at hs'
    exact h.same (hs' ▸ .refl _)

/-- **The registry** has the channels created and not destroyed in every state of every
run, and its pointers agree. -/
theorem reach {backend : Backend} {allowed : Sys → Action → Prop} {x : Tracked}
    (h : (tracked backend).ReachVia (fun y a => allowed y.sys a) x) : TrackedInv x := by
  refine Machine.ReachVia.invariant ?_ ?_ h
  · rintro ⟨s, r, created, destroyed⟩ ⟨hinit, rfl, rfl, rfl⟩
    obtain ⟨wakeFd, workers, runCapacity, ioCapacity, _, _, rfl⟩ := hinit
    refine ⟨⟨rfl, Chained.nil _⟩, List.nodup_nil, ?_, ?_, ?_⟩
    · intro c
      simp [initial]
    · intro c hc
      simp at hc
    · intro c ch hc
      simp at hc
  · intro y a y' hreach hy _ hstep
    have hsys := Tracked.reachVia hreach
    obtain ⟨s', hs', rfl⟩ := tracked_step hstep
    rcases step_kind hs' with hc | hsched
    · rcases hc.channels (WaitInv.reach hsys) (fun w t hpc => running_runnable hsys hpc) with
        ⟨θ, e, cap, ok, rfl, hch⟩ | ⟨θ, c, rfl, hreg, hch⟩ | ⟨hcreate, hdestroy, hsame⟩
      · exact hy.create hch
      · exact hy.destroy hreg hch
      · rw [Tracked.follow_other hcreate hdestroy]
        exact hy.same hsame
    · rw [Tracked.follow_other (by rintro θ e cap ok rfl; cases hsched)
        (by rintro θ c rfl; cases hsched)]
      exact hy.same ((hsched.unchanged_of_reach hsys).ch ▸ .refl _)

end TrackedInv

/-! ## The lifetime of waiters and channels -/

/-- **No dangling waiter or channel.**  A waiter whose `channel` is set is linked once, in
the queue of that channel for its operation, and in no other; the channel exists, and the
call that owns the waiter has not returned.  Once `croutine_channel_destroy` returned
`true`, no waiter refers to the channel and nothing is written to it. -/
theorem no_dangling_waiter {backend : Backend} {x : Tracked}
    (hreach : (tracked backend).Reach x) :
    (∀ w, (x.sys.ch.waiter w).channel ≠ none ↔
      ∃! q : ChanId × Direction, w ∈ x.sys.ch.queue q.1 q.2) ∧
    (∀ w c, (x.sys.ch.waiter w).channel = some c →
      (∀ c' op, (x.sys.ch.queue c' op).count w =
        if c' = c ∧ op = (x.sys.ch.waiter w).op.direction then 1 else 0) ∧
      (c ∈ x.created ∧ ∀ ch, (c, ch) ∉ x.destroyed) ∧
      w.call ∉ x.sys.ch.returnedCalls ∧ ∃ t, (x.sys.tasks t).frame.call = some w.call) ∧
    ∀ c ch, (c, ch) ∈ x.destroyed →
      x.sys.ch.chan c = ch ∧ ∀ w, (x.sys.ch.waiter w).channel ≠ some c := by
  have hsys : (runtime backend).Reach x.sys := Tracked.reachVia hreach
  have hwait := WaitInv.reach hsys
  have hcalls := CallInv.reach hsys
  have hinv := @TrackedInv.reach backend (fun _ _ => True) x hreach
  refine ⟨fun w => ⟨fun hw => ?_, ?_⟩, fun w c hw => ⟨fun c' op => ?_, ?_, ?_⟩,
    fun c ch hmem => ⟨(hinv.gone c ch hmem).2, fun w hw => ?_⟩⟩
  · obtain ⟨c, hc⟩ := Option.ne_none_iff_exists'.mp hw
    refine ⟨(c, (x.sys.ch.waiter w).op.direction), hwait.linked.mem.mpr ⟨hc, rfl⟩, ?_⟩
    rintro ⟨c', op⟩ hmem
    obtain ⟨hc', hop⟩ := hwait.linked.mem.mp hmem
    rw [hc] at hc'
    rw [hop, Option.some.inj hc']
  · rintro ⟨q, hmem, _⟩
    rw [(hwait.linked.mem.mp hmem).1]
    simp
  · split
    · next hcase =>
      rw [hcase.1, hcase.2]
      exact List.count_eq_one_of_mem (hwait.linked c _).nodup (hwait.linked.mem.mpr ⟨hw, rfl⟩)
    · next hcase =>
      refine List.count_eq_zero.mpr fun hmem => hcase ?_
      obtain ⟨hc', hop⟩ := hwait.linked.mem.mp hmem
      rw [hw] at hc'
      exact ⟨(Option.some.inj hc').symm, hop.symm⟩
  · exact (hinv.members c).mp (hwait.registered w c hw)
  · have hcall := hwait.owner_call (w := w) (by rw [hw]; simp)
    exact ⟨hcalls.inside _ _ hcall, _, hcall⟩
  · exact ((hinv.members c).mp (hwait.registered w c hw)).2 ch hmem

/-- The main task waits for a value on channel 0 while channel 1 is closed and destroyed. -/
def parkedBesideDestroyed : List Action :=
  startUp 1 ++ dispatchOn 0 ++
    [.channelCreate (.external 0) 1 0 true, .channelCreate (.external 0) 1 0 true,
      .channelRecv (.worker 0) 0 8 .calm] ++ handOver 0 ++
    [.channelClose (.external 0) 1 .calm, .channelDestroy (.external 0) 1]

theorem no_dangling_waiter_parked :
    ∃ x, (tracked .epoll).Reach x ∧ x.sys.wk.lock = none ∧ x.sys.ch.queue 0 .recv = [⟨0, 0⟩] ∧
      0 ∉ x.sys.ch.returnedCalls ∧
      ∃ ch, (1, ch) ∈ x.destroyed ∧ ∀ w, (x.sys.ch.waiter w).channel ≠ some 1 := by
  have hreach : (tracked .epoll).Reach
      ((tracked .epoll).after ⟨small 1, .empty, [], []⟩ parkedBesideDestroyed) :=
    Machine.reach_after ⟨small_init 1 (by decide), rfl, rfl, rfl⟩ (by decide +kernel)
  obtain ⟨_, hlinked, hgone⟩ := no_dangling_waiter hreach
  have hdestroyed : (1, { elemSize := 1, closed := true }) ∈
      ((tracked .epoll).after ⟨small 1, .empty, [], []⟩ parkedBesideDestroyed).destroyed := by
    decide +kernel
  exact ⟨_, hreach, by decide +kernel, by decide +kernel,
    (hlinked ⟨0, 0⟩ 0 (by decide +kernel)).2.2.1, _, hdestroyed, (hgone 1 _ hdestroyed).2⟩

end Croutine
