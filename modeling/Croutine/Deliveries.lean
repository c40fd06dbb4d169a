import Croutine.Rendezvous
import Croutine.Results

/-!
# What a step stores in user memory

A step that is not user code stores at most once: the value of the one receive that it
completes, in the slot of that receive.  The value has the size of the channel's elements,
because a value is read in that size when it is sent and the buffer keeps it as it is.
-/

namespace Croutine

/-! ## The size of a value -/

/-- The values in the buffer have the channel's element size. -/
def Channel.Sized (ch : Channel) : Prop := ∀ v ∈ ch.buffer, v.length = ch.elemSize

/-- Channels that agree but for the queues have one element size. -/
theorem Channel.elemSize_of_bare {ch ch' : Channel} (h : ch'.bare = ch.bare) :
    ch'.elemSize = ch.elemSize := by
  have heq := congrArg Channel.elemSize h
  exact heq

/-- Only the buffer and the element size matter. -/
theorem Channel.Sized.congr {ch ch' : Channel} (h : ch.Sized) (hbuffer : ch'.buffer = ch.buffer)
    (hsize : ch'.elemSize = ch.elemSize) : ch'.Sized := by
  intro v hv
  rw [hbuffer] at hv
  rw [hsize]
  exact h v hv

/-- A channel that agrees but for the queues is sized as well. -/
theorem Channel.Sized.of_bare {ch ch' : Channel} (h : ch.Sized) (hbare : ch'.bare = ch.bare) :
    ch'.Sized :=
  h.congr (buffer_of_bare hbare) (elemSize_of_bare hbare)

/-- A value read for a channel has the channel's element size. -/
@[simp] theorem Chans.length_valueAt (κ : Chans) (c : ChanId) (src : Addr) :
    (κ.valueAt c src).length = (κ.chan c).elemSize :=
  length_readBytes ..

/-- A send puts a value of the element size into the buffer, if any. -/
theorem TrySend.sized {o : Oracle} {s s' : Sys} {c : ChanId} {offer : WaiterId} {value : Addr}
    {r : SendResult} (h : TrySend o s c offer value s' r) (hs : ∀ c', (s.ch.chan c').Sized) :
    ∀ c', (s'.ch.chan c').Sized := by
  intro c'
  by_cases hc : c' = c
  · subst hc
    cases h with
    | refused h => exact hs c'
    | handed hopen hrun hqueue hdead hlive hwake =>
        exact (hs c').of_bare (Chans.handedTo_bare _ _ _ _ _ _ _ _)
    | buffered hopen hrun hdead hroom =>
        have hchan := Chans.bufferPush_chan (s.ch.dropHeads c' .recv (s.ch.queue c' .recv) []) c'
          (s.ch.valueAt c' value)
        show (Chans.chan (Chans.bufferPush _ _ _) c').Sized
        rw [hchan]
        intro v hv
        rcases List.mem_append.mp hv with hv | hv
        · rw [Chans.dropHeads_buffer] at hv
          simpa using hs c' v hv
        · rw [List.mem_singleton.mp hv]
          simp
    | blocked hopen hrun hdead hfull => exact (hs c').of_bare (Chans.dropHeads_bare _ _ _ _ _ _)
  · rw [h.onlyAt c' hc]
    exact hs c'

/-- A receive leaves the later values in the buffer and may add one of a waiting sender. -/
theorem TryRecv.sized {o : Oracle} {s s' : Sys} {c : ChanId} {offer : WaiterId} {out : Addr}
    {r : RecvResult} (h : TryRecv o s c offer out s' r) (hs : ∀ c', (s.ch.chan c').Sized) :
    ∀ c', (s'.ch.chan c').Sized := by
  intro c'
  by_cases hc : c' = c
  · subst hc
    have htook : ∀ {v rest}, (s.ch.chan c').buffer = v :: rest →
        ((s.ch.tookBuffered c' offer out v rest).chan c').Sized := by
      intro v rest hbuffer
      rw [Chans.tookBuffered_chan]
      exact fun x hx => hs c' x (by rw [hbuffer]; exact List.mem_cons_of_mem v hx)
    cases h with
    | taken hbuffer hskip => exact htook hbuffer
    | drained hbuffer hopen hdead =>
        exact (htook hbuffer).of_bare (Chans.dropHeads_bare _ _ _ _ _ _)
    | @refilled v rest hbuffer hopen hroom dead tail x hqueue hdead hlive s1 hwake =>
        show (Chans.chan (Chans.bufferedFrom _ _ _ _ _) c').Sized
        rw [Chans.bufferedFrom_chan]
        intro y hy
        rcases List.mem_append.mp hy with hy | hy
        · have hsized := htook hbuffer y hy
          simpa using hsized
        · rw [List.mem_singleton.mp hy]
          simp
    | direct hbuffer hqueue hdead hlive hwake =>
        exact (hs c').of_bare (Chans.takenFrom_bare _ _ _ _ _ _ _ _)
    | refused hbuffer hdead h =>
        exact (hs c').of_bare (Chans.dropHeads_bare s.ch c' c' .send (s.ch.queue c' .send) [])
    | blocked hbuffer hdead hopen hrun => exact (hs c').of_bare (Chans.dropHeads_bare _ _ _ _ _ _)
  · rw [h.onlyAt c' hc]
    exact hs c'

/-- The attempt of a case keeps every channel's values sized. -/
theorem TryCase.sized {o : Oracle} {s s' : Sys} {offer : WaiterId} {cs : SelectCase}
    {fired : Option SelectStatus} (h : TryCase o s offer cs s' fired)
    (hs : ∀ c, (s.ch.chan c).Sized) : ∀ c, (s'.ch.chan c).Sized := by
  cases h with
  | untried huntried => exact hs
  | send hchan hop h => exact h.sized hs
  | recv hchan hop h => exact h.sized hs

/-- Closing a channel keeps every channel's values sized. -/
theorem channelCloseLocked_sized {o : Oracle} {s s' : Sys} {c : ChanId}
    (h : channelCloseLocked o s c = .ok s') (hs : ∀ c', (s.ch.chan c').Sized) :
    ∀ c', (s'.ch.chan c').Sized := by
  intro c'
  refine (hs c').congr (channelCloseLocked_contents h c').1 ?_
  rcases channelCloseLocked_ok h with ⟨_, rfl⟩ | ⟨_, s1, hsend, hrecv⟩
  · rfl
  · rw [Channel.elemSize_of_bare
      ((wakeAllAsClosedLocked_bare hrecv c').trans (wakeAllAsClosedLocked_bare hsend c'))]
    by_cases hc : c' = c
    · subst hc; simp [Chans.markClosed, Chans.setChan]
    · simp [Chans.markClosed, Chans.setChan, hc]

/-- The closes of a shutdown keep every channel's values sized. -/
theorem shutdownAll_sized {o : Oracle} {s s' : Sys}
    (h : croutineChannelShutdownAllLocked o s = .ok s') (hs : ∀ c, (s.ch.chan c).Sized) :
    ∀ c, (s'.ch.chan c).Sized :=
  Res.foldlM_induct (I := fun x => ∀ c, (x.ch.chan c).Sized)
    (fun _ _ _ hI hclose => channelCloseLocked_sized hclose hI) _ hs h

/-- **Sized values, step.** Every form of a channel step keeps every channel's values sized. -/
theorem ChanForm.sized {P : List SelectCase → Prop} {s s' : Sys} (hform : ChanForm P s s')
    (hwait : WaitInv s.ch s.tasks) (hs : ∀ c, (s.ch.chan c).Sized) :
    ∀ c, (s'.ch.chan c).Sized := by
  have honly : ∀ {κ κ' : Chans}, κ.OnlyQueues κ' → (∀ c, (κ.chan c).Sized) →
      ∀ c, (κ'.chan c).Sized :=
    fun h hκ c => (hκ c).congr (h.buffer c) (h.elemSize c)
  cases hform with
  | write a bs => exact hs
  | create elemSize capacity allocOk =>
      unfold croutineChannelCreate
      split
      · exact hs
      · intro c
        by_cases hc : c = s.ch.nextChan
        · subst hc; simp [Chans.setChan, Channel.Sized]
        · simpa [Chans.setChan, hc] using hs c
  | destroy hc =>
      unfold croutineChannelDestroy
      split <;> exact hs
  | attempt hreg htry hdead he =>
      have h1 := htry.sized (s := s.ticked) hs
      exact fun c => (h1 c).congr rfl rfl
  | parkSingle hc htry hpc hframe =>
      rw [(parkOnChannel_eq htry.runs_of_blocked).1]
      exact honly (.park _ _ _ _) (htry.sized (s := s.ticked) hs)
  | parkSelect hP hreg hsome hdead hall hpc hframe =>
      rw [workerParkCurrentOnChannelLocked_ch]
      refine honly (selectRegister_only _ 0 _) fun c => ?_
      exact (hs c).congr rfl rfl
  | close hc h => exact channelCloseLocked_sized h hs
  | shutdown h =>
      have h1 := shutdownAll_sized h hs
      exact h1
  | returnSingle hpc hframe => exact hs
  | @returnSelect w t call cases parked hpc hframe index status =>
      have hscrub := (Scrubbed.scrubSelectWaiters hwait.linked call cases.length).1
      have h1 := honly hscrub.only hs
      exact fun c => (h1 c).congr rfl rfl

/-- Events that complete no receive store nothing. -/
theorem Event.write_of_none : ∀ {l : List Event} {m : Memory},
    (l.flatMap Event.effects).filter (·.2.status = .value) = [] → l.foldl Event.write m = m := by
  intro l
  induction l with
  | nil => exact fun _ => rfl
  | cons e rest ih =>
      intro m h
      rw [List.flatMap_cons, List.filter_append, List.append_eq_nil_iff] at h
      have hsame : e.write m = m := by
        cases e <;> first | rfl | simp [effects, Effect.status] at h
      rw [List.foldl_cons, hsame]
      exact ih h.2

/-- The attempt of a case that is not ready writes no memory. -/
theorem TryCase.mem_of_blocked {o : Oracle} {s s' : Sys} {offer : WaiterId} {cs : SelectCase}
    (h : TryCase o s offer cs s' none) : s'.ch.mem = s.ch.mem := by
  rcases h.blocked_cases with ⟨_, rfl⟩ | ⟨c, _, _, _, _, rfl⟩
  · rfl
  · rfl

/-- The value stands in the slot now, and the other bytes are what they were. -/
def Stored (m m' : Memory) (slot : Addr) (v : Bytes) : Prop :=
  readBytes m' slot v.length = v ∧ ∀ x, x < slot ∨ slot + v.length ≤ x → m' x = m x

/-- A copied value is stored. -/
theorem Stored.writeBytes (m : Memory) (slot : Addr) (v : Bytes) :
    Stored m (Croutine.writeBytes m slot v) slot v :=
  ⟨readBytes_writeBytes .., fun _ hx => writeBytes_outside _ hx⟩

namespace Chans

/-- No receive was completed and user memory is as it was, or one was, and its value, of the
size of the channel's elements, was stored in its slot. -/
def Delivers (κ κ' : Chans) : Prop :=
  ∃ l, κ'.effects = κ.effects ++ l ∧
    ((l.filter (·.2.status = .value) = [] ∧ κ'.mem = κ.mem) ∨
      ∃ w c slot v, l.filter (·.2.status = .value) = [(w, .received c slot v)] ∧
        v.length = (κ.chan c).elemSize ∧ Stored κ.mem κ'.mem slot v)

namespace Delivers

variable {κ κ' κ'' : Chans} {l : List Event}

/-- No receive completed and nothing was written. -/
theorem none (hlog : κ'.log = κ.log ++ l)
    (hnone : (l.flatMap Event.effects).filter (·.2.status = .value) = [])
    (hmem : κ'.mem = κ.mem) : κ.Delivers κ' :=
  ⟨_, effects_append hlog, .inl ⟨hnone, hmem⟩⟩

/-- One receive completed, and the write is the one of its value. -/
theorem one (w : WaiterId) {c : ChanId} {slot : Addr} {v : Bytes} (hlog : κ'.log = κ.log ++ l)
    (hone : (l.flatMap Event.effects).filter (·.2.status = .value) = [(w, .received c slot v)])
    (hsize : v.length = (κ.chan c).elemSize) (hmem : κ'.mem = writeBytes κ.mem slot v) :
    κ.Delivers κ' :=
  ⟨_, effects_append hlog, .inr ⟨w, c, slot, v, hone, hsize, hmem ▸ .writeBytes ..⟩⟩

/-- Nothing was logged and nothing was written. -/
theorem of_eq (hlog : κ'.log = κ.log) (hmem : κ'.mem = κ.mem) : κ.Delivers κ' :=
  .none (l := []) (by rw [hlog, List.append_nil]) rfl hmem

/-- Effects of closed channels store nothing. -/
theorem closed (h : κ.Grows κ') {l : List (WaiterId × Effect)}
    (heff : κ'.effects = κ.effects ++ l) (hclosed : ∀ p ∈ l, ∃ c, p.2 = .closed c true) :
    κ.Delivers κ' := by
  obtain ⟨l', hlog, _, hmem⟩ := h
  have hnone : l.filter (·.2.status = .value) = [] := by
    refine List.filter_eq_nil_iff.mpr fun p hp => ?_
    obtain ⟨c, heq⟩ := hclosed p hp
    rw [heq]
    simp [Effect.status]
  rw [effects_append hlog] at heff
  rw [← List.append_cancel_left heff] at hnone
  exact .none hlog hnone (hmem.trans (Event.write_of_none hnone))

/-- What is laid out or reported beside the delivery. -/
theorem congr (h : κ.Delivers κ') (heff : κ''.effects = κ'.effects) (hmem : κ''.mem = κ'.mem) :
    κ.Delivers κ'' := by
  obtain ⟨l, hl, hstored⟩ := h
  refine ⟨l, heff.trans hl, ?_⟩
  rw [hmem]
  exact hstored

/-- A receive that was completed has its value. -/
theorem stored (h : κ.Delivers κ') {w : WaiterId} {c : ChanId} {slot : Addr} {v : Bytes}
    (hnew : (w, .received c slot v) ∈ κ'.effects) (hold : (w, .received c slot v) ∉ κ.effects) :
    v.length = (κ.chan c).elemSize ∧ Stored κ.mem κ'.mem slot v := by
  obtain ⟨l, hl, hstored⟩ := h
  rw [hl] at hnew
  have hmem : (w, Effect.received c slot v) ∈ l.filter (·.2.status = .value) :=
    List.mem_filter.mpr ⟨(List.mem_append.mp hnew).resolve_left hold, by simp [Effect.status]⟩
  rcases hstored with ⟨hnone, _⟩ | ⟨w', c', slot', v', hone, hstored⟩
  · rw [hnone] at hmem
    exact absurd hmem List.not_mem_nil
  · rw [hone, List.mem_singleton] at hmem
    cases hmem
    exact hstored

end Delivers

end Chans

/-- A send attempt delivers at most one value, to the slot of the receiver it completes. -/
theorem TrySend.delivers {o : Oracle} {s s' : Sys} {c : ChanId} {offer : WaiterId} {value : Addr}
    {r : SendResult} (h : TrySend o s c offer value s' r) : s.ch.Delivers s'.ch := by
  cases h with
  | refused h => exact .none (l := [_]) rfl (by simp [Event.effects, Effect.status]) rfl
  | @handed hopen hrun dead rest r hqueue hdead hlive s1 hwake =>
      exact .one r (Chans.handedTo_log _ _ _) (by simp [Event.effects, Effect.status])
        (Chans.length_valueAt ..) (Chans.markDone_mem _ _ _)
  | buffered hopen hrun hdead hroom =>
      exact .none (l := [_]) rfl (by simp [Event.effects, Effect.status]) rfl
  | blocked hopen hrun hdead hfull => exact .of_eq rfl rfl

/-- A receive attempt delivers at most one value, to the slot of its caller. -/
theorem TryRecv.delivers {o : Oracle} {s s' : Sys} {c : ChanId} {offer : WaiterId} {out : Addr}
    {r : RecvResult} (h : TryRecv o s c offer out s' r) (hs : (s.ch.chan c).Sized) :
    s.ch.Delivers s'.ch := by
  have hhead : ∀ {v rest}, (s.ch.chan c).buffer = v :: rest →
      v.length = (s.ch.chan c).elemSize := by
    intro v rest hbuffer
    exact hs v (by rw [hbuffer]; exact List.mem_cons_self)
  cases h with
  | taken hbuffer hskip | drained hbuffer hopen hdead =>
      exact .one offer (l := [_]) rfl (by simp [Event.effects, Effect.status]) (hhead hbuffer) rfl
  | refilled hbuffer hopen hroom hqueue hdead hlive hwake =>
      exact .one offer ((Chans.bufferedFrom_log _ _).trans (List.append_assoc _ _ _))
        (by simp [Event.effects, Effect.status]) (hhead hbuffer) (Chans.markDone_mem _ _ _)
  | direct hbuffer hqueue hdead hlive hwake =>
      exact .one offer (Chans.takenFrom_log _ _ _) (by simp [Event.effects, Effect.status])
        (Chans.length_valueAt ..) (Chans.markDone_mem _ _ _)
  | refused hbuffer hdead h =>
      exact .none (l := [_]) rfl (by simp [Event.effects, Effect.status]) rfl
  | blocked hbuffer hdead hopen hrun => exact .of_eq rfl rfl

/-- The attempt of a case delivers at most one value. -/
theorem TryCase.delivers {o : Oracle} {s s' : Sys} {offer : WaiterId} {cs : SelectCase}
    {fired : Option SelectStatus} (h : TryCase o s offer cs s' fired)
    (hs : ∀ c, (s.ch.chan c).Sized) : s.ch.Delivers s'.ch := by
  cases h with
  | untried huntried => exact .of_eq rfl rfl
  | send hchan hop h => exact h.delivers
  | recv hchan hop h => exact h.delivers (hs _)

/-- **One delivery a step.** A channel step is a write of the user's own, or it delivers at
most one value. -/
theorem ChanForm.delivers {P : List SelectCase → Prop} {s s' : Sys} (hform : ChanForm P s s')
    (hwait : WaitInv s.ch s.tasks) (hs : ∀ c, (s.ch.chan c).Sized) :
    (∃ a bs, s'.ch = s.ch.copyValue a bs) ∨ s.ch.Delivers s'.ch := by
  cases hform with
  | write a bs => exact .inl ⟨a, bs, rfl⟩
  | create elemSize capacity allocOk =>
      refine .inr ?_
      unfold croutineChannelCreate
      split <;> exact .of_eq rfl rfl
  | destroy hc =>
      refine .inr ?_
      unfold croutineChannelDestroy
      split <;> exact .of_eq rfl rfl
  | @attempt o i cs s1 fired hreg htry gone hdead e he =>
      have h1 : s.ch.Delivers s1.ch := htry.delivers (s := s.ticked) hs
      refine .inr (h1.congr ?_ rfl)
      have hlog : ((s1.ch.without gone).report e).log = s1.ch.log ++ e.toList := rfl
      rw [Chans.effects_append hlog, List.flatMap_eq_nil_iff.mpr, List.append_nil]
      exact fun x hx => Event.effects_of_returned (he x (Option.mem_toList.mp hx))
  | parkSingle hc htry hpc hframe =>
      refine .inr (.of_eq (parkOnChannel_log htry) ?_)
      unfold parkOnChannel
      rw [workerParkCurrentOnChannelLocked_ch]
      exact htry.mem_of_blocked (s := s.ticked)
  | parkSelect hP hreg hsome hdead hall hpc hframe =>
      refine .inr (.of_eq ?_ ?_)
      · rw [workerParkCurrentOnChannelLocked_ch]
        exact parkSelect_log _
      · rw [workerParkCurrentOnChannelLocked_ch]
        exact selectRegister_mem _ 0 _
  | close hc h =>
      obtain ⟨l, hl, hall⟩ := channelCloseLocked_effects h
      exact .inr (.closed (channelCloseLocked_grows h) hl fun p hp => ⟨_, hall p hp⟩)
  | shutdown h =>
      obtain ⟨l, hl, hall⟩ := shutdownAll_effects h
      have h1 := shutdownAll_grows h
      exact .inr (.closed h1 hl fun p hp => (hall p hp).imp fun c hc => hc.1)
  | returnSingle hpc hframe =>
      refine .inr (.none (l := [_]) rfl ?_ rfl)
      simp [Event.effects_of_returned (singleReturned_returnedCall _ _ _ _)]
  | @returnSelect w t call cases parked hpc hframe index status =>
      have hscrub := (Scrubbed.scrubSelectWaiters hwait.linked call cases.length).1
      exact .inr (.none (congrArg (· ++ [_]) hscrub.only.log) rfl (scrubSelectWaiters_mem ..))

end Croutine
