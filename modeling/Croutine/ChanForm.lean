import Croutine.TryPhase

/-!
# Steps on the channels, up to dead waiters

A call makes at most one attempt that has an effect, also when it is a select that tries
many cases: what the other attempts do is to pop dead waiters.  `ChanForm` lists what a
step on the channels amounts to when this is taken into account.  Blocking and
non-blocking calls and selects that return at once become one case, and a select that
parks is reduced to the registration of its waiters.
-/

namespace Croutine

/-- A call reports its result, if it has one. -/
def Chans.report (κ : Chans) (e : Option Event) : Chans :=
  { κ with log := κ.log ++ e.toList }

/-- What a step on the channels amounts to; `P` restricts the case lists of selects. -/
inductive ChanForm (P : List SelectCase → Prop) (s : Sys) : Sys → Prop
  | write (a : Addr) (bs : Bytes) : ChanForm P s { s with ch := s.ch.copyValue a bs }
  | create (elemSize capacity : Nat) (allocOk : Bool) :
      ChanForm P s { s with ch := croutineChannelCreate s.ch elemSize capacity allocOk }
  | destroy {c : ChanId} (hc : c ∈ s.ch.registry) :
      ChanForm P s { s with ch := croutineChannelDestroy s.ch c }
  /-- A call that does not park: one attempt, or none if no case of a select fired. -/
  | attempt {o : Oracle} {i : Nat} {cs : SelectCase} {s1 : Sys} {fired : Option SelectStatus}
      (hreg : ∀ c, cs.channel = some c → c ∈ s.ch.registry)
      (htry : TryCase o s.ticked ⟨s.ch.clock, i⟩ cs s1 fired)
      {gone : WaiterId → Bool} (hdead : ∀ w, gone w = true → s.ch.live w = false)
      {e : Option Event} (he : ∀ x ∈ e, x.returnedCall = some s.ch.clock) :
      ChanForm P s { s1 with ch := (s1.ch.without gone).report e }
  | parkSingle {o : Oracle} {c : ChanId} {op : Direction} {slot : Addr} {s1 : Sys} {w : WorkerId}
      {t : TaskId} (hc : c ∈ s.ch.registry)
      (htry : TryCase o s.ticked ⟨s.ch.clock, 0⟩ ⟨some c, op, slot⟩ s1 none)
      (hpc : s.wk.pc w = .running t) (hframe : (s.tasks t).frame = .user) :
      ChanForm P s (parkOnChannel s1 w t op s.ch.clock c slot)
  /-- A select whose case indices fit a `uint32_t` has passed through every case. -/
  | parkSelect {o : Oracle} {cases : List SelectCase} {w : WorkerId} {t : TaskId} (hP : P cases)
      (hreg : ∀ cs ∈ cases, ∀ c, cs.channel = some c → c ∈ s.ch.registry)
      (hsome : ∃ cs ∈ cases, cs.channel.isSome)
      {gone : WaiterId → Bool} (hdead : ∀ w, gone w = true → s.ch.live w = false)
      (hall : cases.length ≤ 2 ^ 32 → ∀ i cs, cases[i]? = some cs →
        ∃ s1, TryCase o s.ticked ⟨s.ch.clock, i⟩ cs s1 none)
      (hpc : s.wk.pc w = .running t) (hframe : (s.tasks t).frame = .user) :
      ChanForm P s (workerParkCurrentOnChannelLocked
        { s with
          ch := selectRegister t s.ch.clock 0 cases
            ((s.ch.tick.without gone).setSelect s.ch.clock {}) }
        w t (.select s.ch.clock cases))
  | close {o : Oracle} {c : ChanId} {s1 : Sys} (hc : c ∈ s.ch.registry)
      (h : channelCloseLocked o s c = .ok s1) : ChanForm P s s1
  | shutdown {o : Oracle} {θ : Thread} {s1 : Sys} {life : Lifecycle}
      (h : croutineChannelShutdownAllLocked o { s with shutdownRequested := true } = .ok s1) :
      ChanForm P s { s1 with
        wk := s1.wk.condBroadcast.owe θ, mainFinished := true, life := life }
  | returnSingle {w : WorkerId} {t : TaskId} {op : Direction} {call : CallId} {c : ChanId}
      {parked : Bool} (hpc : s.wk.pc w = .running t)
      (hframe : (s.tasks t).frame = .single op call c parked) :
      ChanForm P s { s.setTask t { s.tasks t with frame := .user } with
        ch := s.ch.record
          (singleReturned op call c (parked && (s.tasks t).channelWakeSuccess)) }
  | returnSelect {w : WorkerId} {t : TaskId} {call : CallId} {cases : List SelectCase}
      {parked : Bool} (hpc : s.wk.pc w = .running t)
      (hframe : (s.tasks t).frame = .select call cases parked) (index : Int)
      (status : Option SelectStatus) :
      ChanForm P s { s.setTask t { s.tasks t with frame := .user } with
        ch := (scrubSelectWaiters call cases.length s.ch).record
          (.selectReturned call cases index status) }

namespace ChanForm

variable {P : List SelectCase → Prop} {s s1 : Sys} {o : Oracle}

/-- An attempt after which no waiter is taken out. -/
theorem plain {i : Nat} {cs : SelectCase} {fired : Option SelectStatus}
    (hreg : ∀ c, cs.channel = some c → c ∈ s.ch.registry)
    (htry : TryCase o s.ticked ⟨s.ch.clock, i⟩ cs s1 fired)
    (e : Option Event) (he : ∀ x ∈ e, x.returnedCall = some s.ch.clock) :
    ChanForm P s { s1 with ch := s1.ch.report e } := by
  have hform := @ChanForm.attempt P s o i cs s1 fired hreg htry (fun _ => false) (by simp) e he
  rwa [Chans.without_none fun _ => rfl] at hform

/-- A call that returns without an effect. -/
theorem idle {gone : WaiterId → Bool} (hdead : ∀ w, gone w = true → s.ch.live w = false)
    {e : Event} (he : e.returnedCall = some s.ch.clock) :
    ChanForm P s { s.ticked.without gone with ch := (s.ticked.ch.without gone).record e } :=
  @ChanForm.attempt P s .calm 0 ⟨none, .send, 0⟩ s.ticked none (by simp) (.untried (.inl rfl))
    gone hdead (some e) (by simpa using he)

end ChanForm

/-- **Every step on the channels has one of these forms.** -/
theorem ChanStep.form {P : List SelectCase → Prop} {s s' : Sys} {a : Action}
    (hwait : WaitInv s.ch s.tasks)
    (hrunning : ∀ w t, s.wk.pc w = .running t → (s.tasks t).state = .runnable)
    (hstep : ChanStep P s a s') : ChanForm P s s' := by
  have hlinked : s.ticked.ch.Linked := hwait.ticked.linked
  have hone : ∀ {c : ChanId} {op : SelectOp} {v : Addr}, c ∈ s.ch.registry →
      ∀ c', (⟨some c, op, v⟩ : SelectCase).channel = some c' → c' ∈ s.ch.registry := by
    rintro c op v hc c' ⟨⟩
    exact hc
  cases hstep with
  | userWrite a bs => exact .write a bs
  | create hlock elemSize capacity allocOk => exact .create elemSize capacity allocOk
  | destroy hlock hc => exact .destroy hc
  | trySend hlock hc htry =>
      have hform := ChanForm.plain (P := P) (hone hc) (.send rfl rfl htry) none (by simp)
      unfold Chans.report at hform
      rwa [Option.toList_none, List.append_nil] at hform
  | sendReturn hlock hc htry htask =>
      exact .plain (hone hc) (.send rfl rfl htry) (some _) (by simp [Event.returnedCall])
  | @sendPark hlock o c value s1 w t hc htry hpc hframe =>
      have hcase : TryCase o s.ticked ⟨s.ch.clock, 0⟩ ⟨some c, .send, value⟩ s1
          (sendStatus .wouldBlock) := .send rfl rfl htry
      exact .parkSingle hc hcase hpc hframe
  | tryRecv hlock hc htry =>
      have hform := ChanForm.plain (P := P) (hone hc) (.recv rfl rfl htry) none (by simp)
      unfold Chans.report at hform
      rwa [Option.toList_none, List.append_nil] at hform
  | recvReturn hlock hc htry htask =>
      exact .plain (hone hc) (.recv rfl rfl htry) (some _) (by simp [Event.returnedCall])
  | @recvPark hlock o c out s1 w t hc htry hpc hframe =>
      have hcase : TryCase o s.ticked ⟨s.ch.clock, 0⟩ ⟨some c, .recv, out⟩ s1
          (recvStatus .empty) := .recv rfl rfl htry
      exact .parkSingle hc hcase hpc hframe
  | close hlock hc hclose => exact .close hc hclose
  | shutdown hlock ha hlife hclose => exact .shutdown hclose
  | selectEmpty hlock =>
      have hnull : TryCase .calm s.ticked ⟨s.ch.clock, 0⟩ ⟨none, .send, 0⟩ s.ticked none :=
        .untried (.inl rfl)
      exact .plain (by simp) hnull (some _) (by simp [Event.returnedCall])
  | selectFired hlock hP hreg htry =>
      obtain ⟨cs, s1, gone, _, hcs, hdead, hfires, rfl⟩ := selectTryCases_some hlinked htry
      exact .attempt (hreg cs (List.mem_of_getElem? hcs)) (trySelectCaseLocked_ok hfires) hdead
        (e := some _) (by simp [Event.returnedCall])
  | selectDefault hlock hP hreg htry hwhy =>
      obtain ⟨gone, hdead, rfl, _⟩ := selectTryCases_none hlinked htry
      exact ChanForm.idle (s := s) hdead rfl
  | @selectPark hlock hasDefault o choice cases s1 w t hP hreg htry hsome hpc hact =>
      have hwakes : Wakes s s1 := s.wakes_ticked.trans (selectTryCases_wakes htry)
      obtain ⟨hpc', hframe⟩ := Sys.canAct_running hact hwakes hpc
      obtain ⟨gone, hdead, rfl, hall⟩ := selectTryCases_none hlinked htry
      refine .parkSelect (o := o) hP hreg hsome hdead (fun hn i cs hcs => ?_) hpc' hframe
      have hi : i ∈ selectOrder choice cases.length :=
        (selectOrder_perm choice hn).mem_iff.mpr
          (List.mem_range.mpr (List.getElem?_eq_some_iff.mp hcs).1)
      obtain ⟨s1, hblocked⟩ := hall i hi cs hcs
      exact ⟨s1, trySelectCaseLocked_ok hblocked⟩
  | returnSingle hpc hframe hlock =>
      rw [hwait.returnFromSingle_eq (hrunning _ _ hpc) hframe]
      exact .returnSingle hpc hframe
  | @returnSelect w t call cases parked hpc hframe hlock =>
      obtain ⟨index, status, heq⟩ := WaitInv.returnFromSelect_eq s.ch call cases
        (parked && (s.tasks t).channelWakeSuccess)
      rw [heq]
      exact .returnSelect hpc hframe index status

/-- Every step of a run has one of the forms or leaves the channels alone. -/
theorem chanForm_or_unchanged {backend : Backend} {allowed : Sys → Action → Prop}
    {P : List SelectCase → Prop} {s s' : Sys} {a : Action}
    (hreach : (runtime backend).ReachVia allowed s)
    (hP : ∀ θ cases hasDefault choice o, a = .select θ cases hasDefault choice o → P cases)
    (hstep : step s a = .ok s') : ChanForm P s s' ∨ Unchanged s s' :=
  (chanStep_or_unchanged hreach hP hstep).imp_left fun hc =>
    hc.form (WaitInv.reach hreach) fun _ _ hpc => running_runnable hreach hpc

/-- The same, where nothing is asked of the selects. -/
theorem step_form {backend : Backend} {allowed : Sys → Action → Prop} {s s' : Sys} {a : Action}
    (hreach : (runtime backend).ReachVia allowed s) (hstep : step s a = .ok s') :
    ChanForm (fun _ => True) s s' ∨ Unchanged s s' :=
  chanForm_or_unchanged hreach (fun _ _ _ _ _ _ => trivial) hstep

end Croutine
