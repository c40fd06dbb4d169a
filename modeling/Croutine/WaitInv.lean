import Croutine.ChanFrame
import Croutine.WaitQueues

/-!
# Parked tasks and their waiters

A waiter lies on the stack of the task that called `croutine_channel_send`,
`croutine_channel_recv` or `croutine_select`, or in the heap array of a select.
`WaitInv` says that a linked waiter belongs to a call that has not returned, that the
queue it is linked in is the one the call asked for, that a task parked on channels has
its waiters linked, and that a linked regular waiter means a parked task.  It holds in
every state of every run, also while a task is parking and after the scheduler is gone.
-/

namespace Croutine

/-- The waiter `x` at `w` is one that the call in the frame laid out, linked where the
call asked for. -/
def Frame.Owns : Frame → WaiterId → Waiter → Prop
  | .single op call c _, w, x =>
    w = ⟨call, 0⟩ ∧ x.kind = .regular ∧ x.op = op ∧ x.channel = some c
  | .select call cases _, w, x =>
    w.call = call ∧ x.kind = .select ∧ x.state = some call ∧ x.caseIndex = w.idx % 2 ^ 32 ∧
      ∃ cs, cases[w.idx]? = some cs ∧ x.channel = cs.channel ∧ x.op = cs.op ∧
        x.valueSlot = cs.value
  | .user, _, _ | .ioWait, _, _ => False

/-- A frame owns waiters of its own call. -/
theorem Frame.Owns.call {frame : Frame} {w : WaiterId} {x : Waiter} (h : frame.Owns w x) :
    frame.call = some w.call := by
  cases frame with
  | user | ioWait => exact h.elim
  | single op call c parked => rw [h.1]; rfl
  | select call cases parked => rw [h.1]; rfl

namespace Chans

/-- The waiters of a parked call are linked, and its select is not done. -/
def Parked (κ : Chans) : Frame → Prop
  | .single _ call c true => (κ.waiter ⟨call, 0⟩).channel = some c
  | .select call cases true =>
    (κ.select call).done = false ∧ (∃ cs ∈ cases, cs.channel.isSome) ∧
      ∀ i cs, cases[i]? = some cs → (κ.waiter ⟨call, i⟩).channel = cs.channel
  | _ => False

/-- A parked frame is inside a call. -/
theorem Parked.call {κ : Chans} {frame : Frame} (h : κ.Parked frame) :
    ∃ k, frame.call = some k := by
  cases frame with
  | user | ioWait => exact h.elim
  | single op call c parked => exact ⟨call, rfl⟩
  | select call cases parked => exact ⟨call, rfl⟩

/-- Only the waiters and the select of the call matter. -/
theorem Parked.congr {κ κ' : Chans} {frame : Frame} {k : CallId} (h : κ.Parked frame)
    (hk : frame.call = some k)
    (hwaiter : ∀ w, w.call = k → (κ'.waiter w).channel = (κ.waiter w).channel)
    (hselect : κ'.select k = κ.select k) : κ'.Parked frame := by
  cases frame with
  | user | ioWait => exact h.elim
  | single op call c parked =>
      obtain rfl : call = k := Option.some.inj hk
      cases parked with
      | false => exact h.elim
      | true => exact (hwaiter ⟨call, 0⟩ rfl).trans h
  | select call cases parked =>
      obtain rfl : call = k := Option.some.inj hk
      cases parked with
      | false => exact h.elim
      | true =>
          obtain ⟨hdone, hsome, hall⟩ := h
          refine ⟨by rw [hselect]; exact hdone, hsome, fun i cs hget => ?_⟩
          exact (hwaiter ⟨call, i⟩ rfl).trans (hall i cs hget)

end Chans

structure WaitInv (κ : Chans) (tasks : TaskId → Task) : Prop where
  linked : κ.Linked
  owner : ∀ w, (κ.waiter w).channel ≠ none →
    (tasks (κ.waiter w).task).frame.Owns w (κ.waiter w)
  calls : ∀ t k, (tasks t).frame.call = some k → k < κ.clock
  unique : ∀ t u k, (tasks t).frame.call = some k → (tasks u).frame.call = some k → t = u
  parked : ∀ t, (tasks t).state = .waitingChannel → κ.Parked (tasks t).frame
  single : ∀ t op k c p, (tasks t).frame = .single op k c p →
    (κ.waiter ⟨k, 0⟩).channel ≠ none → (tasks t).state = .waitingChannel
  registered : ∀ w c, (κ.waiter w).channel = some c → c ∈ κ.registry
  created : ∀ c ∈ κ.registry, c < κ.nextChan

namespace WaitInv

variable {κ κ' : Chans} {tasks tasks' : TaskId → Task} {t : TaskId} {w : WaiterId} {k : CallId}

/-! ## What the invariant says of one waiter -/

/-- The task of a linked waiter is inside the call the waiter belongs to. -/
theorem owner_call (h : WaitInv κ tasks) (hw : (κ.waiter w).channel ≠ none) :
    (tasks (κ.waiter w).task).frame.call = some w.call :=
  (h.owner w hw).call

/-- A linked waiter of the call a task is in belongs to that task. -/
theorem owner_eq (h : WaitInv κ tasks) (hw : (κ.waiter w).channel ≠ none)
    (ht : (tasks t).frame.call = some w.call) : (κ.waiter w).task = t :=
  h.unique _ _ _ (h.owner_call hw) ht

/-- The task inside a waiter's call owns the waiter. -/
theorem owner_of_call (h : WaitInv κ tasks) (hw : (κ.waiter w).channel ≠ none)
    (ht : (tasks t).frame.call = some w.call) : (tasks t).frame.Owns w (κ.waiter w) := by
  have howner := h.owner w hw
  rwa [h.owner_eq hw ht] at howner

/-- Calls that nobody is inside of have no linked waiter. -/
theorem unlinked_of_no_call (h : WaitInv κ tasks) (hk : ∀ u, (tasks u).frame.call ≠ some w.call) :
    (κ.waiter w).channel = none := by
  by_contra hw
  exact hk _ (h.owner_call hw)

/-- No waiter of a call to come is linked. -/
theorem unlinked_of_clock (h : WaitInv κ tasks) (hw : κ.clock ≤ w.call) :
    (κ.waiter w).channel = none :=
  h.unlinked_of_no_call fun u hu => absurd (h.calls u _ hu) (Nat.not_lt.mpr hw)

/-- A waiter of a parked task is not dead. -/
theorem not_dead_of_parked (h : WaitInv κ tasks) (hstate : (tasks t).state = .waitingChannel)
    (hw : (κ.waiter w).channel ≠ none) (ht : (tasks t).frame.call = some w.call) :
    ¬κ.Dead w := by
  rintro ⟨hkind, hdone⟩
  have howns := h.owner_of_call hw ht
  have hparked := h.parked t hstate
  cases hframe : (tasks t).frame with
  | user | ioWait => rw [hframe] at howns; exact howns.elim
  | single op call c parked =>
      rw [hframe] at howns
      exact absurd (howns.2.1.symm.trans hkind) (by simp)
  | select call cases parked =>
      rw [hframe] at howns hparked
      have hd := hdone call howns.2.2.1
      cases parked with
      | false => exact hparked.elim
      | true => exact absurd (hparked.1.symm.trans hd) (by simp)

/-! ## Changes beside the waiters -/

/-- A step that leaves frames and sleepers keeps the invariant. -/
theorem keeps (h : WaitInv κ tasks) (hk : KeepsChan tasks tasks') : WaitInv κ tasks' := by
  refine ⟨h.linked, ?_, ?_, ?_, ?_, ?_, h.registered, h.created⟩
  · intro x hx
    have howns := h.owner x hx
    rw [hk.call_of_frame howns.call]
    exact howns
  · intro u j hu
    rw [hk.frame_of_call hu] at hu
    exact h.calls u j hu
  · intro u v j hu hv
    rw [hk.frame_of_call hu] at hu
    rw [hk.frame_of_call hv] at hv
    exact h.unique u v j hu hv
  · intro u hu
    have hparked := h.parked u ((hk.state u).mp hu)
    obtain ⟨j, hj⟩ := hparked.call
    rw [hk.call_of_frame hj]
    exact hparked
  · intro u op j c p hu hlink
    have heq := hk.frame_of_call (t := u) (k := j) (by rw [hu]; rfl)
    exact (hk.state u).mpr (h.single u op j c p (heq ▸ hu) hlink)

/-- Queues and waiters are as before, the registry keeps every channel with a waiter. -/
theorem congr (h : WaitInv κ tasks) (hqueue : ∀ c op, κ'.queue c op = κ.queue c op)
    (hwaiter : κ'.waiter = κ.waiter) (hselect : κ'.select = κ.select)
    (hclock : κ.clock ≤ κ'.clock)
    (hregistry : ∀ w c, (κ.waiter w).channel = some c → c ∈ κ.registry → c ∈ κ'.registry)
    (hcreated : ∀ c ∈ κ'.registry, c < κ'.nextChan) : WaitInv κ' tasks := by
  refine ⟨h.linked.congr hqueue hwaiter, ?_, ?_, h.unique, ?_, ?_, ?_, hcreated⟩
  · rw [hwaiter]; exact h.owner
  · exact fun u j hu => Nat.lt_of_lt_of_le (h.calls u j hu) hclock
  · intro u hu
    obtain ⟨j, hj⟩ := (h.parked u hu).call
    exact (h.parked u hu).congr hj (fun x _ => by rw [hwaiter]) (by rw [hselect])
  · rw [hwaiter]; exact h.single
  · intro x c hx
    rw [hwaiter] at hx
    exact hregistry x c hx (h.registered x c hx)

/-- The history plays no part. -/
theorem record (h : WaitInv κ tasks) (e : Event) : WaitInv (κ.record e) tasks :=
  h.congr (fun _ _ => rfl) rfl rfl (Nat.le_refl _) (fun _ _ _ hc => hc) h.created

/-- A change that touches no waiter keeps the invariant. -/
theorem same (h : WaitInv κ tasks) (hs : SameWaits κ κ') : WaitInv κ' tasks := by
  refine h.congr hs.queue hs.waiter hs.select hs.clock ?_ ?_
  · intro x c _ hc
    rw [hs.registry]; exact hc
  · rw [hs.registry, hs.nextChan]; exact h.created

/-! ## Waiters leave their queues -/

/-- Waiters are unlinked.  A task that still waits afterwards keeps all of its waiters
and its select, and a regular waiter that stays linked keeps its task waiting. -/
theorem shrink (h : WaitInv κ tasks) (hlinked : κ'.Linked)
    (hwaiter : ∀ x, κ'.waiter x = κ.waiter x ∨ κ'.waiter x = { κ.waiter x with channel := none })
    (hregistry : κ'.registry = κ.registry) (hnext : κ'.nextChan = κ.nextChan)
    (hclock : κ'.clock = κ.clock) (hframe : ∀ u, (tasks' u).frame = (tasks u).frame)
    (hwaits : ∀ u j, (tasks' u).state = .waitingChannel → (tasks u).frame.call = some j →
      (tasks u).state = .waitingChannel ∧ κ'.select j = κ.select j ∧
        ∀ x, x.call = j → κ'.waiter x = κ.waiter x)
    (hrests : ∀ u, (tasks' u).state = .waitingChannel → (tasks u).state = .waitingChannel)
    (hstays : ∀ u op j c p, (tasks u).frame = .single op j c p →
      (κ'.waiter ⟨j, 0⟩).channel ≠ none → (tasks u).state = .waitingChannel →
      (tasks' u).state = .waitingChannel) : WaitInv κ' tasks' := by
  have hkept : ∀ x, (κ'.waiter x).channel ≠ none → κ'.waiter x = κ.waiter x := by
    intro x hx
    rcases hwaiter x with heq | heq
    · exact heq
    · rw [heq] at hx
      exact absurd rfl hx
  refine ⟨hlinked, ?_, ?_, ?_, ?_, ?_, ?_, ?_⟩
  · intro x hx
    have heq := hkept x hx
    rw [heq] at hx ⊢
    rw [hframe]
    exact h.owner x hx
  · intro u j hu
    rw [hframe] at hu
    rw [hclock]
    exact h.calls u j hu
  · intro u v j hu hv
    rw [hframe] at hu hv
    exact h.unique u v j hu hv
  · intro u hu
    have hparked := h.parked u (hrests u hu)
    obtain ⟨j, hj⟩ := hparked.call
    obtain ⟨_, hselect, hall⟩ := hwaits u j hu hj
    rw [hframe]
    exact hparked.congr hj (fun x hx => by rw [hall x hx]) hselect
  · intro u op j c p hu hlink
    rw [hframe] at hu
    have hold : (κ.waiter ⟨j, 0⟩).channel ≠ none := by
      rw [← hkept _ hlink]; exact hlink
    exact hstays u op j c p hu hlink (h.single u op j c p hu hold)
  · intro x c hx
    have heq := hkept x (by rw [hx]; simp)
    rw [heq] at hx
    rw [hregistry]
    exact h.registered x c hx
  · rw [hregistry, hnext]; exact h.created

/-- Dropping a dead waiter from the head of its queue keeps the invariant. -/
theorem dead {c : ChanId} {op : Direction} {rest : List WaiterId} (h : WaitInv κ tasks)
    (hqueue : κ.queue c op = w :: rest) (hdead : κ.Dead w) :
    WaitInv (κ.dropHeads c op [w] rest) tasks := by
  have hlink : (κ.waiter w).channel ≠ none := by
    have hmem : w ∈ κ.queue c op := by rw [hqueue]; exact List.mem_cons_self
    rw [(h.linked.mem.mp hmem).1]
    simp
  have hwaiter : ∀ x, x ≠ w → (κ.dropHeads c op [w] rest).waiter x = κ.waiter x := by
    intro x hx
    rw [Chans.waiter_dropHeads, if_neg (by simpa using hx)]
  refine h.shrink (h.linked.dropHead hqueue) ?_ rfl rfl rfl (fun _ => rfl) ?_ (fun _ => id)
    (fun _ _ _ _ _ _ _ => id)
  · intro x
    rw [Chans.waiter_dropHeads]
    split
    · exact .inr rfl
    · exact .inl rfl
  · intro u j hu hj
    refine ⟨hu, rfl, fun x hx => hwaiter x ?_⟩
    rintro rfl
    exact h.not_dead_of_parked hu hlink (hx ▸ hj) hdead

end WaitInv

namespace Chans

variable {κ : Chans} {c : ChanId} {op : Direction} {w : WaiterId} {rest : List WaiterId}
  {success : Bool} {status : SelectStatus}

/-- Completing a waiter writes no select but its own. -/
theorem select_popWoken_of_ne {k : CallId}
    (h : (κ.waiter w).kind = .select → (κ.waiter w).state ≠ some k) :
    (κ.popWoken c op w rest success status).select k = κ.select k := by
  show ((κ.dropHeads c op [w] rest).markDone w status).select k = κ.select k
  unfold markDone
  rw [dropHeads_kind, dropHeads_state]
  split
  · next j hkind hj =>
    have hne : k ≠ j := by
      rintro rfl
      exact h hkind hj
    simp [setSelect, hne]
  · rfl

/-- Completing a select waiter stores its case and the status in the select. -/
theorem select_popWoken_self {k : CallId} (hkind : (κ.waiter w).kind = .select)
    (hstate : (κ.waiter w).state = some k) :
    (κ.popWoken c op w rest success status).select k =
      ⟨true, toInt32 (κ.waiter w).caseIndex, status⟩ := by
  show ((κ.dropHeads c op [w] rest).markDone w status).select k = _
  unfold markDone
  rw [dropHeads_kind, dropHeads_state, hkind, hstate]
  simp [setSelect]

/-- The waiters after one was popped and woken. -/
theorem waiter_popWoken (x : WaiterId) : (κ.popWoken c op w rest success status).waiter x =
    if x = w then { κ.waiter x with channel := none } else κ.waiter x := by
  simp [popWoken, record, waiter_dropHeads]

/-- The queues after one waiter was popped and woken. -/
theorem queue_popWoken (c' : ChanId) (op' : Direction) :
    (κ.popWoken c op w rest success status).queue c' op' =
      if c' = c ∧ op' = op then rest else κ.queue c' op' := by
  simp [popWoken]

/-- Popping a woken waiter keeps queues and links in agreement. -/
theorem Linked.popWoken (h : κ.Linked) (hqueue : κ.queue c op = w :: rest) :
    (κ.popWoken c op w rest success status).Linked := by
  refine (h.dropHead hqueue).congr (fun c' op' => ?_) ?_
  · rw [queue_popWoken, queue_dropHeads]
  · funext x
    rw [waiter_popWoken, waiter_dropHeads]
    simp

end Chans

/-- What a wake of `t` changes of the tasks, as far as channels are concerned. -/
structure WokeTask (t : TaskId) (tasks tasks' : TaskId → Task) : Prop where
  other : ∀ u, u ≠ t → tasks' u = tasks u
  frame : ∀ u, (tasks' u).frame = (tasks u).frame
  waited : (tasks t).state = .waitingChannel
  awake : (tasks' t).state = .runnable

/-- A wake changes its task alone. -/
theorem workerWakeTaskLocked_task {o : Oracle} {s s' : Sys} {t : TaskId} {success : Bool}
    (h : workerWakeTaskLocked o s t success = some s') : WokeTask t s.tasks s'.tasks := by
  obtain ⟨hstate, cap, _, rfl⟩ := workerWakeTaskLocked_some h
  refine ⟨fun u hu => Function.update_of_ne hu _ _, fun u => ?_, hstate, ?_⟩
  · by_cases hu : u = t
    · subst hu; simp [Task.requeued]
    · simp [hu]
  · simp [Task.requeued]

/-- Who still sleeps slept before, and was not the one woken. -/
theorem WokeTask.still {t u : TaskId} {tasks tasks' : TaskId → Task} (h : WokeTask t tasks tasks')
    (hu : (tasks' u).state = .waitingChannel) :
    u ≠ t ∧ (tasks u).state = .waitingChannel := by
  have hne : u ≠ t := by
    rintro rfl
    rw [h.awake] at hu
    exact absurd hu (by simp)
  rw [h.other u hne] at hu
  exact ⟨hne, hu⟩

namespace WaitInv

variable {κ : Chans} {tasks tasks' : TaskId → Task} {t : TaskId} {w : WaiterId} {c : ChanId}
  {op : Direction} {rest : List WaiterId} {success : Bool} {status : SelectStatus}

/-- The head of a queue is linked. -/
theorem linked_head (h : WaitInv κ tasks) (hqueue : κ.queue c op = w :: rest) :
    (κ.waiter w).channel ≠ none := by
  have hmem : w ∈ κ.queue c op := by rw [hqueue]; exact List.mem_cons_self
  rw [(h.linked.mem.mp hmem).1]
  simp

/-- A linked select waiter points to the select of its own call. -/
theorem state_eq (h : WaitInv κ tasks) (hw : (κ.waiter w).channel ≠ none)
    (hkind : (κ.waiter w).kind = .select) : (κ.waiter w).state = some w.call := by
  have howns := h.owner w hw
  cases hf : (tasks (κ.waiter w).task).frame with
  | user | ioWait => rw [hf] at howns; exact howns.elim
  | single op call c parked =>
      rw [hf] at howns
      exact absurd (howns.2.1.symm.trans hkind) (by simp)
  | select call cases parked =>
      rw [hf] at howns
      rw [howns.1]
      exact howns.2.2.1

/-- **A wake.** Popping the head of a queue and waking its task keeps the invariant. -/
theorem wake (h : WaitInv κ tasks) (hqueue : κ.queue c op = w :: rest)
    (hwoke : WokeTask (κ.waiter w).task tasks tasks') :
    WaitInv (κ.popWoken c op w rest success status) tasks' := by
  have hlink := h.linked_head hqueue
  obtain ⟨hregistry, hnext, hclock⟩ := @Chans.popWoken_frame κ c op w rest success status
  refine h.shrink (h.linked.popWoken hqueue) ?_ hregistry hnext hclock hwoke.frame ?_
    (fun u hu => (hwoke.still hu).2) ?_
  · intro x
    rw [Chans.waiter_popWoken]
    split
    · exact .inr rfl
    · exact .inl rfl
  · intro u j hu hj
    obtain ⟨hne, hwaits⟩ := hwoke.still hu
    have hcall : w.call ≠ j := by
      rintro rfl
      exact hne (h.owner_eq hlink hj).symm
    refine ⟨hwaits, Chans.select_popWoken_of_ne fun hkind habs => ?_, fun x hx => ?_⟩
    · rw [h.state_eq hlink hkind] at habs
      exact hcall (Option.some.inj habs)
    · rw [Chans.waiter_popWoken, if_neg]
      rintro rfl
      exact hcall hx
  · intro u op' j c' p hu hlink' hwaits
    have hne : u ≠ (κ.waiter w).task := by
      rintro rfl
      have howns := h.owner w hlink
      rw [hu] at howns
      rw [Chans.waiter_popWoken, if_pos howns.1.symm] at hlink'
      exact hlink' rfl
    rw [hwoke.other u hne]
    exact hwaits

/-- Every move of waiters keeps the invariant. -/
theorem move {s s' : Sys} (h : WaitInv s.ch s.tasks) (hmove : WaitMove s s') :
    WaitInv s'.ch s'.tasks := by
  cases hmove with
  | quiet hsame => exact h.same hsame
  | dead hqueue hdead => exact h.dead hqueue hdead
  | wake hqueue hlive hwake =>
      have hwoke := workerWakeTaskLocked_task hwake
      exact h.wake hqueue hwoke

/-- Moves of waiters keep the invariant. -/
theorem moves {s s' : Sys} (h : WaitInv s.ch s.tasks) (hmoves : WaitMoves s s') :
    WaitInv s'.ch s'.tasks :=
  hmoves.invariant (I := fun x => WaitInv x.ch x.tasks) (fun _ _ hx hm => hx.move hm) h

/-! ## Entering and leaving a channel call -/

/-- A task enters the call `k`, whose waiters are laid out as its frame says. -/
theorem enter {κ' : Chans} {τ : Task} {k : CallId} (h : WaitInv κ tasks) (hlinked : κ'.Linked)
    (honly : κ'.clock = κ.clock ∧ κ'.registry = κ.registry ∧ κ'.nextChan = κ.nextChan)
    (hk : k < κ.clock) (hfresh : ∀ u, (tasks u).frame.call ≠ some k)
    (ht : (tasks t).frame.call = none) (hcall : τ.frame.call = some k)
    (hother : ∀ x, x.call ≠ k → κ'.waiter x = κ.waiter x)
    (hselect : ∀ j, j ≠ k → κ'.select j = κ.select j)
    (hnew : ∀ x c, x.call = k → (κ'.waiter x).channel = some c →
      (κ'.waiter x).task = t ∧ τ.frame.Owns x (κ'.waiter x) ∧ c ∈ κ.registry)
    (hparked : τ.state = .waitingChannel → κ'.Parked τ.frame)
    (hsingle : ∀ op c p, τ.frame = .single op k c p → τ.state = .waitingChannel) :
    WaitInv κ' (Function.update tasks t τ) := by
  obtain ⟨hclock, hregistry, hnext⟩ := honly
  have hframe : ∀ u j, (Function.update tasks t τ u).frame.call = some j →
      (u = t ∧ j = k) ∨ (u ≠ t ∧ j ≠ k ∧ (tasks u).frame.call = some j) := by
    intro u j hu
    by_cases hut : u = t
    · subst hut
      rw [Function.update_self, hcall] at hu
      exact .inl ⟨rfl, (Option.some.inj hu).symm⟩
    · rw [Function.update_of_ne hut] at hu
      refine .inr ⟨hut, ?_, hu⟩
      rintro rfl
      exact hfresh u hu
  refine ⟨hlinked, ?_, ?_, ?_, ?_, ?_, ?_, ?_⟩
  · intro x hx
    by_cases hxk : x.call = k
    · obtain ⟨c, hc⟩ := Option.ne_none_iff_exists'.mp hx
      obtain ⟨htask, howns, _⟩ := hnew x c hxk hc
      rw [htask, Function.update_self]
      exact howns
    · rw [hother x hxk] at hx ⊢
      have howns := h.owner x hx
      have hne : (κ.waiter x).task ≠ t := by
        intro heq
        rw [← heq, howns.call] at ht
        exact absurd ht (by simp)
      rw [Function.update_of_ne hne]
      exact howns
  · intro u j hu
    rw [hclock]
    rcases hframe u j hu with ⟨_, rfl⟩ | ⟨_, _, hold⟩
    · exact hk
    · exact h.calls u j hold
  · intro u v j hu hv
    rcases hframe u j hu with ⟨hut, hj⟩ | ⟨_, hj, hold⟩ <;>
      rcases hframe v j hv with ⟨hvt, hj'⟩ | ⟨_, hj', hold'⟩
    · exact hut.trans hvt.symm
    · exact absurd hj hj'
    · exact absurd hj' hj
    · exact h.unique u v j hold hold'
  · intro u hu
    by_cases hut : u = t
    · subst hut
      rw [Function.update_self] at hu ⊢
      exact hparked hu
    · rw [Function.update_of_ne hut] at hu ⊢
      obtain ⟨j, hj⟩ := (h.parked u hu).call
      have hjk : j ≠ k := by
        rintro rfl
        exact hfresh u hj
      refine (h.parked u hu).congr hj (fun x hx => ?_) (hselect j hjk)
      rw [hother x (by rw [hx]; exact hjk)]
  · intro u op j c p hu hlink
    by_cases hut : u = t
    · subst hut
      rw [Function.update_self] at hu ⊢
      have hj : j = k := by
        rw [hu] at hcall
        exact Option.some.inj hcall
      subst hj
      exact hsingle op c p hu
    · rw [Function.update_of_ne hut] at hu ⊢
      have hjk : j ≠ k := by
        rintro rfl
        exact hfresh u (by rw [hu]; rfl)
      rw [hother ⟨j, 0⟩ hjk] at hlink
      exact h.single u op j c p hu hlink
  · intro x c hx
    rw [hregistry]
    by_cases hxk : x.call = k
    · exact (hnew x c hxk hx).2.2
    · rw [hother x hxk] at hx
      exact h.registered x c hx
  · rw [hregistry, hnext]; exact h.created

/-- Who is inside a call after `t` has left its own was inside before. -/
theorem call_of_left {τ : Task} (tasks : TaskId → Task) (t u : TaskId) (j : CallId)
    (hτ : τ.frame.call = none) (hu : (Function.update tasks t τ u).frame.call = some j) :
    u ≠ t ∧ (tasks u).frame.call = some j := by
  by_cases hut : u = t
  · subst hut
    rw [Function.update_self, hτ] at hu
    exact absurd hu (by simp)
  · rw [Function.update_of_ne hut] at hu
    exact ⟨hut, hu⟩

/-- A task returns from its call, none of whose waiters is linked. -/
theorem leave {τ : Task} (h : WaitInv κ tasks) (hτ : τ.frame.call = none)
    (hstate : τ.state ≠ .waitingChannel)
    (hnone : ∀ x, (tasks t).frame.call = some x.call → (κ.waiter x).channel = none) :
    WaitInv κ (Function.update tasks t τ) := by
  have hframe := fun u j => call_of_left tasks t u j hτ
  refine ⟨h.linked, ?_, ?_, ?_, ?_, ?_, h.registered, h.created⟩
  · intro x hx
    have howns := h.owner x hx
    have hne : (κ.waiter x).task ≠ t := by
      intro heq
      refine hx (hnone x ?_)
      rw [← heq]
      exact howns.call
    rw [Function.update_of_ne hne]
    exact howns
  · exact fun u j hu => h.calls u j (hframe u j hu).2
  · exact fun u v j hu hv => h.unique u v j (hframe u j hu).2 (hframe v j hv).2
  · intro u hu
    have hut : u ≠ t := by
      rintro rfl
      rw [Function.update_self] at hu
      exact hstate hu
    rw [Function.update_of_ne hut] at hu ⊢
    exact h.parked u hu
  · intro u op j c p hu hlink
    have hut := (hframe u j (by rw [hu]; rfl)).1
    rw [Function.update_of_ne hut] at hu ⊢
    exact h.single u op j c p hu hlink

/-- The single waiter of a blocking send or receive is linked. -/
theorem parkSingle {x : Waiter} {τ : Task} {k : CallId} {op : Direction} (h : WaitInv κ tasks)
    (hk : k < κ.clock) (hfresh : ∀ u, (tasks u).frame.call ≠ some k) (hc : c ∈ κ.registry)
    (ht : (tasks t).frame.call = none) (hkind : x.kind = .regular) (hop : x.op = op)
    (htask : x.task = t) (hstate : τ.state = .waitingChannel)
    (hframe : τ.frame = .single op k c true) :
    WaitInv (κ.park c ⟨k, 0⟩ x) (Function.update tasks t τ) := by
  have hfree : (κ.waiter ⟨k, 0⟩).channel = none := h.unlinked_of_no_call hfresh
  have honly := Chans.OnlyQueues.park κ c ⟨k, 0⟩ x
  have hself : (κ.park c ⟨k, 0⟩ x).waiter ⟨k, 0⟩ = { x with channel := some c } := by
    rw [Chans.waiter_park, Function.update_self]
  refine h.enter (h.linked.park hfree x) ⟨honly.clock, honly.registry, honly.nextChan⟩ hk hfresh
    ht (by rw [hframe]; rfl) ?_ (fun j _ => by rw [honly.select]) ?_ ?_ ?_
  · intro y hy
    rw [Chans.waiter_park, Function.update_of_ne]
    rintro rfl
    exact hy rfl
  · intro y c' hy hlink
    have hyk : y = ⟨k, 0⟩ := by
      by_contra hne
      rw [Chans.waiter_park, Function.update_of_ne hne] at hlink
      rw [h.unlinked_of_no_call (w := y) (by rw [hy]; exact hfresh)] at hlink
      exact absurd hlink (by simp)
    subst hyk
    rw [hself] at hlink ⊢
    cases hlink
    refine ⟨htask, ?_, hc⟩
    rw [hframe]
    exact ⟨rfl, hkind, hop, rfl⟩
  · intro _
    rw [hframe]
    show ((κ.park c ⟨k, 0⟩ x).waiter ⟨k, 0⟩).channel = some c
    rw [hself]
  · exact fun _ _ _ _ => hstate

/-- One waiter per case of a select is laid out, and those with a channel are linked. -/
theorem parkSelect {τ : Task} {k : CallId} {cases : List SelectCase}
    (h : WaitInv κ tasks) (parked : Bool) (hk : k < κ.clock)
    (hfresh : ∀ u, (tasks u).frame.call ≠ some k)
    (hreg : ∀ cs ∈ cases, ∀ c, cs.channel = some c → c ∈ κ.registry)
    (hsome : ∃ cs ∈ cases, cs.channel.isSome) (ht : (tasks t).frame.call = none)
    (hstate : τ.state = .waitingChannel → parked = true)
    (hframe : τ.frame = .select k cases parked) :
    WaitInv (selectRegister t k 0 cases (κ.setSelect k {})) (Function.update tasks t τ) := by
  have hfree : ∀ j, (κ.waiter ⟨k, j⟩).channel = none :=
    fun j => h.unlinked_of_no_call hfresh
  have honly := selectRegister_only (t := t) (k := k) cases 0 (κ.setSelect k {})
  have hset : (κ.setSelect k {}).Linked := h.linked.congr (fun _ _ => rfl) rfl
  have hwaiter : ∀ i cs, cases[i]? = some cs →
      (selectRegister t k 0 cases (κ.setSelect k {})).waiter ⟨k, i⟩ = caseWaiter t k i cs := by
    intro i cs hget
    have hreg := selectRegister_waiter_case (t := t) (k := k) cases 0 (κ.setSelect k {}) hget
    rwa [Nat.zero_add] at hreg
  refine h.enter (hset.selectRegister cases 0 fun j _ => hfree j)
    ⟨honly.clock, honly.registry, honly.nextChan⟩ hk hfresh ht (by rw [hframe]; rfl) ?_ ?_ ?_ ?_ ?_
  · exact fun y hy => selectRegister_waiter_other hy cases 0 _
  · intro j hj
    rw [honly.select]
    simp [Chans.setSelect, hj]
  · intro y c' hy hlink
    have hyeq : (⟨k, y.idx⟩ : WaiterId) = y := by rw [← hy]
    have hget : ∃ cs, cases[y.idx]? = some cs := by
      rcases Nat.lt_or_ge y.idx cases.length with hlt | hge
      · exact ⟨cases[y.idx], List.getElem?_eq_getElem hlt⟩
      · rw [← hyeq, selectRegister_waiter_beyond cases 0 _ (by omega)] at hlink
        exact absurd ((hfree y.idx).symm.trans hlink) (by simp)
    obtain ⟨cs, hget⟩ := hget
    have hyw := hwaiter y.idx cs hget
    rw [hyeq] at hyw
    rw [hyw] at hlink ⊢
    refine ⟨rfl, ?_, hreg cs (List.mem_of_getElem? hget) c' hlink⟩
    rw [hframe]
    exact ⟨hy, rfl, rfl, rfl, cs, hget, rfl, rfl, rfl⟩
  · intro hwait
    rw [hframe, hstate hwait]
    refine ⟨?_, hsome, fun i cs hget => ?_⟩
    · rw [honly.select]
      simp [Chans.setSelect]
    · rw [hwaiter i cs hget]; rfl
  · intro op c p habs
    rw [hframe] at habs
    exact absurd habs (by simp)

end WaitInv

/-! ## Steps on the channels -/

/-- Parking writes no channel. -/
theorem workerParkCurrentOnChannelLocked_ch (s : Sys) (w : WorkerId) (t : TaskId)
    (frame : Bool → Frame) : (workerParkCurrentOnChannelLocked s w t frame).ch = s.ch := by
  unfold workerParkCurrentOnChannelLocked
  split <;> rfl

/-- Parking does not request a shutdown. -/
theorem workerParkCurrentOnChannelLocked_shutdown (s : Sys) (w : WorkerId) (t : TaskId)
    (frame : Bool → Frame) : (workerParkCurrentOnChannelLocked s w t frame).shutdownRequested =
      s.shutdownRequested := by
  unfold workerParkCurrentOnChannelLocked
  split <;> rfl

/-- Parking puts the call's frame on the task. -/
theorem workerParkCurrentOnChannelLocked_frame (s : Sys) (w : WorkerId) (t : TaskId)
    (frame : Bool → Frame) :
    ∃ p, ((workerParkCurrentOnChannelLocked s w t frame).tasks t).frame = frame p := by
  unfold workerParkCurrentOnChannelLocked
  split
  · exact ⟨false, by simp [Sys.setTask]⟩
  · exact ⟨true, by simp [Sys.setTask, Sys.mapWk]⟩

/-- Parking writes no other task. -/
theorem workerParkCurrentOnChannelLocked_other (s : Sys) (w : WorkerId) (t : TaskId)
    (frame : Bool → Frame) {u : TaskId} (hu : u ≠ t) :
    (workerParkCurrentOnChannelLocked s w t frame).tasks u = s.tasks u := by
  unfold workerParkCurrentOnChannelLocked
  split <;> simp [Sys.setTask, Sys.mapWk, hu]

/-- What parking on one channel does when no shutdown was requested. -/
theorem parkOnChannel_eq {s : Sys} {w : WorkerId} {t : TaskId} {op : Direction} {k : CallId}
    {c : ChanId} {slot : Addr} (hrun : s.shutdownRequested = false) :
    (parkOnChannel s w t op k c slot).ch = s.ch.park c ⟨k, 0⟩
        { kind := .regular, op := op, task := t, valueSlot := slot } ∧
      (parkOnChannel s w t op k c slot).tasks = Function.update s.tasks t
        { s.tasks t with
          state := .waitingChannel, channelWakeSuccess := false,
          frame := .single op k c true } := by
  have hrun' : ¬(s.mapCh fun κ => κ.park c ⟨k, 0⟩
      { kind := .regular, op := op, task := t, valueSlot := slot }).shutdownRequested = true := by
    show ¬s.shutdownRequested = true
    rw [hrun]
    simp
  unfold parkOnChannel workerParkCurrentOnChannelLocked
  dsimp only
  rw [if_neg hrun']
  exact ⟨rfl, rfl⟩

/-- What a send or receive that parked reports. -/
def singleReturned (op : Direction) (call : CallId) (c : ChanId) (success : Bool) : Event :=
  match op with
  | .send => .sendReturned call c (if success then .ok else .closed)
  | .recv => .recvReturned call c (if success then .value else .closed)

/-- The report of a send or a receive names its call. -/
theorem singleReturned_returnedCall (op : Direction) (call : CallId) (c : ChanId)
    (success : Bool) : (singleReturned op call c success).returnedCall = some call := by
  cases op <;> rfl

/-- A send that would block saw no shutdown. -/
theorem TrySend.blocked_running {o : Oracle} {s s' : Sys} {c : ChanId} {offer : WaiterId}
    {value : Addr} (h : TrySend o s c offer value s' .wouldBlock) :
    s'.shutdownRequested = false := by
  cases h with
  | blocked hopen hrun hdead hfull => exact hrun

/-- A receive that would block saw no shutdown. -/
theorem TryRecv.blocked_running {o : Oracle} {s s' : Sys} {c : ChanId} {offer : WaiterId}
    {out : Addr} (h : TryRecv o s c offer out s' .empty) : s'.shutdownRequested = false := by
  cases h with
  | blocked hbuffer hdead hopen hrun => exact hrun

namespace WaitInv

variable {s s' : Sys} {t : TaskId} {w : WorkerId} {k : CallId}

theorem ticked (h : WaitInv s.ch s.tasks) : WaitInv s.ticked.ch s.ticked.tasks :=
  h.same (.tick _)

/-- After an attempt that began with a tick, the call number is still unused. -/
theorem fresh {s1 : Sys} (h : WaitInv s.ch s.tasks) (hmoves : WaitMoves s.ticked s1) :
    s.ch.clock < s1.ch.clock ∧ ∀ u, (s1.tasks u).frame.call ≠ some s.ch.clock := by
  obtain ⟨_, _, hclock, hframe⟩ := hmoves.keeps
  refine ⟨hclock, fun u hu => ?_⟩
  rw [hframe u] at hu
  exact Nat.lt_irrefl _ (h.calls u _ hu)

/-- Parking a send or a receive on a registered channel keeps the invariant. -/
theorem parkOn {s1 : Sys} {op : Direction} {c : ChanId} {slot : Addr} (h : WaitInv s.ch s.tasks)
    (hmoves : WaitMoves s.ticked s1) (hrun : s1.shutdownRequested = false)
    (hc : c ∈ s.ch.registry) (hframe : (s.tasks t).frame = .user) :
    WaitInv (parkOnChannel s1 w t op s.ch.clock c slot).ch
      (parkOnChannel s1 w t op s.ch.clock c slot).tasks := by
  obtain ⟨hch, htasks⟩ := @parkOnChannel_eq s1 w t op s.ch.clock c slot hrun
  obtain ⟨hclock, hfresh⟩ := h.fresh hmoves
  obtain ⟨hregistry, _, _, hframes⟩ := hmoves.keeps
  rw [hch, htasks]
  refine (h.ticked.moves hmoves).parkSingle hclock hfresh ?_ ?_ rfl rfl rfl rfl rfl
  · rw [hregistry]; exact hc
  · rw [hframes t]
    show (s.tasks t).frame.call = none
    rw [hframe]; rfl

/-- Creating a channel keeps the invariant. -/
theorem create (h : WaitInv s.ch s.tasks) (elemSize capacity : Nat) (allocOk : Bool) :
    WaitInv (croutineChannelCreate s.ch elemSize capacity allocOk) s.tasks := by
  unfold croutineChannelCreate
  split
  · exact h
  · have hempty : ∀ op, s.ch.queue s.ch.nextChan op = [] := by
      intro op
      rw [List.eq_nil_iff_forall_not_mem]
      intro x hx
      have hreg := h.registered x _ (h.linked.mem.mp hx).1
      exact Nat.lt_irrefl _ (h.created _ hreg)
    refine h.congr (fun c op => ?_) rfl rfl (Nat.le_refl _) ?_ ?_
    · show (s.ch.setChan s.ch.nextChan _).queue c op = _
      rw [Chans.queue_setChan]
      split
      · next heq => rw [heq, hempty op]; cases op <;> rfl
      · rfl
    · exact fun _ _ _ hc => List.mem_cons_of_mem _ hc
    · intro c hc
      rcases List.mem_cons.mp hc with rfl | hc
      · exact Nat.lt_succ_self _
      · exact Nat.lt_succ_of_lt (h.created c hc)

/-- Destroying a channel keeps the invariant. -/
theorem destroy (h : WaitInv s.ch s.tasks) (c : ChanId) :
    WaitInv (croutineChannelDestroy s.ch c) s.tasks := by
  unfold croutineChannelDestroy
  split
  · next hidle =>
    simp only [Bool.and_eq_true, List.isEmpty_iff] at hidle
    refine h.congr (fun _ _ => rfl) rfl rfl (Nat.le_refl _) ?_ ?_
    · intro x c' hx hc'
      refine (List.mem_erase_of_ne ?_).mpr hc'
      rintro rfl
      have hmem : x ∈ s.ch.queue c' (s.ch.waiter x).op.direction := h.linked.mem.mpr ⟨hx, rfl⟩
      cases hop : (s.ch.waiter x).op.direction with
      | send => rw [hop, hidle.1.2] at hmem; exact absurd hmem (by simp)
      | recv => rw [hop, hidle.2] at hmem; exact absurd hmem (by simp)
    · exact fun c' hc' => h.created c' (List.mem_of_mem_erase hc')
  · exact h

/-- A task that runs returns from a blocking send or receive: its waiter was popped by
whoever woke it, so there is nothing to unlink. -/
theorem returnSingle_unlinked {op : Direction} {c : ChanId} {parked : Bool}
    (h : WaitInv s.ch s.tasks) (hstate : (s.tasks t).state = .runnable)
    (hframe : (s.tasks t).frame = .single op k c parked) :
    ∀ x, (s.tasks t).frame.call = some x.call → (s.ch.waiter x).channel = none := by
  intro x hx
  by_contra hlink
  have howns := h.owner_of_call hlink hx
  rw [hframe] at howns
  rw [howns.1] at hlink
  have hwait := h.single t op k c parked hframe hlink
  rw [hstate] at hwait
  exact absurd hwait (by simp)

/-- Nothing but the result of the call is recorded. -/
theorem returnFromSingle_eq {op : Direction} {c : ChanId} {parked success : Bool}
    (h : WaitInv s.ch s.tasks) (hstate : (s.tasks t).state = .runnable)
    (hframe : (s.tasks t).frame = .single op k c parked) :
    returnFromSingle s.ch op k c success = s.ch.record (singleReturned op k c success) := by
  have hnone := h.returnSingle_unlinked hstate hframe ⟨k, 0⟩ (by rw [hframe]; rfl)
  unfold returnFromSingle
  rw [hnone]
  cases op <;> simp [singleReturned]

/-- The scrub of a select leaves none of its waiters linked. -/
theorem returnSelect_unlinked {cases : List SelectCase} {parked : Bool}
    (h : WaitInv s.ch s.tasks) (hstate : (s.tasks t).state = .runnable)
    (hframe : (s.tasks t).frame = .select k cases parked) :
    WaitInv (scrubSelectWaiters k cases.length s.ch) s.tasks ∧
      ∀ x, (s.tasks t).frame.call = some x.call →
        ((scrubSelectWaiters k cases.length s.ch).waiter x).channel = none := by
  obtain ⟨hscrub, hnone⟩ := Scrubbed.scrubSelectWaiters h.linked k cases.length
  have hinv : WaitInv (scrubSelectWaiters k cases.length s.ch) s.tasks := by
    refine h.shrink hscrub.linked ?_ hscrub.only.registry hscrub.only.nextChan hscrub.only.clock
      (fun _ => rfl) ?_ (fun _ => id) (fun _ _ _ _ _ _ _ => id)
    · intro x
      rcases hscrub.waiter x with heq | ⟨_, heq⟩
      · exact .inl heq
      · exact .inr heq
    · intro u j hu hj
      have hjk : j ≠ k := by
        rintro rfl
        have hut : u = t := h.unique u t j hj (by rw [hframe]; rfl)
        rw [hut, hstate] at hu
        exact absurd hu (by simp)
      refine ⟨hu, by rw [hscrub.only.select], fun x hx => ?_⟩
      rcases hscrub.waiter x with heq | ⟨hcall, _⟩
      · exact heq
      · exact absurd (hx.symm.trans hcall) hjk
  refine ⟨hinv, fun x hx => ?_⟩
  by_contra hlink
  have howns := hinv.owner_of_call hlink hx
  rw [hframe] at howns
  obtain ⟨hcall, _, _, _, cs, hget, _⟩ := howns
  have hlt : x.idx < cases.length := (List.getElem?_eq_some_iff.mp hget).1
  have hx' : (⟨k, x.idx⟩ : WaiterId) = x := by rw [← hcall]
  have := hnone x.idx hlt
  rw [hx'] at this
  exact hlink this

/-- The return of a select takes its waiters out and logs one report. -/
theorem returnFromSelect_eq (κ : Chans) (k : CallId) (cases : List SelectCase) (success : Bool) :
    ∃ index status, returnFromSelect κ k cases success =
      (scrubSelectWaiters k cases.length κ).record (.selectReturned k cases index status) := by
  unfold returnFromSelect
  dsimp only
  split
  · exact ⟨_, _, rfl⟩
  · split
    · exact ⟨_, _, rfl⟩
    · exact ⟨_, _, rfl⟩

/-- **Waiters, step.** Every channel step keeps the invariant. -/
theorem chanStep {P : List SelectCase → Prop} {a : Action} (h : WaitInv s.ch s.tasks)
    (hrunning : ∀ w t, s.wk.pc w = .running t → (s.tasks t).state = .runnable)
    (hstep : ChanStep P s a s') : WaitInv s'.ch s'.tasks := by
  cases hstep with
  | userWrite a bs => exact h.same (.copyValue _ _ _)
  | create hlock elemSize capacity allocOk => exact h.create elemSize capacity allocOk
  | destroy hlock hc => exact h.destroy _
  | trySend hlock hc htry => exact h.ticked.moves htry.moves
  | sendReturn hlock hc htry htask => exact (h.ticked.moves htry.moves).record _
  | sendPark hlock hc htry hpc hframe => exact h.parkOn htry.moves htry.blocked_running hc hframe
  | tryRecv hlock hc htry => exact h.ticked.moves htry.moves
  | recvReturn hlock hc htry htask => exact (h.ticked.moves htry.moves).record _
  | recvPark hlock hc htry hpc hframe => exact h.parkOn htry.moves htry.blocked_running hc hframe
  | close hlock hc hclose => exact h.moves (channelCloseLocked_moves hclose)
  | @shutdown hlock a ha o θ s1 life hlife hclose =>
      have h0 : WaitInv { s with shutdownRequested := true }.ch
          { s with shutdownRequested := true }.tasks := h
      have h1 : WaitInv s1.ch s1.tasks := h0.moves (croutineChannelShutdownAllLocked_moves hclose)
      exact h1
  | selectEmpty hlock => exact h.ticked.record _
  | selectFired hlock hP hreg htry | selectDefault hlock hP hreg htry hwhy =>
      exact (h.ticked.moves (selectTryCases_moves htry)).record _
  | @selectPark hlock hasDefault o choice cases s1 w t hP hreg htry hsome hpc hact =>
      have hmoves := selectTryCases_moves htry
      have hwakes : Wakes s s1 := s.wakes_ticked.trans hmoves.wakes
      obtain ⟨hpc', hframe⟩ := Sys.canAct_running hact hwakes hpc
      obtain ⟨hclock, hfresh⟩ := h.fresh hmoves
      obtain ⟨hregistry, _, _, hframes⟩ := hmoves.keeps
      have hcall : (s1.tasks t).frame.call = none := by
        rw [hframes t]
        show (s.tasks t).frame.call = none
        rw [hframe]; rfl
      have hstate : (s1.tasks t).state = .runnable := by
        have hold := hrunning w t hpc'
        rw [hwakes.tasks (by rw [hold]; simp)]
        exact hold
      have hreg' : ∀ cs ∈ cases, ∀ c, cs.channel = some c → c ∈ s1.ch.registry := by
        intro cs hcs c hc
        rw [hregistry]
        exact hreg cs hcs c hc
      unfold workerParkCurrentOnChannelLocked
      split
      · refine (h.ticked.moves hmoves).parkSelect false hclock hfresh hreg' hsome hcall
          (fun habs => ?_) rfl
        exact absurd (hstate.symm.trans habs) (by simp)
      · exact (h.ticked.moves hmoves).parkSelect true hclock hfresh hreg' hsome hcall
          (fun _ => rfl) rfl
  | @returnSingle w t op call c parked hpc hframe hlock =>
      have hstate := hrunning w t hpc
      have hnone := h.returnSingle_unlinked hstate hframe
      rw [h.returnFromSingle_eq hstate hframe]
      exact (h.leave rfl (by rw [hstate]; simp) hnone).record _
  | @returnSelect w t call cases parked hpc hframe hlock =>
      have hstate := hrunning w t hpc
      obtain ⟨hinv, hnone⟩ := h.returnSelect_unlinked hstate hframe
      obtain ⟨index, status, heq⟩ := returnFromSelect_eq s.ch call cases
        (parked && (s.tasks t).channelWakeSuccess)
      rw [heq]
      exact (hinv.leave rfl (by rw [hstate]; simp) hnone).record _

theorem initial (backend : Backend) (wakeFd : Int) (workers runCapacity ioCapacity : Nat) :
    WaitInv (Croutine.initial backend wakeFd workers runCapacity ioCapacity).ch
      (Croutine.initial backend wakeFd workers runCapacity ioCapacity).tasks := by
  refine ⟨fun c op => ⟨fun x => ?_, ?_⟩, ?_, ?_, ?_, ?_, ?_, ?_, ?_⟩
  · cases op <;> simp [Croutine.initial, Chans.queue, Channel.queue, Chans.spot]
  · cases op <;> simp [Croutine.initial, Chans.queue, Channel.queue]
  all_goals simp [Croutine.initial, Frame.call]

/-- **Parked tasks and waiters** fit together in every state of every run. -/
theorem reach {backend : Backend} {allowed : Sys → Action → Prop} {s : Sys}
    (h : (runtime backend).ReachVia allowed s) : WaitInv s.ch s.tasks := by
  refine Machine.ReachVia.invariant (I := fun x => WaitInv x.ch x.tasks) ?_ ?_ h
  · intro x hx
    obtain ⟨wakeFd, workers, runCapacity, ioCapacity, _, _, rfl⟩ := hx
    exact initial backend wakeFd workers runCapacity ioCapacity
  · intro x a x' hreach hx _ hstep
    rcases step_chan hreach hstep with hc | hu
    · exact hx.chanStep (fun w t hpc => running_runnable hreach hpc) hc
    · rw [hu.ch]
      exact hx.keeps hu.tasks

end WaitInv

end Croutine
