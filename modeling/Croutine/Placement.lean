import Croutine.Lib.Custody
import Croutine.Life

/-!
# Where the tasks are

Every task is in one place: not yet allocated, held by a `worker_spawn` call, in the
hands of one worker, in the run queue, waiting for I/O, parked on channels, or freed.
`Placement` ties this function from tasks to places to the program points of the
workers, the run queue, the spawns under way, the task states and the accounts of
their memory.  The moves below are the only ways in which a task changes its place;
the steps of the runtime are composed of them.
-/

namespace Croutine

inductive Place where
  | unborn
  | spawning
  | exec (w : WorkerId)
  | queue
  | io
  | channel
  | freed
  deriving DecidableEq

namespace Pc

/-- The task a worker has in its hands.  A parked task leaves the worker's hands when
the worker releases the lock that the task handed over. -/
def holds : Pc → Option TaskId
  | .dispatched t | .running t | .finishMain t | .finishSched t | .switching t _
  | .returned t _ | .requeue t | .cleanup t => some t
  | .reread t st => if st.waiting then none else some t
  | .notStarted | .top _ | .condWait _ _ | .polling _ | .polled _ | .filtered _
  | .pollError | .exited => none

/-- The worker's task published itself in a wait structure and keeps the lock. -/
def parking : Pc → Bool
  | .switching _ st | .returned _ st => st.waiting
  | _ => false

/-- What holds of the task in a worker's hands at each program point. -/
def Fits (tasks : TaskId → Task) : Pc → Prop
  | .dispatched t => (tasks t).state = .runnable ∧ (tasks t).contextSaved = true
  | .running t => (tasks t).state = .runnable ∧ (tasks t).contextSaved = false
  | .finishMain t | .finishSched t => (tasks t).state = .finished ∧ (tasks t).frame = .user
  | .switching t st =>
    (tasks t).state = st ∧ (st.waiting = false → (tasks t).frame = .user)
  | .returned t st =>
    (tasks t).state = st ∧ st.waiting = true ∧ (tasks t).contextSaved = true
  | .reread t st => st.waiting = false →
    (tasks t).state = st ∧ (tasks t).contextSaved = true ∧ (tasks t).frame = .user
  | .requeue t =>
    (tasks t).state = .runnable ∧ (tasks t).contextSaved = true ∧ (tasks t).frame = .user
  | .cleanup t => (tasks t).state.waiting = false ∧ (tasks t).frame = .user
  | .notStarted | .top _ | .condWait _ _ | .polling _ | .polled _ | .filtered _
  | .pollError | .exited => True

/-- A signal does not change the task a worker holds. -/
@[simp] theorem holds_signal (pc : Pc) : pc.signal.holds = pc.holds := by
  cases pc <;> rfl

/-- A signal only marks a worker on the condition variable. -/
theorem eq_of_signal {p q : Pc} (h : p.signal = q) (hq : ∀ checked, q ≠ .condWait true checked) :
    p = q := by
  cases p with
  | condWait signalled checked => exact absurd h.symm (hq checked)
  | _ => exact h

/-- A signal does not end a park. -/
@[simp] theorem parking_signal (pc : Pc) : pc.signal.parking = pc.parking := by
  cases pc <;> rfl

/-- A signal does not change what a worker is to find in its task. -/
theorem fits_signal {tasks : TaskId → Task} {pc : Pc} (h : pc.Fits tasks) :
    pc.signal.Fits tasks := by
  cases pc <;> exact h

/-- Only the task in the worker's hands matters. -/
theorem Fits.update {tasks : TaskId → Task} {pc : Pc} {t : TaskId} {task : Task}
    (h : pc.Fits tasks) (ht : pc.holds ≠ some t) : pc.Fits (Function.update tasks t task) := by
  cases pc with
  | dispatched u | running u | finishMain u | finishSched u | switching u st | returned u st
  | requeue u | cleanup u =>
      have hu : u ≠ t := fun heq => ht (congrArg some heq)
      simpa [Fits, hu] using h
  | reread u st =>
      intro hst
      have hu : u ≠ t := fun heq => ht (by simp [holds, hst, heq])
      rw [Function.update_of_ne hu]
      exact h hst
  | notStarted | top | condWait | polling | polled | filtered | pollError | exited => trivial

/-- A task in a worker's hands waits only while the worker holds the lock for it. -/
theorem Fits.not_waiting {tasks : TaskId → Task} {pc : Pc} {t : TaskId} (h : pc.Fits tasks)
    (ht : pc.holds = some t) (hpark : pc.parking = false) :
    (tasks t).state.waiting = false := by
  cases pc with
  | dispatched u | running u | finishMain u | finishSched u | requeue u =>
      cases ht
      rw [h.1]; rfl
  | switching u st =>
      cases ht
      rw [h.1]; exact hpark
  | returned u st => exact absurd h.2.1 (by rw [show st.waiting = false from hpark]; simp)
  | reread u st =>
      by_cases hst : st.waiting = true
      · simp [holds, hst] at ht
      · have hst : st.waiting = false := by simpa using hst
        rw [holds, hst] at ht
        cases ht
        rw [(h hst).1]; exact hst
  | cleanup u =>
      cases ht
      exact h.1
  | notStarted | top | condWait | polling | polled | filtered | pollError | exited =>
      simp [holds] at ht

end Pc

/-! ## The memory of a task -/

/-- A task and what it owns are allocated and not released. -/
structure Owned (task : Task) (l : Ledger) : Prop where
  hasStack : task.hasStack = true
  object : l.structAllocs = 1 ∧ l.structFrees = 0
  stack : l.stackAllocs = 1 ∧ l.stackFrees = 0
  arg : l.argAllocs = (if task.ownsArg then 1 else 0) ∧ l.argFrees = 0

/-- Everything that was allocated for a task was released, once. -/
structure Released (l : Ledger) : Prop where
  object : l.structAllocs = 1 ∧ l.structFrees = 1
  stack : l.stackFrees = l.stackAllocs ∧ l.stackAllocs ≤ 1
  arg : l.argFrees = l.argAllocs ∧ l.argAllocs ≤ 1

/-- What `cleanup_task` adds to the account of a task. -/
def cleanedLedger (task : Task) (l : Ledger) : Ledger :=
  { l with
    stackFrees := l.stackFrees + if task.hasStack then 1 else 0
    argFrees := l.argFrees + if task.ownsArg then 1 else 0
    structFrees := l.structFrees + 1 }

/-- Cleaning up a task that is owned once releases it once. -/
theorem Owned.cleaned {task : Task} {l : Ledger} (h : Owned task l) :
    Released (cleanedLedger task l) := by
  obtain ⟨hstack, ⟨ho, ho'⟩, ⟨hs, hs'⟩, ⟨ha, ha'⟩⟩ := h
  refine ⟨⟨ho, ?_⟩, ⟨?_, ?_⟩, ⟨?_, ?_⟩⟩
  · simp [cleanedLedger, ho']
  · simp [cleanedLedger, hs, hs', hstack]
  · simp [cleanedLedger, hs]
  · simp [cleanedLedger, ha, ha']
  · simp only [cleanedLedger, ha]
    split <;> omega

/-! ## Tasks in their places -/

/-- A task that no worker has in its hands, with its registers saved. -/
structure Settled (st : TaskState) (queued : Bool) (task : Task) : Prop where
  state : task.state = st
  queued : task.queued = queued
  saved : task.contextSaved = true

def TaskAt (task : Task) (l : Ledger) : Place → Prop
  | .unborn => task = {} ∧ l = {}
  | .spawning =>
    Settled .runnable false task ∧ task.frame = .user ∧ Owned task l ∧ l.published = false
  | .exec _ => task.queued = false ∧ Owned task l ∧ l.published = true
  | .queue => Settled .runnable true task ∧ Owned task l ∧ l.published = true
  | .io => Settled .waitingIo false task ∧ Owned task l ∧ l.published = true
  | .channel => Settled .waitingChannel false task ∧ Owned task l ∧ l.published = true
  | .freed => task.state = .runnable ∧ task.queued = false ∧ Released l

/-- The lock belongs to the worker whose task is parking. -/
def LockHeld (lock : Option WorkerId) (pc : WorkerId → Pc) : Prop :=
  ∀ w, lock = some w ↔ (pc w).parking = true

structure Placement (tasks : TaskId → Task) (ledger : TaskId → Ledger) (pc : WorkerId → Pc)
    (lock : Option WorkerId) (queue : List TaskId) (spawns : List (Thread × TaskId))
    (next : TaskId) (loc : TaskId → Place) : Prop where
  taskAt : ∀ t, TaskAt (tasks t) (ledger t) (loc t)
  held : Custody.Holds (fun w => (pc w).holds) loc .exec
  queued : Custody.Lists queue loc .queue
  spawning : Custody.Lists (spawns.map Prod.snd) loc .spawning
  unborn : ∀ t, next ≤ t ↔ loc t = .unborn
  points : ∀ w, (pc w).Fits tasks
  locked : LockHeld lock pc

/-- The tasks of a state are in the places `loc`. -/
def Sys.Placed (s : Sys) (loc : TaskId → Place) : Prop :=
  Placement s.tasks s.ledger s.wk.pc s.wk.lock s.runq.tasks s.spawns s.nextTask loc

namespace LockHeld

variable {lock : Option WorkerId} {pc : WorkerId → Pc} {w : WorkerId} {p : Pc}

/-- A worker that neither begins nor ends a park leaves the lock. -/
theorem keep (h : LockHeld lock pc) (hp : p.parking = (pc w).parking) :
    LockHeld lock (Function.update pc w p) := by
  intro v
  rw [h v]
  by_cases hv : v = w
  · subst hv
    rw [Function.update_self, hp]
  · rw [Function.update_of_ne hv]

/-- A worker that begins a park takes the free lock. -/
theorem acquire (h : LockHeld none pc) (hp : p.parking = true) :
    LockHeld (some w) (Function.update pc w p) := by
  intro v
  by_cases hv : v = w
  · subst hv
    rw [Function.update_self]
    exact ⟨fun _ => hp, fun _ => rfl⟩
  · rw [Function.update_of_ne hv, ← h v]
    exact ⟨fun heq => absurd (Option.some.inj heq).symm hv, fun heq => by simp at heq⟩

/-- A worker that ends a park frees the lock. -/
theorem release (h : LockHeld lock pc) (hw : (pc w).parking = true) (hp : p.parking = false) :
    LockHeld none (Function.update pc w p) := by
  intro v
  refine ⟨fun heq => by simp at heq, fun heq => ?_⟩
  by_cases hv : v = w
  · subst hv
    rw [Function.update_self, hp] at heq
    exact absurd heq Bool.false_ne_true
  · rw [Function.update_of_ne hv] at heq
    have h1 := (h v).mpr heq
    rw [(h w).mpr hw] at h1
    exact absurd (Option.some.inj h1).symm hv

/-- With the lock free no worker parks. -/
theorem not_parking (h : LockHeld none pc) (w : WorkerId) : (pc w).parking = false := by
  by_contra hne
  have := (h w).mpr (by simpa using hne)
  simp at this

end LockHeld

/-- Two workers hold two places. -/
theorem Place.exec_injective : Function.Injective Place.exec := fun _ _ h => Place.exec.inj h

/-- Moving a worker changes the task it holds, and no other's. -/
theorem holds_update (pc : WorkerId → Pc) (w : WorkerId) (p : Pc) :
    (fun v => (Function.update pc w p v).holds) =
      Function.update (fun v => (pc v).holds) w p.holds := by
  funext v
  by_cases hv : v = w
  · subst hv; simp
  · simp [hv]

namespace Placement

variable {tasks : TaskId → Task} {ledger : TaskId → Ledger} {pc pc' : WorkerId → Pc}
  {lock lock' : Option WorkerId} {queue queue' : List TaskId}
  {spawns spawns' : List (Thread × TaskId)} {next next' : TaskId} {loc : TaskId → Place}
  {w : WorkerId} {t : TaskId} {p : Pc} {τ : Task} {l : Ledger} {b : Place}

/-- One task moves, and is in its new place what that place asks for. -/
theorem task_update (h : ∀ u, TaskAt (tasks u) (ledger u) (loc u)) (hat : TaskAt τ l b) :
    ∀ u, TaskAt (Function.update tasks t τ u) (Function.update ledger t l u)
      (Function.update loc t b u) := by
  intro u
  by_cases hu : u = t
  · subst hu
    simpa using hat
  · simpa [hu] using h u

/-- A task in a worker's hands is in no other worker's hands. -/
theorem holder_eq (h : Placement tasks ledger pc lock queue spawns next loc) {v : WorkerId}
    (hv : (pc v).holds = some t) (hw : (pc w).holds = some t) : v = w :=
  Place.exec_injective (((h.held v t).mp hv).symm.trans ((h.held w t).mp hw))

/-- The other workers do not notice a change of the task in the hands of `w`. -/
theorem points_update (h : Placement tasks ledger pc lock queue spawns next loc)
    (hholder : ∀ v, (pc v).holds = some t → v = w)
    (hp : p.Fits (Function.update tasks t τ)) :
    ∀ v, (Function.update pc w p v).Fits (Function.update tasks t τ) :=
  (Function.forall_update_iff pc fun _ q => q.Fits (Function.update tasks t τ)).mpr
    ⟨hp, fun v hv => (h.points v).update fun hheld => hv (hholder v hheld)⟩

/-- No worker holds a task that is elsewhere. -/
theorem not_held (h : Placement tasks ledger pc lock queue spawns next loc)
    (ht : ∀ v, loc t ≠ .exec v) (w : WorkerId) : (pc w).holds ≠ some t :=
  fun hw => ht w ((h.held w t).mp hw)

/-- The next task is not born. -/
theorem next_unborn (h : Placement tasks ledger pc lock queue spawns next loc) :
    loc next = .unborn ∧ tasks next = {} ∧ ledger next = {} := by
  have hloc := (h.unborn _).mp (Nat.le_refl _)
  have hat := h.taskAt next
  rw [hloc] at hat
  exact ⟨hloc, hat⟩

/-- A task that is being spawned is in the hands of its spawner. -/
theorem spawned (h : Placement tasks ledger pc lock queue spawns next loc) {p : Thread × TaskId}
    (hp : p ∈ spawns) : loc p.2 = .spawning ∧ TaskAt (tasks p.2) (ledger p.2) .spawning := by
  have hloc := (h.spawning.mem p.2).mp (List.mem_map.mpr ⟨p, hp, rfl⟩)
  have hat := h.taskAt p.2
  rw [hloc] at hat
  exact ⟨hloc, hat⟩

/-! ### Steps that leave every task in its place -/

/-- Signals keep the placement. -/
theorem signals (h : Placement tasks ledger pc lock queue spawns next loc)
    (hsig : ∀ w, pc' w = pc w ∨ pc' w = (pc w).signal) :
    Placement tasks ledger pc' lock queue spawns next loc := by
  have hholds : (fun w => (pc' w).holds) = fun w => (pc w).holds := by
    funext w
    rcases hsig w with heq | heq <;> simp [heq]
  refine ⟨h.taskAt, by rw [hholds]; exact h.held, h.queued, h.spawning, h.unborn, ?_, ?_⟩
  · intro w
    rcases hsig w with heq | heq
    · rw [heq]; exact h.points w
    · rw [heq]; exact Pc.fits_signal (h.points w)
  · intro w
    rw [h.locked w]
    rcases hsig w with heq | heq <;> simp [heq]

/-- A worker moves on with the task in its hands, which may change. -/
theorem advance (h : Placement tasks ledger pc lock queue spawns next loc)
    (hw : (pc w).holds = some t) (hp : p.holds = some t) (hqueued : τ.queued = false)
    (howned : Owned τ (ledger t)) (hfits : p.Fits (Function.update tasks t τ))
    (hlock : LockHeld lock' (Function.update pc w p)) :
    Placement (Function.update tasks t τ) ledger (Function.update pc w p) lock' queue
      spawns next loc := by
  have hloc : loc t = .exec w := (h.held w t).mp hw
  have hold := h.taskAt t
  rw [hloc] at hold
  refine ⟨?_, ?_, h.queued, h.spawning, h.unborn,
    h.points_update (fun v hv => h.holder_eq hv hw) hfits, hlock⟩
  · have := task_update (t := t) (τ := τ) (l := ledger t) (b := loc t) h.taskAt
      (by rw [hloc]; exact ⟨hqueued, howned, hold.2.2⟩)
    simpa only [Function.update_eq_self] using this
  · rw [holds_update, hp, ← hw, Function.update_eq_self]
    exact h.held

/-- A worker moves on without a change of its task. -/
theorem point (h : Placement tasks ledger pc lock queue spawns next loc)
    (hp : p.holds = (pc w).holds) (hfits : p.Fits tasks)
    (hlock : LockHeld lock' (Function.update pc w p)) :
    Placement tasks ledger (Function.update pc w p) lock' queue spawns next loc := by
  refine ⟨h.taskAt, ?_, h.queued, h.spawning, h.unborn, ?_, hlock⟩
  · rw [holds_update, hp]
    have := h.held
    rwa [← Function.update_eq_self w (fun v => (pc v).holds)] at this
  · intro v
    by_cases hv : v = w
    · subst hv; rw [Function.update_self]; exact hfits
    · rw [Function.update_of_ne hv]; exact h.points v

/-! ### Moves of one task -/

/-- A task moves between places that are not a worker's hands. -/
theorem relocate (h : Placement tasks ledger pc lock queue spawns next loc)
    (hfrom : ∀ v, loc t ≠ .exec v) (hto : ∀ v, b ≠ .exec v) (hat : TaskAt τ l b)
    (hqueue : Custody.Lists queue' (Function.update loc t b) .queue)
    (hspawns : Custody.Lists (spawns'.map Prod.snd) (Function.update loc t b) .spawning)
    (hunborn : ∀ u, next' ≤ u ↔ Function.update loc t b u = .unborn) :
    Placement (Function.update tasks t τ) (Function.update ledger t l) pc lock queue'
      spawns' next' (Function.update loc t b) where
  taskAt := task_update h.taskAt hat
  held := h.held.move hfrom hto
  queued := hqueue
  spawning := hspawns
  unborn := hunborn
  points := fun v => (h.points v).update (h.not_held hfrom v)
  locked := h.locked

/-- A task leaves a worker's hands. -/
theorem leave (h : Placement tasks ledger pc lock queue spawns next loc)
    (hw : (pc w).holds = some t) (hp : p.holds = none) (hto : ∀ v, b ≠ .exec v)
    (hat : TaskAt τ l b) (hfits : p.Fits (Function.update tasks t τ))
    (hlock : LockHeld lock' (Function.update pc w p))
    (hqueue : Custody.Lists queue' (Function.update loc t b) .queue)
    (hspawn : b ≠ .spawning) (hunborn : b ≠ .unborn) :
    Placement (Function.update tasks t τ) (Function.update ledger t l)
      (Function.update pc w p) lock' queue' spawns next (Function.update loc t b) := by
  have hloc : loc t = .exec w := (h.held w t).mp hw
  refine ⟨task_update h.taskAt hat, ?_, hqueue,
    h.spawning.move (by rw [hloc]; simp) hspawn, ?_,
    h.points_update (fun v hv => h.holder_eq hv hw) hfits, hlock⟩
  · rw [holds_update, hp]
    exact h.held.drop Place.exec_injective hw hto
  · intro u
    by_cases hu : u = t
    · subst hu
      rw [Function.update_self, h.unborn u, hloc]
      exact ⟨fun habs => by simp at habs, fun habs => absurd habs hunborn⟩
    · rw [Function.update_of_ne hu]
      exact h.unborn u

/-- A worker takes a task from the run queue. -/
theorem dispatch {rest : List TaskId}
    (h : Placement tasks ledger pc lock (t :: rest) spawns next loc)
    (hw : (pc w).holds = none) (hpark : (pc w).parking = false) :
    Placement (Function.update tasks t { tasks t with queued := false }) ledger
      (Function.update pc w (.dispatched t)) lock rest spawns next
      (Function.update loc t (.exec w)) := by
  have hloc : loc t = .queue := (h.queued.mem t).mp List.mem_cons_self
  have hold := h.taskAt t
  rw [hloc] at hold
  obtain ⟨hsettled, howned, hpub⟩ := hold
  have hfree : ∀ v, loc t ≠ .exec v := by intro v; rw [hloc]; simp
  refine ⟨?_, ?_, h.queued.remove (.refl _) (by simp),
    h.spawning.move (by rw [hloc]; simp) (by simp), ?_, ?_, h.locked.keep hpark.symm⟩
  · have := task_update (t := t) (τ := { tasks t with queued := false }) (l := ledger t)
      (b := .exec w) h.taskAt ⟨rfl, ⟨howned.1, howned.2, howned.3, howned.4⟩, hpub⟩
    simpa only [Function.update_eq_self] using this
  · rw [holds_update]
    exact h.held.take Place.exec_injective hw hfree
  · intro u
    by_cases hu : u = t
    · subst hu
      rw [Function.update_self, h.unborn u, hloc]
      simp
    · rw [Function.update_of_ne hu]
      exact h.unborn u
  · refine h.points_update (fun v hv => absurd hv (h.not_held hfree v)) ?_
    simp [Pc.Fits, hsettled.state, hsettled.saved]

/-! ### Reading the place off the state -/

/-- While the lock is free a waiting task is in no worker's hands. -/
theorem place_of_waiting (h : Placement tasks ledger pc none queue spawns next loc)
    (ht : (tasks t).state.waiting = true) :
    ((tasks t).state = .waitingIo ∧ loc t = .io) ∨
      ((tasks t).state = .waitingChannel ∧ loc t = .channel) := by
  have hat := h.taskAt t
  have hne : ∀ st, (tasks t).state = st → st.waiting = false → False := by
    intro st hst hw
    rw [hst, hw] at ht
    exact absurd ht Bool.false_ne_true
  cases hloc : loc t with
  | unborn =>
      rw [hloc] at hat
      exact absurd (hne .runnable (by rw [hat.1]) rfl) id
  | spawning | queue =>
      rw [hloc] at hat
      exact absurd (hne .runnable hat.1.state rfl) id
  | exec w =>
      have hheld : (pc w).holds = some t := (h.held w t).mpr hloc
      have := (h.points w).not_waiting hheld (h.locked.not_parking w)
      exact absurd (hne _ rfl this) id
  | io =>
      rw [hloc] at hat
      exact .inl ⟨hat.1.state, rfl⟩
  | channel =>
      rw [hloc] at hat
      exact .inr ⟨hat.1.state, rfl⟩
  | freed =>
      rw [hloc] at hat
      exact absurd (hne .runnable hat.1 rfl) id

end Placement

end Croutine
