import Mathlib.Data.List.Nodup
import Croutine.Lib.Ring
import Croutine.Runtime

/-!
# The ring of the run queue

`struct TaskQueue` with its array, indices and count as `task.c` has them, in `size_t`
arithmetic, beside the `queued` flags of the tasks.  Every access of the array is checked.
The queue is a FIFO of distinct tasks: its array is a ring that holds a list, and a task's
flag says whether it is in that list.  No access fails and no index computation leaves
`size_t`.

The scheduler's model keeps the list and the capacity of the ring only.  The last section
shows that its `taskQueuePush` and `taskQueuePop` are what the ring does.
-/

namespace Croutine

/-- A value of type `size_t`. -/
def sizeT (n : Nat) : Nat := n % 2 ^ 64

/-- A count below `SIZE_MAX` does not wrap. -/
theorem sizeT_eq {n : Nat} (h : n ≤ sizeMax) : sizeT n = n := by
  unfold sizeMax at h
  exact Nat.mod_eq_of_lt (by omega)

/-! ## The code -/

/-- `struct TaskQueue`; a cell of the array is a pointer to a task or `NULL`. -/
structure TaskQueue where
  tasks : List (Option TaskId)
  capacity : Nat
  head : Nat
  tail : Nat
  count : Nat
  deriving DecidableEq

/-- `calloc(n, sizeof(struct Task *))`, which fails when the size exceeds `SIZE_MAX`. -/
def callocTasks (allocOk : Bool) (n : Nat) : Option (List (Option TaskId)) :=
  if allocOk && n * 8 ≤ sizeMax then some (List.replicate n none) else none

namespace TaskQueue

def nextIndex (q : TaskQueue) (index : Nat) : Nat := sizeT (index + 1) % q.capacity

/-- One round of the copy loop of `task_queue_grow`. -/
def copyTask (q : TaskQueue) (newTasks : List (Option TaskId)) (i : Nat) :
    Except Fault (List (Option TaskId)) := do
  let task ← Ring.load q.tasks (sizeT (q.head + i) % q.capacity)
  Ring.store newTasks i task

/-- `task_queue_grow`; `none` is its result `false`. -/
def grow (allocOk : Bool) (q : TaskQueue) : Except Fault (Option TaskQueue) :=
  if q.capacity > sizeMax / 2 then .ok none
  else
    let newCapacity := if q.capacity = 0 then 1 else sizeT (q.capacity * 2)
    match callocTasks allocOk newCapacity with
    | none => .ok none
    | some newTasks => do
      let tasks ← (List.range q.count).foldlM q.copyTask newTasks
      return some ⟨tasks, newCapacity, 0, q.count, q.count⟩

/-- `task_queue_init`; `none` is its result `false`. -/
def init (allocOk : Bool) (capacity : Nat) : Option TaskQueue :=
  if capacity = 0 then none
  else (callocTasks allocOk capacity).map fun tasks => ⟨tasks, capacity, 0, 0, 0⟩

def isEmpty (q : TaskQueue) : Bool := q.capacity = 0 || q.count = 0

def isFull (q : TaskQueue) : Bool := q.capacity ≠ 0 && q.count = q.capacity

end TaskQueue

/-- The queue and the `scheduler.queued` flags of all tasks. -/
structure QueueState where
  queue : TaskQueue
  queued : TaskId → Bool

namespace QueueState

/-- `task_queue_push`. -/
def push (allocOk : Bool) (s : QueueState) (t : TaskId) : Except Fault (Bool × QueueState) :=
  if s.queue.capacity = 0 then .ok (false, s)
  else if s.queued t then .ok (true, s)
  else do
    let ready ← if s.queue.isFull then s.queue.grow allocOk else .ok (some s.queue)
    match ready with
    | none => return (false, s)
    | some q =>
      let tasks ← Ring.store q.tasks q.tail (some t)
      let q := { q with
        tasks := tasks, tail := q.nextIndex q.tail, count := sizeT (q.count + 1) }
      return (true, ⟨q, Function.update s.queued t true⟩)

/-- `task_queue_pop`, which writes the flag of the task it finds. -/
def pop (s : QueueState) : Except Fault (Option TaskId × QueueState) :=
  if s.queue.isEmpty then .ok (none, s)
  else do
    let cell ← Ring.load s.queue.tasks s.queue.head
    match cell with
    | none => .error .null
    | some t =>
      let q := { s.queue with
        head := s.queue.nextIndex s.queue.head, count := s.queue.count - 1 }
      return (some t, ⟨q, Function.update s.queued t false⟩)

end QueueState

/-! ## The list in the ring -/

namespace TaskQueue

variable {q q' : TaskQueue} {l : List TaskId}

def cell (q : TaskQueue) (i : Nat) : Option TaskId := (q.tasks[i]?).join

/-- The tasks of the queue, the oldest first. -/
def contents (q : TaskQueue) : List TaskId :=
  (List.range q.count).filterMap fun i => q.cell ((q.head + i) % q.capacity)

/-- Reading a list by its indices. -/
theorem filterMap_range_getElem? {α : Type} (l : List α) :
    (List.range l.length).filterMap (fun i => l[i]?) = l := by
  induction l with
  | nil => rfl
  | cons x l ih =>
      rw [List.length_cons, List.range_succ_eq_map, List.filterMap_cons]
      simp only [List.getElem?_cons_zero, List.filterMap_map, Function.comp_def,
        List.getElem?_cons_succ]
      rw [ih]

/-- The queue is a ring that holds the list. -/
structure Represents (q : TaskQueue) (l : List TaskId) : Prop where
  cells : q.tasks.length = q.capacity
  holds : Ring.Holds q.cell q.capacity q.head (l.map some)
  count_eq : q.count = l.length
  tail_eq : q.tail = (q.head + q.count) % q.capacity
  fits : q.capacity * 8 ≤ sizeMax

namespace Represents

/-- The contents of a ring that stands for a list. -/
theorem contents_eq (h : q.Represents l) : q.contents = l := by
  have hcells : ∀ i < l.length, q.cell ((q.head + i) % q.capacity) = l[i]? := by
    intro i hi
    have hget : (l.map some)[i]? = some l[i]? := by
      rw [List.getElem?_map, List.getElem?_eq_getElem hi]
      rfl
    exact h.holds.slots i _ hget
  unfold contents
  rw [h.count_eq]
  have hmap : (List.range l.length).filterMap (fun i => q.cell ((q.head + i) % q.capacity)) =
      (List.range l.length).filterMap fun i => l[i]? :=
    List.filterMap_congr fun i hi => hcells i (List.mem_range.mp hi)
  rw [hmap]
  exact filterMap_range_getElem? l

/-- A queue has room for one task at least. -/
theorem pos (h : q.Represents l) : 0 < q.capacity :=
  Nat.lt_of_le_of_lt (Nat.zero_le _) h.holds.head_lt

/-- The list fits in the ring. -/
theorem length_le (h : q.Represents l) : l.length ≤ q.capacity := by
  simpa using h.holds.length_le

/-- No index computation leaves `size_t`. -/
theorem index_fits (h : q.Represents l) {i : Nat} (hi : i ≤ q.capacity) :
    q.head + i ≤ sizeMax ∧ i + 1 ≤ sizeMax ∧ q.capacity * 2 ≤ sizeMax := by
  have hhead := h.holds.head_lt
  have hfits := h.fits
  unfold sizeMax at hfits ⊢
  omega

/-- The next index wraps at the capacity. -/
theorem nextIndex_eq (h : q.Represents l) {i : Nat} (hi : i < q.capacity) :
    q.nextIndex i = (i + 1) % q.capacity := by
  unfold nextIndex
  rw [sizeT_eq (h.index_fits (Nat.le_of_lt hi)).2.1]

/-- The copy loop puts the tasks, in order, at the front of the new array. -/
theorem copyTasks (h : q.Represents l) (newTasks : List (Option TaskId))
    (hroom : l.length ≤ newTasks.length) :
    ∀ n ≤ l.length, ∃ tasks, (List.range n).foldlM q.copyTask newTasks = .ok tasks ∧
      tasks.length = newTasks.length ∧
      ∀ i < n, tasks[i]? = some (q.cell ((q.head + i) % q.capacity)) := by
  intro n
  induction n with
  | zero =>
      intro _
      exact ⟨newTasks, rfl, rfl, fun i hi => absurd hi (Nat.not_lt_zero i)⟩
  | succ n ih =>
      intro hn
      obtain ⟨tasks, hfold, hlength, hcopied⟩ := ih (by omega)
      have hle := h.length_le
      have hindex : sizeT (q.head + n) = q.head + n :=
        sizeT_eq (h.index_fits (i := n) (by omega)).1
      have hlt : (q.head + n) % q.capacity < q.tasks.length := by
        rw [h.cells]
        exact Nat.mod_lt _ h.pos
      have hload : Ring.load q.tasks (sizeT (q.head + n) % q.capacity) =
          .ok (q.cell ((q.head + n) % q.capacity)) := by
        rw [hindex]
        refine Ring.load_ok ?_
        rw [cell, List.getElem?_eq_getElem hlt]
        rfl
      refine ⟨tasks.set n (q.cell ((q.head + n) % q.capacity)), ?_, ?_, ?_⟩
      · rw [List.range_succ, List.foldlM_append, hfold]
        show (do
          let task ← Ring.load q.tasks (sizeT (q.head + n) % q.capacity)
          Ring.store tasks n task) >>= _ = _
        rw [hload]
        show Ring.store tasks n _ >>= _ = _
        rw [Ring.store_ok (by omega)]
        rfl
      · rw [List.length_set, hlength]
      · intro i hi
        by_cases hin : i = n
        · subst hin
          exact List.getElem?_set_self (by omega)
        · rw [List.getElem?_set_ne (Ne.symm hin)]
          exact hcopied i (by omega)

/-- **Growing re-linearises the ring**, wherever its head is, and fails only if the
allocation does. -/
theorem grow (h : q.Represents l) (allocOk : Bool) :
    (q.grow allocOk = .ok none ∧ (allocOk = false ∨ sizeMax < q.capacity * 2 * 8)) ∨
    ∃ q', q.grow allocOk = .ok (some q') ∧ q'.Represents l ∧ q'.capacity = q.capacity * 2 ∧
      allocOk = true := by
  have hpos := h.pos
  have hdouble := (h.index_fits (Nat.le_refl q.capacity)).2.2
  have hguard : ¬q.capacity > sizeMax / 2 := by omega
  unfold TaskQueue.grow
  rw [if_neg hguard]
  dsimp only
  rw [if_neg (Nat.ne_of_gt hpos), sizeT_eq hdouble]
  unfold callocTasks
  by_cases halloc : (allocOk && decide (q.capacity * 2 * 8 ≤ sizeMax)) = true
  · rw [if_pos halloc]
    rw [Bool.and_eq_true, decide_eq_true_eq] at halloc
    have hle := h.length_le
    obtain ⟨tasks, hfold, hlength, hcopied⟩ := h.copyTasks
      (List.replicate (q.capacity * 2) none) (by rw [List.length_replicate]; omega)
      l.length (Nat.le_refl _)
    rw [List.length_replicate] at hlength
    refine .inr ⟨⟨tasks, q.capacity * 2, 0, q.count, q.count⟩, ?_, ?_, rfl, halloc.1⟩
    · dsimp only
      rw [h.count_eq, hfold]
      rfl
    · refine ⟨hlength, ?_, h.count_eq, ?_, halloc.2⟩
      · refine h.holds.relocate (show q.capacity ≤ q.capacity * 2 by omega) fun i hi => ?_
        rw [List.length_map] at hi
        show (tasks[i]?).join = _
        rw [hcopied i hi]
        rfl
      · show q.count = (0 + q.count) % (q.capacity * 2)
        rw [Nat.zero_add, Nat.mod_eq_of_lt (by rw [h.count_eq]; omega)]
  · rw [if_neg halloc]
    refine .inl ⟨rfl, ?_⟩
    rw [Bool.and_eq_true, decide_eq_true_eq, not_and_or, Bool.not_eq_true] at halloc
    exact halloc.imp_right Nat.lt_of_not_le

/-- Storing at the tail of a ring with room appends. -/
theorem append (h : q.Represents l) (hroom : l.length < q.capacity) (t : TaskId) :
    q.tail < q.tasks.length ∧
    Represents { q with
      tasks := q.tasks.set q.tail (some t)
      tail := q.nextIndex q.tail
      count := sizeT (q.count + 1) } (l ++ [t]) := by
  have htail : q.tail < q.capacity := by
    rw [h.tail_eq]
    exact Nat.mod_lt _ h.pos
  have hlen : (l.map some).length = q.count := by rw [List.length_map, h.count_eq]
  have hcount : sizeT (q.count + 1) = q.count + 1 := by
    refine sizeT_eq (h.index_fits ?_).2.1
    rw [h.count_eq]
    exact Nat.le_of_lt hroom
  refine ⟨by rw [h.cells]; exact htail, ?_, ?_, ?_, ?_, h.fits⟩
  · rw [List.length_set]
    exact h.cells
  · rw [List.map_append]
    refine h.holds.push (by rw [List.length_map]; exact hroom) ?_ ?_
    · rw [hlen, ← h.tail_eq]
      show ((q.tasks.set q.tail (some t))[q.tail]?).join = some t
      rw [List.getElem?_set_self (by rw [h.cells]; exact htail)]
      rfl
    · intro i _ hi
      rw [hlen, ← h.tail_eq] at hi
      show ((q.tasks.set q.tail (some t))[i]?).join = (q.tasks[i]?).join
      rw [List.getElem?_set_ne (Ne.symm hi)]
  · rw [hcount, List.length_append, h.count_eq]
    rfl
  · rw [hcount, h.nextIndex_eq htail, h.tail_eq, Nat.mod_add_mod]
    rfl

/-- Taking the cell at the head drops the oldest task. -/
theorem dropHead {t : TaskId} (h : q.Represents (t :: l)) :
    q.tasks[q.head]? = some (some t) ∧
    Represents { q with head := q.nextIndex q.head, count := q.count - 1 } l := by
  have hfirst : q.cell q.head = some t := h.holds.first
  have hcount : q.count = l.length + 1 := h.count_eq
  have hnext := h.nextIndex_eq h.holds.head_lt
  refine ⟨?_, h.cells, ?_, ?_, ?_, h.fits⟩
  · unfold cell at hfirst
    cases hget : q.tasks[q.head]? with
    | none =>
        rw [hget] at hfirst
        exact absurd hfirst (by simp)
    | some x =>
        rw [hget, Option.join_some] at hfirst
        rw [hfirst]
  · rw [hnext]
    exact h.holds.pop
  · rw [hcount]
    rfl
  · show q.tail = (q.nextIndex q.head + (q.count - 1)) % q.capacity
    rw [hnext, Nat.mod_add_mod, h.tail_eq, hcount, Nat.add_sub_cancel, Nat.add_assoc,
      Nat.add_comm 1]

end Represents

/-- A new queue is empty and has the capacity asked for. -/
theorem init_represents {allocOk : Bool} {capacity : Nat} (h : init allocOk capacity = some q) :
    q.Represents [] ∧ q.capacity = capacity := by
  unfold init callocTasks at h
  split at h
  · exact absurd h (by simp)
  · next hpos =>
    split at h
    · next halloc =>
      cases h
      rw [Bool.and_eq_true, decide_eq_true_eq] at halloc
      refine ⟨⟨List.length_replicate .., Ring.Holds.empty _ (Nat.pos_of_ne_zero hpos), rfl, ?_,
        halloc.2⟩, rfl⟩
      exact (Nat.zero_mod _).symm
    · exact absurd h (by simp)

end TaskQueue

/-! ## A queue of distinct tasks -/

/-- The queue holds distinct tasks, and the flags say which. -/
structure QueueState.Lists (s : QueueState) (l : List TaskId) : Prop where
  ring : s.queue.Represents l
  nodup : l.Nodup
  flags : ∀ t, s.queued t = true ↔ t ∈ l

/-- A new queue with no task marked as queued. -/
theorem QueueState.Lists.init {allocOk : Bool} {capacity : Nat} {q : TaskQueue}
    (h : TaskQueue.init allocOk capacity = some q) :
    QueueState.Lists ⟨q, fun _ => false⟩ [] :=
  ⟨(TaskQueue.init_represents h).1, List.nodup_nil, fun t => by simp⟩

/-- A call of the queue, with the outcome of the allocation it may make. -/
inductive QueueMove where
  | push (allocOk : Bool) (t : TaskId)
  | pop

inductive QueueResult where
  | pushed (ok : Bool)
  | popped (t : Option TaskId)
  deriving DecidableEq

/-- **The abstract queue.**  Pushing a task that is in the list changes nothing; any other
push appends, or is refused because the ring could not grow; a pop takes the first task. -/
inductive FifoStep : List TaskId → QueueMove → QueueResult → List TaskId → Prop
  | again {l : List TaskId} {t : TaskId} {allocOk : Bool} (ht : t ∈ l) :
      FifoStep l (.push allocOk t) (.pushed true) l
  | append {l : List TaskId} {t : TaskId} {allocOk : Bool} (ht : t ∉ l) :
      FifoStep l (.push allocOk t) (.pushed true) (l ++ [t])
  | refused {l : List TaskId} {t : TaskId} {allocOk : Bool} (ht : t ∉ l)
      (hfull : allocOk = false ∨ sizeMax < l.length * 2 * 8) :
      FifoStep l (.push allocOk t) (.pushed false) l
  | empty : FifoStep [] .pop (.popped none) []
  | first {l : List TaskId} {t : TaskId} : FifoStep (t :: l) .pop (.popped (some t)) l

/-- A sequence of calls of the abstract queue with their results. -/
inductive FifoRun : List TaskId → List QueueMove → List QueueResult → List TaskId → Prop
  | nil {l : List TaskId} : FifoRun l [] [] l
  | cons {l l1 l2 : List TaskId} {a : QueueMove} {r : QueueResult} {moves : List QueueMove}
      {results : List QueueResult} (hstep : FifoStep l a r l1)
      (hrest : FifoRun l1 moves results l2) :
      FifoRun l (a :: moves) (r :: results) l2

namespace QueueState

/-- A call of the queue. -/
def call (s : QueueState) : QueueMove → Except Fault (QueueResult × QueueState)
  | .push allocOk t => do
    let (ok, s) ← s.push allocOk t
    return (.pushed ok, s)
  | .pop => do
    let (t, s) ← s.pop
    return (.popped t, s)

/-- A sequence of calls. -/
def calls : QueueState → List QueueMove → Except Fault (List QueueResult × QueueState)
  | s, [] => .ok ([], s)
  | s, a :: moves => do
    let (r, s) ← s.call a
    let (results, s) ← s.calls moves
    return (r :: results, s)

/-- What a push does: the task is queued already, the ring is full and stays as it is, or
the task is stored, in the ring as it was or after it grew. -/
inductive PushOutcome (s : QueueState) (l : List TaskId) (allocOk : Bool) (t : TaskId) :
    Bool → QueueState → Prop
  | again (ht : t ∈ l) : PushOutcome s l allocOk t true s
  | refused (ht : t ∉ l) (hfull : l.length = s.queue.capacity)
      (hwhy : allocOk = false ∨ sizeMax < s.queue.capacity * 2 * 8) :
      PushOutcome s l allocOk t false s
  | stored {s' : QueueState} (ht : t ∉ l) (hroom : l.length < s.queue.capacity)
      (hlists : s'.Lists (l ++ [t])) (hcap : s'.queue.capacity = s.queue.capacity) :
      PushOutcome s l allocOk t true s'
  | grown {s' : QueueState} (ht : t ∉ l) (hfull : l.length = s.queue.capacity)
      (hok : allocOk = true) (hlists : s'.Lists (l ++ [t]))
      (hcap : s'.queue.capacity = s.queue.capacity * 2) : PushOutcome s l allocOk t true s'

namespace Lists

variable {s : QueueState} {l : List TaskId}

/-- Storing a task in a ring with room. -/
theorem append {q : TaskQueue} (h : s.Lists l) (hq : q.Represents l)
    (hroom : l.length < q.capacity) {t : TaskId} (ht : t ∉ l) :
    ∃ s', (do
        let tasks ← Ring.store q.tasks q.tail (some t)
        return (true, ⟨{ q with
          tasks := tasks, tail := q.nextIndex q.tail, count := sizeT (q.count + 1) },
          Function.update s.queued t true⟩) : Except Fault (Bool × QueueState)) =
        .ok (true, s') ∧ s'.Lists (l ++ [t]) ∧ s'.queue.capacity = q.capacity := by
  obtain ⟨hlt, happend⟩ := hq.append hroom t
  rw [Ring.store_ok hlt]
  refine ⟨_, rfl, ⟨happend, ?_, fun u => ?_⟩, rfl⟩
  · exact List.nodup_append'.mpr ⟨h.nodup, List.nodup_singleton t, by simpa using ht⟩
  · rw [List.mem_append, List.mem_singleton]
    by_cases hu : u = t
    · simp [hu]
    · simp [hu, h.flags]

/-- **`task_queue_push`** never faults. -/
theorem push (h : s.Lists l) (allocOk : Bool) (t : TaskId) :
    ∃ ok s', s.push allocOk t = .ok (ok, s') ∧ PushOutcome s l allocOk t ok s' := by
  have hpos := h.ring.pos
  unfold QueueState.push
  rw [if_neg (Nat.ne_of_gt hpos)]
  by_cases ht : t ∈ l
  · rw [if_pos ((h.flags t).mpr ht)]
    exact ⟨true, s, rfl, .again ht⟩
  rw [if_neg fun habs => ht ((h.flags t).mp habs)]
  by_cases hfull : s.queue.isFull = true
  · rw [if_pos hfull]
    have hcap : l.length = s.queue.capacity := by
      unfold TaskQueue.isFull at hfull
      rw [Bool.and_eq_true] at hfull
      rw [← h.ring.count_eq]
      exact of_decide_eq_true hfull.2
    rcases h.ring.grow allocOk with ⟨hgrow, hwhy⟩ | ⟨q, hgrow, hq, hdouble, hok⟩
    · rw [hgrow]
      exact ⟨false, s, rfl, .refused ht hcap hwhy⟩
    · rw [hgrow]
      obtain ⟨s', hs', hlists, hcap'⟩ := h.append hq (by omega) ht
      exact ⟨true, s', hs', .grown ht hcap hok hlists (hcap'.trans hdouble)⟩
  · rw [if_neg hfull]
    have hroom : l.length < s.queue.capacity := by
      have hle := h.ring.length_le
      have hne : s.queue.count ≠ s.queue.capacity := by
        intro habs
        exact hfull (by simp [TaskQueue.isFull, habs, Nat.ne_of_gt hpos])
      rw [h.ring.count_eq] at hne
      omega
    obtain ⟨s', hs', hlists, hcap'⟩ := h.append h.ring hroom ht
    exact ⟨true, s', hs', .stored ht hroom hlists hcap'⟩

/-- **`task_queue_pop`** never faults and takes the oldest task. -/
theorem pop (h : s.Lists l) :
    ∃ r s', s.pop = .ok (r, s') ∧ ((l = [] ∧ r = none ∧ s' = s) ∨
      ∃ t rest, l = t :: rest ∧ r = some t ∧ s'.Lists rest ∧
        s'.queue.capacity = s.queue.capacity) := by
  unfold QueueState.pop
  cases l with
  | nil =>
      have hempty : s.queue.isEmpty = true := by
        simp [TaskQueue.isEmpty, h.ring.count_eq]
      rw [if_pos hempty]
      exact ⟨none, s, rfl, .inl ⟨rfl, rfl, rfl⟩⟩
  | cons t rest =>
      have hsome : ¬s.queue.isEmpty = true := by
        simp [TaskQueue.isEmpty, h.ring.count_eq, Nat.ne_of_gt h.ring.pos]
      rw [if_neg hsome]
      obtain ⟨hhead, hdrop⟩ := h.ring.dropHead
      obtain ⟨hnot, hnodup⟩ := List.nodup_cons.mp h.nodup
      rw [Ring.load_ok hhead]
      refine ⟨some t, _, rfl, .inr ⟨t, rest, rfl, rfl, ⟨hdrop, hnodup, fun u => ?_⟩, rfl⟩⟩
      by_cases hu : u = t
      · subst hu
        simp [hnot]
      · simp [hu, h.flags]

/-- What one call does. -/
theorem call (h : s.Lists l) (a : QueueMove) :
    ∃ r s' l', s.call a = .ok (r, s') ∧ s'.Lists l' ∧ FifoStep l a r l' := by
  cases a with
  | push allocOk t =>
      obtain ⟨ok, s', hpush, hout⟩ := h.push allocOk t
      have hcall : s.call (.push allocOk t) = .ok (.pushed ok, s') := by
        show (s.push allocOk t >>= _) = _
        rw [hpush]
        rfl
      cases hout with
      | again ht => exact ⟨_, _, l, hcall, h, .again ht⟩
      | refused ht hfull hwhy =>
          exact ⟨_, _, l, hcall, h, .refused ht (by rw [hfull]; exact hwhy)⟩
      | stored ht hroom hlists hcap => exact ⟨_, _, _, hcall, hlists, .append ht⟩
      | grown ht hfull hok hlists hcap => exact ⟨_, _, _, hcall, hlists, .append ht⟩
  | pop =>
      obtain ⟨r, s', hpop, hout⟩ := h.pop
      have hcall : s.call .pop = .ok (.popped r, s') := by
        show (s.pop >>= _) = _
        rw [hpop]
        rfl
      rcases hout with ⟨rfl, rfl, rfl⟩ | ⟨t, rest, rfl, rfl, hlists, _⟩
      · exact ⟨_, _, [], hcall, h, .empty⟩
      · exact ⟨_, _, rest, hcall, hlists, .first⟩

/-- What a sequence of calls does. -/
theorem calls (moves : List QueueMove) : ∀ {s : QueueState} {l : List TaskId}, s.Lists l →
    ∃ results s' l', s.calls moves = .ok (results, s') ∧ s'.Lists l' ∧
      FifoRun l moves results l' := by
  induction moves with
  | nil =>
      intro s l h
      exact ⟨[], s, l, rfl, h, .nil⟩
  | cons a moves ih =>
      intro s l h
      obtain ⟨r, s1, l1, hcall, h1, hstep⟩ := h.call a
      obtain ⟨results, s', l', hcalls, h', hrun⟩ := ih h1
      refine ⟨r :: results, s', l', ?_, h', .cons hstep hrun⟩
      rw [QueueState.calls, hcall]
      show (s1.calls moves >>= _) = _
      rw [hcalls]
      rfl

end Lists

end QueueState

/-- **The run queue is a FIFO of distinct tasks.**  From a queue made by `task_queue_init`
with any capacity, and whatever pushes and pops follow, with whatever outcomes of the
allocations: no call faults; the results and the contents are those of the abstract queue;
the contents are distinct, and a task's flag says whether it is among them; the indices lie
inside the array, and no index computation leaves `size_t`; and a push that returns `false`
next would leave the queue and all flags as they are. -/
theorem run_queue_is_fifo {allocOk : Bool} {capacity : Nat} {q : TaskQueue}
    (hinit : TaskQueue.init allocOk capacity = some q) (moves : List QueueMove) :
    ∃ results s, QueueState.calls ⟨q, fun _ => false⟩ moves = .ok (results, s) ∧
      FifoRun [] moves results s.queue.contents ∧
      s.queue.contents.Nodup ∧
      (∀ t, s.queued t = true ↔ t ∈ s.queue.contents) ∧
      (s.queue.tasks.length = s.queue.capacity ∧ s.queue.head < s.queue.capacity ∧
        s.queue.tail < s.queue.capacity ∧ s.queue.count ≤ s.queue.capacity) ∧
      (∀ i ≤ s.queue.capacity,
        s.queue.head + i ≤ sizeMax ∧ i + 1 ≤ sizeMax ∧ s.queue.capacity * 2 ≤ sizeMax) ∧
      ∀ t again s', s.push again t = .ok (false, s') → s' = s := by
  obtain ⟨results, s, l, hcalls, h, hrun⟩ :=
    QueueState.Lists.calls moves (QueueState.Lists.init hinit)
  have hl := h.ring.contents_eq
  refine ⟨results, s, hcalls, by rw [hl]; exact hrun, by rw [hl]; exact h.nodup,
    by rw [hl]; exact h.flags, ⟨h.ring.cells, h.ring.holds.head_lt, ?_, ?_⟩,
    fun i => h.ring.index_fits, ?_⟩
  · rw [h.ring.tail_eq]
    exact Nat.mod_lt _ h.ring.pos
  · rw [h.ring.count_eq]
    exact h.ring.length_le
  · intro t again s' hpush
    obtain ⟨ok, s1, hpush', hout⟩ := h.push again t
    rw [hpush] at hpush'
    obtain ⟨rfl, rfl⟩ := Prod.mk.inj (Except.ok.inj hpush')
    cases hout
    rfl

/-- A ring of one cell grows while it is full, is emptied past its end and takes a third
task at a head that is not zero; the second push of a queued task changes nothing. -/
def queueMoves : List QueueMove :=
  [.push true 4, .push true 4, .push false 5, .push true 5, .pop, .push true 6, .push true 7]

theorem run_queue_is_fifo_wrapped :
    ∃ q results s, TaskQueue.init true 1 = some q ∧
      QueueState.calls ⟨q, fun _ => false⟩ queueMoves = .ok (results, s) ∧
      results = [.pushed true, .pushed true, .pushed false, .pushed true, .popped (some 4),
        .pushed true, .pushed true] ∧
      s.queue.contents = [5, 6, 7] ∧ FifoRun [] queueMoves results s.queue.contents := by
  have hinit : TaskQueue.init true 1 = some ⟨[none], 1, 0, 0, 0⟩ := by decide
  obtain ⟨results, s, hcalls, hrun, _⟩ := run_queue_is_fifo hinit queueMoves
  have heval : (QueueState.calls ⟨⟨[none], 1, 0, 0, 0⟩, fun _ => false⟩ queueMoves).map
      (fun r => (r.1, r.2.queue.contents)) = .ok ([.pushed true, .pushed true, .pushed false,
        .pushed true, .popped (some 4), .pushed true, .pushed true], [5, 6, 7]) := by
    decide +kernel
  rw [hcalls] at heval
  obtain ⟨hresults, hcontents⟩ := Prod.mk.inj (Except.ok.inj heval)
  exact ⟨_, results, s, hinit, hcalls, hresults, hcontents, hrun⟩

/-! ## The queue of the scheduler -/

/-- The ring stands for the scheduler's run queue and its flags. -/
structure QueueState.Realizes (q : QueueState) (s : Sys) : Prop where
  lists : q.Lists s.runq.tasks
  capacity : q.queue.capacity = s.runq.capacity
  flags : ∀ t, q.queued t = (s.tasks t).queued

namespace QueueState.Realizes

variable {q : QueueState} {s : Sys}

/-- The queue the runtime starts with. -/
theorem initial {allocOk : Bool} {capacity : Nat} {q : TaskQueue}
    (h : TaskQueue.init allocOk capacity = some q) (backend : Backend) (wakeFd : Int)
    (workers ioCapacity : Nat) :
    QueueState.Realizes ⟨q, fun _ => false⟩
      (Croutine.initial backend wakeFd workers capacity ioCapacity) :=
  ⟨QueueState.Lists.init h, (TaskQueue.init_represents h).2, fun _ => rfl⟩

/-- The state after a task was stored, in a ring of any capacity. -/
theorem appended {q' : QueueState} {t : TaskId} {c : Nat}
    (hlists : q'.Lists (s.runq.tasks ++ [t])) (hcap : q'.queue.capacity = c)
    (h : q.Realizes s) : q'.Realizes (taskQueueAppend s { s.runq with capacity := c } t) := by
  refine ⟨hlists, hcap, fun u => ?_⟩
  rw [Bool.eq_iff_iff, hlists.flags, List.mem_append, List.mem_singleton]
  by_cases hu : u = t
  · simp [hu, taskQueueAppend, Sys.setTask]
  · simp [hu, taskQueueAppend, Sys.setTask, ← h.flags, h.lists.flags]

/-- **A push of the scheduler is a push of the ring**, where growing succeeds if the
allocation does. -/
theorem push (h : q.Realizes s) {o : Oracle} {allocOk : Bool}
    (hgrow : o.grow s.runq.capacity = (allocOk && decide (s.runq.capacity * 2 * 8 ≤ sizeMax)))
    (t : TaskId) :
    ∃ ok q', q.push allocOk t = .ok (ok, q') ∧
      ((ok = false ∧ taskQueuePush o s t = none ∧ q' = q) ∨
        (ok = true ∧ ∃ s', taskQueuePush o s t = some s' ∧ q'.Realizes s')) := by
  obtain ⟨ok, q', hpush, hout⟩ := h.lists.push allocOk t
  refine ⟨ok, q', hpush, ?_⟩
  have hpos : s.runq.capacity ≠ 0 := by
    rw [← h.capacity]
    exact Nat.ne_of_gt h.lists.ring.pos
  have hflag : (s.tasks t).queued = true ↔ t ∈ s.runq.tasks := by
    rw [← h.flags]
    exact h.lists.flags t
  unfold taskQueuePush
  rw [if_neg hpos]
  cases hout with
  | again ht =>
      rw [if_pos (hflag.mpr ht)]
      exact .inr ⟨rfl, s, rfl, h⟩
  | refused ht hfull hwhy =>
      rw [h.capacity] at hfull hwhy
      have hno : o.grow s.runq.capacity = false := by
        rw [hgrow, Bool.and_eq_false_iff, decide_eq_false_iff_not]
        exact hwhy.imp_right Nat.not_le_of_lt
      rw [if_neg (mt hflag.mp ht), if_pos hfull, taskQueueGrow, hno]
      exact .inl ⟨rfl, rfl, rfl⟩
  | stored ht hroom hlists hcap =>
      rw [h.capacity] at hroom hcap
      rw [if_neg (mt hflag.mp ht), if_neg (Nat.ne_of_lt hroom)]
      exact .inr ⟨rfl, _, rfl, appended hlists hcap h⟩
  | grown ht hfull hok hlists hcap =>
      rw [h.capacity] at hfull hcap
      have hyes : o.grow s.runq.capacity = true := by
        have hfits := hlists.ring.fits
        rw [hcap] at hfits
        rw [hgrow, hok, Bool.true_and, decide_eq_true_eq]
        exact hfits
      rw [if_neg (mt hflag.mp ht), if_pos hfull, taskQueueGrow, if_pos hyes, if_neg hpos]
      exact .inr ⟨rfl, _, rfl, appended hlists hcap h⟩

/-- **A pop of the scheduler is a pop of the ring.** -/
theorem pop (h : q.Realizes s) :
    ∃ r q', q.pop = .ok (r, q') ∧
      ((r = none ∧ taskQueuePop s = none ∧ q' = q) ∨
        ∃ t s', r = some t ∧ taskQueuePop s = some (t, s') ∧ q'.Realizes s') := by
  obtain ⟨r, q', hpop, hout⟩ := h.lists.pop
  refine ⟨r, q', hpop, ?_⟩
  unfold taskQueuePop
  rcases hout with ⟨hnil, rfl, rfl⟩ | ⟨t, rest, hcons, rfl, hlists, hcap⟩
  · rw [hnil]
    exact .inl ⟨rfl, rfl, rfl⟩
  · rw [hcons]
    refine .inr ⟨t, _, rfl, rfl, hlists, hcap.trans h.capacity, fun u => ?_⟩
    have hnodup := h.lists.nodup
    have hflag := h.lists.flags u
    rw [hcons] at hnodup hflag
    rw [Bool.eq_iff_iff, hlists.flags]
    by_cases hu : u = t
    · simp [hu, Sys.setTask, (List.nodup_cons.mp hnodup).1]
    · simp [hu, Sys.setTask, ← h.flags, hflag]

end QueueState.Realizes

end Croutine
