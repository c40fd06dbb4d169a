import Croutine.Lib.Intrusive
import Croutine.WaitQueues

/-!
# The wait queues as linked waiters

The queues of all channels as `channel.c` has them: a heap of waiters with `prev`, `next`
and `channel` fields, and for each channel and operation a `struct ChannelWaitQueue` with
the two ends.  The four queue functions write these fields one by one.

`Represents` says that every queue is a list of waiters: its fields are those of the list's
neighbours, and no waiter is in two queues.  Appending, removing the first and removing any
waiter of a queue act on the list, and leave the lists of the other queues alone.

The model of the channels keeps the lists only.  The last section shows that its queue
operations are what the pointers do.
-/

namespace Croutine

open Intrusive

/-- A queue: the channel and the operation whose waiters it has. -/
abbrev QueueId := ChanId × Direction

/-- `struct ChannelWaitQueue`. -/
structure WaitQueue where
  head : Option WaiterId
  tail : Option WaiterId
  deriving DecidableEq

/-- All waiters with their `prev` and `next` fields, the states of the selects, and the
queues. -/
structure WaitHeap where
  waiter : WaiterId → Waiter
  links : Links WaiterId
  select : CallId → SelectState
  queue : QueueId → WaitQueue

namespace WaitHeap

/-! ## The code -/

def setPrev (h : WaitHeap) (w : WaiterId) (p : Option WaiterId) : WaitHeap :=
  { h with links := { h.links with prev := Function.update h.links.prev w p } }

def setNext (h : WaitHeap) (w : WaiterId) (n : Option WaiterId) : WaitHeap :=
  { h with links := { h.links with next := Function.update h.links.next w n } }

def setChannel (h : WaitHeap) (w : WaiterId) (c : Option ChanId) : WaitHeap :=
  { h with waiter := Function.update h.waiter w { h.waiter w with channel := c } }

def setHead (h : WaitHeap) (q : QueueId) (w : Option WaiterId) : WaitHeap :=
  { h with queue := Function.update h.queue q { h.queue q with head := w } }

def setTail (h : WaitHeap) (q : QueueId) (w : Option WaiterId) : WaitHeap :=
  { h with queue := Function.update h.queue q { h.queue q with tail := w } }

/-- The last three writes of a removal. -/
def clear (h : WaitHeap) (w : WaiterId) : WaitHeap :=
  ((h.setPrev w none).setNext w none).setChannel w none

def waitQueuePushTail (h : WaitHeap) (q : QueueId) (w : WaiterId) (channel : ChanId) :
    WaitHeap :=
  let h := ((h.setPrev w (h.queue q).tail).setNext w none).setChannel w (some channel)
  let h := match (h.queue q).tail with
    | some t => h.setNext t (some w)
    | none => h.setHead q (some w)
  h.setTail q (some w)

def waitQueuePopHead (h : WaitHeap) (q : QueueId) : Option WaiterId × WaitHeap :=
  match (h.queue q).head with
  | none => (none, h)
  | some w =>
    let h := h.setHead q (h.links.next w)
    let h := match (h.queue q).head with
      | some n => h.setPrev n none
      | none => h.setTail q none
    (some w, h.clear w)

def waitQueueUnlink (h : WaitHeap) (q : QueueId) (w : WaiterId) : WaitHeap :=
  let h := match h.links.prev w with
    | some p => h.setNext p (h.links.next w)
    | none => if (h.queue q).head = some w then h.setHead q (h.links.next w) else h
  let h := match h.links.next w with
    | some n => h.setPrev n (h.links.prev w)
    | none => if (h.queue q).tail = some w then h.setTail q (h.links.prev w) else h
  h.clear w

/-- A select waiter whose select has fired already. -/
def dead (h : WaitHeap) (w : WaiterId) : Bool :=
  match (h.waiter w).kind, (h.waiter w).state with
  | .select, some k => (h.select k).done
  | _, _ => false

/-- The loop of `pop_live_waiter_locked`; `none` when it runs out of `fuel` rounds. -/
def popLiveWaiterLocked : Nat → WaitHeap → QueueId → Option (Option WaiterId × WaitHeap)
  | 0, _, _ => none
  | fuel + 1, h, q =>
    match h.waitQueuePopHead q with
    | (none, h) => some (none, h)
    | (some w, h) => if h.dead w then popLiveWaiterLocked fuel h q else some (some w, h)

/-- One round of `scrub_select_waiters`. -/
def scrubWaiter (call : CallId) (h : WaitHeap) (i : Nat) : WaitHeap :=
  match (h.waiter ⟨call, i⟩).channel with
  | none => h
  | some c => h.waitQueueUnlink (c, (h.waiter ⟨call, i⟩).op.direction) ⟨call, i⟩

def scrubSelectWaiters (call : CallId) (n : Nat) (h : WaitHeap) : WaitHeap :=
  (List.range n).foldl (scrubWaiter call) h

/-! ## Queues as lists -/

/-- The fields of a waiter that is in no queue any more. -/
structure Cleared (h : WaitHeap) (w : WaiterId) : Prop where
  prev : h.links.prev w = none
  next : h.links.next w = none
  channel : (h.waiter w).channel = none

theorem cleared_clear (h : WaitHeap) (w : WaiterId) : (h.clear w).Cleared w :=
  ⟨Function.update_self .., Function.update_self .., by simp [clear, setChannel]⟩

/-- Every queue is the list of its waiters, and no waiter is in two of them. -/
structure Represents (h : WaitHeap) (lists : QueueId → List WaiterId) : Prop where
  head : ∀ q, (h.queue q).head = (lists q).head?
  tail : ∀ q, (h.queue q).tail = (lists q).getLast?
  chained : ∀ q, Chained h.links (lists q)
  nodup : ∀ q, (lists q).Nodup
  apart : ∀ q q' w, w ∈ lists q → w ∈ lists q' → q = q'

/-- Following `next` from the head visits the list and ends, and following `prev` from the
tail visits it backwards and ends. -/
def Walks (h : WaitHeap) (q : QueueId) (l : List WaiterId) : Prop :=
  ∀ fuel, l.length ≤ fuel →
    walk h.links.next fuel (h.queue q).head = l ∧
      walk h.links.prev fuel (h.queue q).tail = l.reverse

namespace Represents

variable {h : WaitHeap} {lists : QueueId → List WaiterId} {q : QueueId} {w : WaiterId}

theorem walks (hr : h.Represents lists) (q : QueueId) : h.Walks q (lists q) := by
  intro fuel hfuel
  rw [hr.head, hr.tail]
  exact ⟨(hr.chained q).walk_eq hfuel, (hr.chained q).walk_prev_eq hfuel⟩

/-- Writes to the waiters of one queue and to one waiter of no other queue leave the other
queues alone, so only the list of that queue is to be checked. -/
theorem update {h' : WaitHeap} {l : List WaiterId} (hr : h.Represents lists)
    (hmem : ∀ x ∈ l, x ∈ lists q ∨ ∀ q', x ∉ lists q')
    (hqueue : ∀ q' ≠ q, h'.queue q' = h.queue q')
    (hlinks : ∀ q' ≠ q, ∀ x ∈ lists q',
      h'.links.prev x = h.links.prev x ∧ h'.links.next x = h.links.next x)
    (hhead : (h'.queue q).head = l.head?) (htail : (h'.queue q).tail = l.getLast?)
    (hchained : Chained h'.links l) (hnodup : l.Nodup) :
    h'.Represents (Function.update lists q l) := by
  have hother : ∀ q' ≠ q, Function.update lists q l q' = lists q' :=
    fun q' hq => Function.update_of_ne hq _ _
  have hself : Function.update lists q l q = l := Function.update_self ..
  -- a waiter of the new list is in no other queue
  have hapart : ∀ x ∈ l, ∀ q' ≠ q, x ∉ lists q' := by
    intro x hx q' hq hx'
    rcases hmem x hx with hin | hout
    · exact hq (hr.apart q' q x hx' hin)
    · exact hout q' hx'
  refine ⟨fun q' => ?_, fun q' => ?_, fun q' => ?_, fun q' => ?_, fun q1 q2 x h1 h2 => ?_⟩
  · by_cases hq : q' = q
    · rw [hq, hself, hhead]
    · rw [hother q' hq, hqueue q' hq, hr.head]
  · by_cases hq : q' = q
    · rw [hq, hself, htail]
    · rw [hother q' hq, hqueue q' hq, hr.tail]
  · by_cases hq : q' = q
    · rw [hq, hself]
      exact hchained
    · rw [hother q' hq]
      exact (hr.chained q').congr (hlinks q' hq)
  · by_cases hq : q' = q
    · rw [hq, hself]
      exact hnodup
    · rw [hother q' hq]
      exact hr.nodup q'
  · by_cases hq1 : q1 = q
    · by_cases hq2 : q2 = q
      · rw [hq1, hq2]
      · rw [hq1, hself] at h1
        rw [hother q2 hq2] at h2
        exact absurd h2 (hapart x h1 q2 hq2)
    · rw [hother q1 hq1] at h1
      by_cases hq2 : q2 = q
      · rw [hq2, hself] at h2
        exact absurd h1 (hapart x h2 q1 hq1)
      · rw [hother q2 hq2] at h2
        exact hr.apart q1 q2 x h1 h2

/-! ### Appending -/

/-- The writes of an append, together. -/
theorem pushTail_eq (h : WaitHeap) (q : QueueId) (w : WaiterId) (channel : ChanId) :
    h.waitQueuePushTail q w channel =
      { waiter := Function.update h.waiter w { h.waiter w with channel := some channel }
        links := { h.links with next := Function.update h.links.next w none }.connect
          (h.queue q).tail (some w)
        select := h.select
        queue := Function.update h.queue q
          ⟨if (h.queue q).tail = none then some w else (h.queue q).head, some w⟩ } := by
  unfold waitQueuePushTail
  cases htail : (h.queue q).tail with
  | none => simp [setPrev, setNext, setChannel, setHead, setTail, Links.connect, htail]
  | some t => simp [setPrev, setNext, setChannel, setTail, Links.connect, htail]

/-- **Appending** a waiter that is in no queue. -/
theorem pushTail (hr : h.Represents lists) (hw : ∀ q', w ∉ lists q') (channel : ChanId) :
    (h.waitQueuePushTail q w channel).Represents
      (Function.update lists q (lists q ++ [w])) := by
  have hfresh : Chained { h.links with next := Function.update h.links.next w none }
      (lists q) := by
    refine (hr.chained q).congr fun x hx => ⟨rfl, Function.update_of_ne ?_ _ _⟩
    rintro rfl
    exact hw q hx
  rw [pushTail_eq]
  refine hr.update ?_ ?_ ?_ ?_ ?_ ?_ ?_
  · intro x hx
    rcases List.mem_append.mp hx with hin | hnew
    · exact .inl hin
    · rw [List.mem_singleton.mp hnew]
      exact .inr hw
  · exact fun q' hq => Function.update_of_ne hq _ _
  · intro q' hq x hx
    have hxw : some w ≠ some x := by
      rintro ⟨⟩
      exact hw q' hx
    have htail : (h.queue q).tail ≠ some x := by
      rw [hr.tail]
      exact fun heq => hq (hr.apart q' q x hx (List.mem_of_getLast? heq))
    refine ⟨Links.connect_prev _ hxw, (Links.connect_next _ htail).trans ?_⟩
    exact Function.update_of_ne (fun heq => hxw (congrArg some heq.symm)) _ _
  · show (Function.update h.queue q _ q).head = _
    rw [Function.update_self, hr.tail, hr.head]
    cases lists q with
    | nil => rfl
    | cons x l => simp
  · show (Function.update h.queue q _ q).tail = _
    rw [Function.update_self, List.getLast?_concat]
  · rw [hr.tail]
    exact hfresh.pushBack (hr.nodup q) (hw q) (Function.update_self ..)
  · exact List.nodup_append.mpr ⟨hr.nodup q, List.nodup_singleton w, fun x hx y hy => by
      rw [List.mem_singleton.mp hy]
      rintro rfl
      exact hw q hx⟩

/-! ### Removing -/

/-- The writes of a removal, together. -/
theorem unlink_eq (hr : h.Represents lists) (hw : w ∈ lists q) :
    h.waitQueueUnlink q w =
      { waiter := Function.update h.waiter w { h.waiter w with channel := none }
        links :=
          ⟨Function.update (h.links.connect (h.links.prev w) (h.links.next w)).next w none,
            Function.update (h.links.connect (h.links.prev w) (h.links.next w)).prev w none⟩
        select := h.select
        queue := Function.update h.queue q
          ⟨if h.links.prev w = none then h.links.next w else (h.queue q).head,
            if h.links.next w = none then h.links.prev w else (h.queue q).tail⟩ } := by
  obtain ⟨front, back, hsplit⟩ := List.append_of_mem hw
  have hnodup := hr.nodup q
  rw [hsplit] at hnodup
  obtain ⟨hprev, hnext⟩ := hr.chained q front w back hsplit
  have hhead := hr.head q
  have htail := hr.tail q
  rw [hsplit] at hhead htail
  have hp : ∀ p, h.links.prev w = some p → w ≠ p := by
    rintro p hp rfl
    rw [hprev] at hp
    exact (List.nodup_append.mp hnodup).2.2 _ (List.mem_of_getLast? hp) _ List.mem_cons_self rfl
  have hfirst : h.links.prev w = none → (h.queue q).head = some w := by
    intro hnone
    rw [hprev, List.getLast?_eq_none_iff] at hnone
    rw [hhead, hnone]
    rfl
  have hlast : h.links.next w = none → (h.queue q).tail = some w := by
    intro hnone
    rw [hnext, List.head?_eq_none_iff] at hnone
    rw [htail, hnone, List.getLast?_concat]
  unfold waitQueueUnlink
  cases hprev' : h.links.prev w with
  | none =>
      have hhead' := hfirst hprev'
      cases hnext' : h.links.next w with
      | none =>
          have htail' := hlast hnext'
          simp [setHead, setTail, setPrev, setNext, setChannel, clear, Links.connect, hprev',
            hnext', hhead', htail']
      | some n =>
          simp [setHead, setPrev, setNext, setChannel, clear, Links.connect, hprev', hnext',
            hhead']
  | some p =>
      have hne := hp p hprev'
      cases hnext' : h.links.next w with
      | none =>
          have htail' := hlast hnext'
          simp [setTail, setPrev, setNext, setChannel, clear, Links.connect, hprev', hnext',
            htail', hne]
      | some n =>
          simp [setPrev, setNext, setChannel, clear, Links.connect, hprev', hnext', hne]

/-- The waiters outside the queue are neither removed nor neighbours, so they stay as they
are. -/
theorem unlink_other {x : WaiterId} (hr : h.Represents lists) (hw : w ∈ lists q)
    (hx : x ∉ lists q) :
    (h.waitQueueUnlink q w).links.prev x = h.links.prev x ∧
      (h.waitQueueUnlink q w).links.next x = h.links.next x ∧
      (h.waitQueueUnlink q w).waiter x = h.waiter x := by
  obtain ⟨front, back, hsplit⟩ := List.append_of_mem hw
  obtain ⟨hprev, hnext⟩ := hr.chained q front w back hsplit
  rw [hsplit] at hx
  have hxw : x ≠ w := fun heq => hx (by rw [heq]; simp)
  have hp : h.links.prev w ≠ some x := by
    rw [hprev]
    exact fun heq => hx (List.mem_append_left _ (List.mem_of_getLast? heq))
  have hn : h.links.next w ≠ some x := by
    rw [hnext]
    exact fun heq => hx
      (List.mem_append_right _ (List.mem_cons_of_mem _ (List.mem_of_mem_head? heq)))
  rw [hr.unlink_eq hw]
  exact ⟨(Function.update_of_ne hxw _ _).trans (Links.connect_prev _ hn),
    (Function.update_of_ne hxw _ _).trans (Links.connect_next _ hp),
    Function.update_of_ne hxw _ _⟩

/-- **Removing** a waiter from wherever it is in its queue. -/
theorem unlink (hr : h.Represents lists) (hw : w ∈ lists q) :
    (h.waitQueueUnlink q w).Represents (Function.update lists q ((lists q).erase w)) := by
  obtain ⟨front, back, hsplit⟩ := List.append_of_mem hw
  have hnodup := hr.nodup q
  have hchained := hr.chained q
  have hhead := hr.head q
  have htail := hr.tail q
  rw [hsplit] at hnodup hchained hhead htail
  obtain ⟨hprev, hnext⟩ := hchained front w back rfl
  have hfront : w ∉ front := fun hmem =>
    (List.nodup_append.mp hnodup).2.2 w hmem w List.mem_cons_self rfl
  have hback : w ∉ back := (List.nodup_cons.mp (List.nodup_append.mp hnodup).2.1).1
  have herase : (lists q).erase w = front ++ back := by
    rw [hsplit, List.erase_append_right _ hfront, List.erase_cons_head]
  rw [hr.unlink_eq hw, herase]
  refine hr.update ?_ ?_ ?_ ?_ ?_ ?_ ?_
  · intro x hx
    left
    rw [hsplit]
    rcases List.mem_append.mp hx with hx | hx
    · exact List.mem_append_left _ hx
    · exact List.mem_append_right _ (List.mem_cons_of_mem _ hx)
  · exact fun q' hq => Function.update_of_ne hq _ _
  · intro q' hq x hx
    obtain ⟨hp, hn, _⟩ := hr.unlink_other hw fun hmem => hq (hr.apart q' q x hx hmem)
    rw [hr.unlink_eq hw] at hp hn
    exact ⟨hp, hn⟩
  · show (Function.update h.queue q _ q).head = _
    rw [Function.update_self]
    dsimp only
    rw [hprev, hnext, hhead]
    cases front with
    | nil => rfl
    | cons x front => simp
  · show (Function.update h.queue q _ q).tail = _
    rw [Function.update_self]
    dsimp only
    rw [hprev, hnext, htail]
    cases back with
    | nil => simp
    | cons x back => simp [List.getLast?_append]
  · refine (hchained.remove hnodup).congr fun x hx => ?_
    have hxw : x ≠ w := by
      rintro rfl
      exact (List.mem_append.mp hx).elim hfront hback
    exact ⟨Function.update_of_ne hxw _ _, Function.update_of_ne hxw _ _⟩
  · exact hnodup.sublist ((List.sublist_cons_self w back).append_left front)

theorem popHead_nil (hr : h.Represents lists) (hlist : lists q = []) :
    h.waitQueuePopHead q = (none, h) := by
  have hhead := hr.head q
  rw [hlist] at hhead
  unfold waitQueuePopHead
  rw [hhead]
  rfl

/-- Popping unlinks the first waiter. -/
theorem popHead_cons {rest : List WaiterId} (hr : h.Represents lists)
    (hlist : lists q = w :: rest) : h.waitQueuePopHead q = (some w, h.waitQueueUnlink q w) := by
  have hhead := hr.head q
  rw [hlist] at hhead
  obtain ⟨hprev, hnext⟩ := hr.chained q [] w rest hlist
  have hmem : w ∈ lists q := by
    rw [hlist]
    exact List.mem_cons_self
  unfold waitQueuePopHead
  rw [hr.unlink_eq hmem, hhead, hprev, hnext]
  cases rest with
  | nil =>
      simp [setHead, setTail, setPrev, setNext, setChannel, clear, Links.connect, hnext]
  | cons n rest =>
      simp [setHead, setPrev, setNext, setChannel, clear, Links.connect, hnext]

/-- Removing a waiter does not change which waiters are dead. -/
theorem unlink_dead (hr : h.Represents lists) (hw : w ∈ lists q) :
    (h.waitQueueUnlink q w).dead = h.dead := by
  rw [hr.unlink_eq hw]
  funext x
  by_cases hx : x = w
  · simp [dead, hx]
  · simp [dead, hx]

/-- **The loop over dead waiters ends** with the first that is not, after removing exactly
the dead ones before it; every waiter it took off the queue is cleared. -/
theorem popLive (l : List WaiterId) :
    ∀ {h : WaitHeap} {lists : QueueId → List WaiterId} {fuel : Nat}, h.Represents lists →
      lists q = l → l.length < fuel →
      ∃ h', popLiveWaiterLocked fuel h q = some ((l.dropWhile h.dead).head?, h') ∧
        h'.Represents (Function.update lists q (l.dropWhile h.dead).tail) ∧
        (∀ x ∈ l, x ∉ (l.dropWhile h.dead).tail → h'.Cleared x) ∧
        ∀ x, x ∉ l → h'.links.prev x = h.links.prev x ∧ h'.links.next x = h.links.next x ∧
          h'.waiter x = h.waiter x := by
  induction l with
  | nil =>
      intro h lists fuel hr hlist hfuel
      obtain ⟨n, rfl⟩ : ∃ n, fuel = n + 1 := ⟨fuel - 1, by simp at hfuel; omega⟩
      refine ⟨h, ?_, ?_, fun x hx => absurd hx List.not_mem_nil, fun x _ => ⟨rfl, rfl, rfl⟩⟩
      · rw [popLiveWaiterLocked, hr.popHead_nil hlist]
        rfl
      · rw [List.dropWhile_nil, List.tail_nil, ← hlist, Function.update_eq_self]
        exact hr
  | cons w rest ih =>
      intro h lists fuel hr hlist hfuel
      rw [List.length_cons] at hfuel
      obtain ⟨n, rfl⟩ : ∃ n, fuel = n + 1 := ⟨fuel - 1, by omega⟩
      have hw : w ∈ lists q := by
        rw [hlist]
        exact List.mem_cons_self
      have hnodup := hr.nodup q
      rw [hlist] at hnodup
      have hwrest := (List.nodup_cons.mp hnodup).1
      have hunlinked := hr.unlink hw
      rw [hlist, List.erase_cons_head] at hunlinked
      have hcleared : (h.waitQueueUnlink q w).Cleared w := cleared_clear _ w
      have hother : ∀ x, x ∉ w :: rest → _ := fun x hx => hr.unlink_other (x := x) hw (hlist ▸ hx)
      rw [popLiveWaiterLocked, hr.popHead_cons hlist]
      dsimp only
      rw [hr.unlink_dead hw]
      cases hdead : h.dead w with
      | false =>
          rw [List.dropWhile_cons_of_neg (by rw [hdead]; exact Bool.false_ne_true)]
          refine ⟨_, rfl, hunlinked, fun x hx hgone => ?_, hother⟩
          rcases List.mem_cons.mp hx with rfl | hx
          · exact hcleared
          · exact absurd hx hgone
      | true =>
          rw [List.dropWhile_cons_of_pos hdead]
          obtain ⟨h', hpop, hr', hgone, hsame⟩ :=
            ih hunlinked (Function.update_self ..) (Nat.lt_of_succ_lt_succ hfuel)
          rw [hr.unlink_dead hw] at hpop hr' hgone
          rw [Function.update_idem] at hr'
          refine ⟨h', hpop, hr', fun x hx hout => ?_, fun x hx => ?_⟩
          · rcases List.mem_cons.mp hx with rfl | hx
            · obtain ⟨hp, hn, hc⟩ := hsame x hwrest
              exact ⟨hp.trans hcleared.prev, hn.trans hcleared.next,
                (congrArg Waiter.channel hc).trans hcleared.channel⟩
            · exact hgone x hx hout
          · obtain ⟨hp, hn, hc⟩ := hsame x fun hmem => hx (List.mem_cons_of_mem _ hmem)
            obtain ⟨hp', hn', hc'⟩ := hother x hx
            exact ⟨hp.trans hp', hn.trans hn', hc.trans hc'⟩

end Represents

end WaitHeap

/-! ## Sequences of calls -/

/-- A call of a queue function, or a write of another function to the fields that
`pop_live_waiter_locked` reads. -/
inductive LinkMove where
  | pushTail (q : QueueId) (w : WaiterId) (channel : ChanId)
  | popHead (q : QueueId)
  | unlink (q : QueueId) (w : WaiterId)
  | popLive (q : QueueId) (fuel : Nat)
  | assign (w : WaiterId) (kind : WaiterKind) (state : Option CallId)
  | setSelect (k : CallId) (state : SelectState)

namespace LinkMove

/-- What a move returns and leaves; `none` if the loop of `pop_live_waiter_locked` did not
end within its fuel. -/
def onHeap (h : WaitHeap) : LinkMove → Option (Option WaiterId × WaitHeap)
  | .pushTail q w channel => some (none, h.waitQueuePushTail q w channel)
  | .popHead q => some (h.waitQueuePopHead q)
  | .unlink q w => some (none, h.waitQueueUnlink q w)
  | .popLive q fuel => h.popLiveWaiterLocked fuel q
  | .assign w kind state =>
    some (none, { h with
      waiter := Function.update h.waiter w { h.waiter w with kind := kind, state := state } })
  | .setSelect k state => some (none, { h with select := Function.update h.select k state })

/-- What a move is on a family of lists: append, remove the first, remove that element, and
remove the dead elements in front and the first that is not dead. -/
def onLists (dead : WaiterId → Bool) (lists : QueueId → List WaiterId) :
    LinkMove → Option WaiterId × (QueueId → List WaiterId)
  | .pushTail q w _ => (none, Function.update lists q (lists q ++ [w]))
  | .popHead q => ((lists q).head?, Function.update lists q (lists q).tail)
  | .unlink q w => (none, Function.update lists q ((lists q).erase w))
  | .popLive q _ =>
    (((lists q).dropWhile dead).head?, Function.update lists q ((lists q).dropWhile dead).tail)
  | .assign .. | .setSelect .. => (none, lists)

/-- A waiter is appended only while it is in no queue, and unlinked only from the queue it
is in.  The loop is given more rounds than the queue has waiters. -/
def legal (lists : QueueId → List WaiterId) : LinkMove → Prop
  | .pushTail _ w _ => ∀ q, w ∉ lists q
  | .unlink q w => w ∈ lists q
  | .popLive q fuel => (lists q).length < fuel
  | .popHead _ | .assign .. | .setSelect .. => True

/-- **One move** returns and does to the heap what it does to the lists, and the waiters it
takes off their queue are cleared. -/
theorem represents {h : WaitHeap} {lists : QueueId → List WaiterId} {move : LinkMove}
    (hr : h.Represents lists) (hlegal : move.legal lists) :
    ∃ h', move.onHeap h = some ((move.onLists h.dead lists).1, h') ∧
      h'.Represents (move.onLists h.dead lists).2 ∧
      ∀ q w, w ∈ lists q → (∀ q', w ∉ (move.onLists h.dead lists).2 q') → h'.Cleared w := by
  -- a waiter that is in no queue afterwards was in the queue of the move
  have hgone : ∀ {q q' : QueueId} {l : List WaiterId} {w : WaiterId}, w ∈ lists q' →
      (∀ q1, w ∉ Function.update lists q l q1) → w ∈ lists q ∧ w ∉ l := by
    intro q q' l w hw hout
    by_cases hq : q' = q
    · subst hq
      have hself := hout q'
      rw [Function.update_self] at hself
      exact ⟨hw, hself⟩
    · have hother := hout q'
      rw [Function.update_of_ne hq] at hother
      exact absurd hw hother
  cases move with
  | pushTail q w channel =>
      refine ⟨_, rfl, hr.pushTail hlegal channel, fun q' x hx hout => ?_⟩
      obtain ⟨hin, hnew⟩ := hgone hx hout
      exact absurd (List.mem_append_left _ hin) hnew
  | popHead q =>
      cases hlist : lists q with
      | nil =>
          refine ⟨h, ?_, ?_, fun q' x hx hout => ?_⟩
          · simp only [onHeap, onLists, hr.popHead_nil hlist, hlist]
            rfl
          · simp only [onLists, hlist, List.tail_nil]
            rw [← hlist, Function.update_eq_self]
            exact hr
          · rw [onLists] at hout
            obtain ⟨hin, _⟩ := hgone hx hout
            rw [hlist] at hin
            exact absurd hin List.not_mem_nil
      | cons w rest =>
          have hw : w ∈ lists q := by
            rw [hlist]
            exact List.mem_cons_self
          have hunlinked := hr.unlink hw
          rw [hlist, List.erase_cons_head] at hunlinked
          refine ⟨h.waitQueueUnlink q w, ?_, ?_, fun q' x hx hout => ?_⟩
          · simp only [onHeap, onLists, hr.popHead_cons hlist, hlist]
            rfl
          · simp only [onLists, hlist, List.tail_cons]
            exact hunlinked
          · rw [onLists] at hout
            obtain ⟨hin, hrest⟩ := hgone hx hout
            rw [hlist] at hin hrest
            rcases List.mem_cons.mp hin with rfl | hin
            · exact WaitHeap.cleared_clear _ x
            · exact absurd hin hrest
  | unlink q w =>
      refine ⟨_, rfl, hr.unlink hlegal, fun q' x hx hout => ?_⟩
      rw [onLists] at hout
      obtain ⟨hin, hrest⟩ := hgone hx hout
      have hxw : x = w := by
        by_contra hne
        exact hrest ((List.mem_erase_of_ne hne).mpr hin)
      rw [hxw]
      exact WaitHeap.cleared_clear _ w
  | popLive q fuel =>
      obtain ⟨h', hpop, hr', hcleared, _⟩ :=
        WaitHeap.Represents.popLive (lists q) hr rfl hlegal
      refine ⟨h', hpop, hr', fun q' x hx hout => ?_⟩
      rw [onLists] at hout
      obtain ⟨hin, hrest⟩ := hgone hx hout
      exact hcleared x hin hrest
  | assign w kind state =>
      exact ⟨_, rfl, ⟨hr.head, hr.tail, hr.chained, hr.nodup, hr.apart⟩,
        fun q x hx hout => absurd hx (hout q)⟩
  | setSelect k state =>
      exact ⟨_, rfl, ⟨hr.head, hr.tail, hr.chained, hr.nodup, hr.apart⟩,
        fun q x hx hout => absurd hx (hout q)⟩

end LinkMove

/-- The waiters beside the family of lists that the moves make. -/
structure Queues where
  heap : WaitHeap
  lists : QueueId → List WaiterId

/-- Every sequence of moves, from empty queues and waiters with any contents. -/
def waitQueues : Machine Queues LinkMove where
  init x := (∀ q, x.heap.queue q = ⟨none, none⟩) ∧ ∀ q, x.lists q = []
  step x move :=
    match move.onHeap x.heap with
    | some (_, h) => .ok ⟨h, (move.onLists x.heap.dead x.lists).2⟩
    | none => .error .disabled

/-- The lists are those of the queues after any sequence of legal moves. -/
theorem Queues.represents {x : Queues}
    (hreach : waitQueues.ReachVia (fun x move => move.legal x.lists) x) :
    x.heap.Represents x.lists := by
  refine Machine.ReachVia.invariant (I := fun x => x.heap.Represents x.lists) ?_ ?_ hreach
  · intro x hinit
    refine ⟨fun q => ?_, fun q => ?_, fun q => ?_, fun q => ?_, fun q q' w hw => ?_⟩
    · rw [hinit.1, hinit.2]
      rfl
    · rw [hinit.1, hinit.2]
      rfl
    · rw [hinit.2]
      exact Chained.nil _
    · rw [hinit.2]
      exact List.nodup_nil
    · rw [hinit.2] at hw
      exact absurd hw List.not_mem_nil
  · intro x move x' _ hr hlegal hstep
    obtain ⟨h', hmove, hr', _⟩ := LinkMove.represents hr hlegal
    have hx' : x' = ⟨h', (move.onLists x.heap.dead x.lists).2⟩ := by
      dsimp only [waitQueues] at hstep
      rw [hmove] at hstep
      exact (Except.ok.inj hstep).symm
    rw [hx']
    exact hr'

/-- **The wait queue is a list.**  After every sequence of legal moves on any family of
queues, the pointers of each queue visit the list that the same moves make of empty lists,
in both directions; every further legal move returns what it returns on the lists, so the
loop over dead waiters ends, and leaves pointers that visit the new lists, which differ in
the queue of the move only; and a waiter that a move takes off its queue has `prev`, `next`
and `channel` null. -/
theorem wait_queue_is_list {x : Queues}
    (hreach : waitQueues.ReachVia (fun x move => move.legal x.lists) x) :
    (∀ q, x.heap.Walks q (x.lists q)) ∧
    ∀ move : LinkMove, move.legal x.lists →
      ∃ h', move.onHeap x.heap = some ((move.onLists x.heap.dead x.lists).1, h') ∧
        (∀ q, h'.Walks q ((move.onLists x.heap.dead x.lists).2 q)) ∧
        ∀ q w, w ∈ x.lists q → (∀ q', w ∉ (move.onLists x.heap.dead x.lists).2 q') →
          h'.Cleared w := by
  have hr := Queues.represents hreach
  refine ⟨hr.walks, fun move hlegal => ?_⟩
  obtain ⟨h', hmove, hr', hcleared⟩ := LinkMove.represents hr hlegal
  exact ⟨h', hmove, hr'.walks, hcleared⟩

/-- Two calls wait to receive from channel 0: a select, which has fired, and a receive. -/
def twoWaiting : Queues where
  heap :=
    { waiter := fun w => if w = ⟨0, 0⟩ then { kind := .select, state := some 0 } else {}
      links := ⟨fun _ => none, fun _ => none⟩
      select := fun _ => { done := true }
      queue := fun _ => ⟨none, none⟩ }
  lists := fun _ => []

def twoPushes : List LinkMove :=
  [.pushTail (0, .recv) ⟨0, 0⟩ 0, .pushTail (0, .recv) ⟨1, 0⟩ 0]

theorem wait_queue_is_list_dead_waiter :
    ∃ x h', waitQueues.ReachVia (fun x move => move.legal x.lists) x ∧
      x.heap.Walks (0, .recv) [⟨0, 0⟩, ⟨1, 0⟩] ∧
      (LinkMove.popLive (0, .recv) 3).onHeap x.heap = some (some ⟨1, 0⟩, h') ∧
      h'.Walks (0, .recv) [] ∧ h'.Cleared ⟨0, 0⟩ := by
  have hother : ∀ {l : List WaiterId} {w : WaiterId} (q : QueueId), w ∉ l →
      w ∉ Function.update (fun _ => []) ((0, .recv) : QueueId) l q := by
    intro l w q hw
    by_cases hq : q = (0, .recv)
    · rw [hq, Function.update_self]
      exact hw
    · rw [Function.update_of_ne hq]
      exact List.not_mem_nil
  have hreach : waitQueues.ReachVia (fun x move => move.legal x.lists)
      (waitQueues.after twoWaiting twoPushes) := by
    have hone : waitQueues.ReachVia (fun x move => move.legal x.lists)
        (waitQueues.after twoWaiting [.pushTail (0, .recv) ⟨0, 0⟩ 0]) :=
      .step (a := .pushTail (0, .recv) ⟨0, 0⟩ 0)
        (.init (s := twoWaiting) ⟨fun _ => rfl, fun _ => rfl⟩) (fun _ => List.not_mem_nil) rfl
    exact .step (a := .pushTail (0, .recv) ⟨1, 0⟩ 0) hone (fun q => hother q (by decide)) rfl
  obtain ⟨hwalks, hmoves⟩ := wait_queue_is_list hreach
  obtain ⟨h', hlive, hwalks', hcleared⟩ := hmoves (.popLive (0, .recv) 3) (by
    show ([⟨0, 0⟩, ⟨1, 0⟩] : List WaiterId).length < 3
    decide)
  have hleft : (LinkMove.popLive (0, .recv) 3).onLists
      (waitQueues.after twoWaiting twoPushes).heap.dead
      (waitQueues.after twoWaiting twoPushes).lists =
      (some ⟨1, 0⟩, Function.update (fun _ => []) (0, .recv) []) := by
    refine Prod.ext rfl ?_
    show Function.update (Function.update (Function.update (fun _ => []) _ _) _ _) _ [] = _
    rw [Function.update_idem, Function.update_idem]
  rw [hleft] at hlive hwalks' hcleared
  refine ⟨_, h', hreach, hwalks (0, .recv), hlive, hwalks' (0, .recv), ?_⟩
  exact hcleared (0, .recv) ⟨0, 0⟩ List.mem_cons_self fun q => hother q List.not_mem_nil

/-! ## The queues of the channel model -/

/-- The pointers stand for the queues of all channels. -/
structure WaitHeap.Realizes (h : WaitHeap) (κ : Chans) : Prop where
  represents : h.Represents fun q => κ.queue q.1 q.2
  waiter : h.waiter = κ.waiter
  select : h.select = κ.select

namespace WaitHeap.Realizes

variable {h : WaitHeap} {κ : Chans} {c : ChanId} {op : Direction} {w : WaiterId}

theorem queue_setQueue (l : List WaiterId) :
    (fun q : QueueId => (κ.setQueue c op l).queue q.1 q.2) =
      Function.update (fun q => κ.queue q.1 q.2) (c, op) l := by
  funext q
  have hq : q = (c, op) ↔ q.1 = c ∧ q.2 = op := Prod.ext_iff
  rw [Chans.queue_setQueue, Function.update_apply]
  exact if_congr hq.symm rfl rfl

/-- **Parking a waiter** is the append of the source. -/
theorem pushTail (hh : h.Realizes κ) (hw : ∀ c' op', w ∉ κ.queue c' op') :
    (h.waitQueuePushTail (c, op) w c).Realizes (κ.waitQueuePushTail c op w) := by
  have hr := hh.represents.pushTail (q := (c, op)) (fun q => hw q.1 q.2) c
  rw [← queue_setQueue] at hr
  refine ⟨hr, ?_, ?_⟩
  · rw [Represents.pushTail_eq, hh.waiter]
    rfl
  · rw [Represents.pushTail_eq, hh.select]
    rfl

/-- **Unlinking a waiter** of a queue is the removal of the source. -/
theorem unlink (hh : h.Realizes κ) (hw : w ∈ κ.queue c op) :
    (h.waitQueueUnlink (c, op) w).Realizes (κ.waitQueueUnlink c op w) := by
  have hr := hh.represents.unlink (q := (c, op)) hw
  rw [← queue_setQueue] at hr
  refine ⟨hr, ?_, ?_⟩
  · rw [hh.represents.unlink_eq (q := (c, op)) hw, hh.waiter]
    rfl
  · rw [hh.represents.unlink_eq (q := (c, op)) hw, hh.select]
    rfl

/-- **Popping** the first waiter of a queue. -/
theorem popHead {rest : List WaiterId} (hh : h.Realizes κ) (hlist : κ.queue c op = w :: rest) :
    ∃ h', h.waitQueuePopHead (c, op) = (some w, h') ∧ h'.Realizes (κ.dropHead c op w rest) := by
  have hw : w ∈ κ.queue c op := by
    rw [hlist]
    exact List.mem_cons_self
  have hdrop : κ.waitQueueUnlink c op w = κ.dropHead c op w rest := by
    unfold Chans.waitQueueUnlink Chans.dropHead
    rw [hlist, List.erase_cons_head]
  exact ⟨_, hh.represents.popHead_cons (q := (c, op)) hlist, hdrop ▸ hh.unlink hw⟩

theorem dead_eq (hh : h.Realizes κ) (w : WaiterId) : h.dead w = !κ.live w := by
  unfold WaitHeap.dead Chans.live
  rw [hh.waiter, hh.select]
  cases (κ.waiter w).kind with
  | regular => rfl
  | select =>
      cases (κ.waiter w).state with
      | none => rfl
      | some k => exact (Bool.not_not _).symm

/-- **The loop over dead waiters** ends with the waiter and the queues of the model. -/
theorem popLive (l : List WaiterId) :
    ∀ {h : WaitHeap} {κ : Chans} {fuel : Nat}, h.Realizes κ → κ.queue c op = l →
      l.length < fuel →
      ∃ h', h.popLiveWaiterLocked fuel (c, op) = some ((Chans.popLive c op l κ).2, h') ∧
        h'.Realizes (Chans.popLive c op l κ).1 := by
  induction l with
  | nil =>
      intro h κ fuel hh hlist hfuel
      obtain ⟨n, rfl⟩ : ∃ n, fuel = n + 1 := ⟨fuel - 1, by simp at hfuel; omega⟩
      refine ⟨h, ?_, hh⟩
      rw [popLiveWaiterLocked, hh.represents.popHead_nil (q := (c, op)) hlist]
      rfl
  | cons w rest ih =>
      intro h κ fuel hh hlist hfuel
      rw [List.length_cons] at hfuel
      obtain ⟨n, rfl⟩ : ∃ n, fuel = n + 1 := ⟨fuel - 1, by omega⟩
      obtain ⟨h1, hpop, hh1⟩ := hh.popHead hlist
      rw [popLiveWaiterLocked, hpop, Chans.popLive]
      dsimp only
      rw [hh1.dead_eq]
      cases hlive : (κ.dropHead c op w rest).live w with
      | true => exact ⟨h1, rfl, hh1⟩
      | false =>
          have hrest : (κ.dropHead c op w rest).queue c op = rest := by
            simp [Chans.dropHead]
          exact ih hh1 hrest (Nat.lt_of_succ_lt_succ hfuel)

theorem popLiveWaiterLocked {fuel : Nat} (hh : h.Realizes κ)
    (hfuel : (κ.queue c op).length < fuel) :
    ∃ h', h.popLiveWaiterLocked fuel (c, op) = some ((κ.popLiveWaiterLocked c op).2, h') ∧
      h'.Realizes (κ.popLiveWaiterLocked c op).1 :=
  popLive _ hh rfl hfuel

/-- Unlinking some of the waiters of a select, one after the other. -/
theorem scrub (call : CallId) (l : List Nat) :
    ∀ {h : WaitHeap} {κ : Chans}, h.Realizes κ → κ.Linked →
      (l.foldl (WaitHeap.scrubWaiter call) h).Realizes
        (l.foldl (Croutine.scrubWaiter call) κ) := by
  induction l with
  | nil => exact fun hh _ => hh
  | cons i rest ih =>
      intro h κ hh hlinked
      rw [List.foldl_cons, List.foldl_cons]
      have hround : (h.scrubWaiter call i).Realizes (Croutine.scrubWaiter call κ i) := by
        unfold WaitHeap.scrubWaiter Croutine.scrubWaiter
        rw [hh.waiter]
        cases hchannel : (κ.waiter ⟨call, i⟩).channel with
        | none => exact hh
        | some c => exact hh.unlink (hlinked.mem.mpr ⟨hchannel, rfl⟩)
      exact ih hround (Scrubbed.round hlinked call i).1.linked

/-- **Scrubbing the waiters of a select** unlinks each from the queue that its `channel` and
`op` fields name. -/
theorem scrubSelectWaiters {h : WaitHeap} {κ : Chans} (hh : h.Realizes κ) (hlinked : κ.Linked)
    (call : CallId) (n : Nat) :
    (h.scrubSelectWaiters call n).Realizes (Croutine.scrubSelectWaiters call n κ) :=
  scrub call (List.range n) hh hlinked

end WaitHeap.Realizes

end Croutine
