import Croutine.TaskQueue

/-!
# The byte ring of a channel

The buffer of a channel as `channel.c` has it: one allocation of `elem_size * capacity`
bytes, an index of the slot to take from and one of the slot to fill, in `size_t`
arithmetic.  Every copy is checked against the bounds of the allocation.  Elements of size
zero share the one byte that is allocated for them and are never copied.

The ring holds a list of values: it is a bounded FIFO.  No copy leaves the allocation and no
index computation leaves `size_t`, up to the largest buffer that the check in
`croutine_channel_create` lets through.

The model of the channels keeps that list only.  The last section shows that its
`bufferPush` and `bufferPop` are what the ring does.
-/

namespace Croutine

/-! ## The code -/

/-- The buffer of a `struct croutine_channel`, of the bytes that `malloc` returned; a null
pointer is a buffer of no bytes. -/
structure ByteRing where
  elemSize : Nat
  capacity : Nat
  buffer : Bytes
  len : Nat
  head : Nat
  tail : Nat
  deriving DecidableEq

namespace ByteRing

/-- The buffer part of `croutine_channel_create`; `none` is its result `NULL`.  The bytes of
a new allocation are those of `garbage`. -/
def create (mallocOk : Bool) (garbage : Memory) (elemSize capacity : Nat) : Option ByteRing :=
  if capacity ≠ 0 ∧ elemSize > sizeMax / capacity then none
  else if capacity = 0 then some ⟨elemSize, capacity, [], 0, 0, 0⟩
  else
    let bufferSize := sizeT (elemSize * capacity)
    let bufferSize := if bufferSize = 0 then 1 else bufferSize
    if mallocOk then some ⟨elemSize, capacity, readBytes garbage 0 bufferSize, 0, 0, 0⟩
    else none

/-- The position in the buffer to which `buffer_slot` points. -/
def bufferSlot (r : ByteRing) (index : Nat) : Nat :=
  if r.elemSize = 0 then 0 else sizeT (index * r.elemSize)

/-- `copy_value` of a value of `len` bytes into the buffer. -/
def copyIn (buffer : Bytes) (dst : Nat) (value : Bytes) (len : Nat) : Except Fault Bytes :=
  if len = 0 then .ok buffer else Ring.storeRange buffer dst value

/-- `copy_value` of `len` bytes of the buffer to the outside. -/
def copyOut (buffer : Bytes) (src len : Nat) : Except Fault Bytes :=
  if len = 0 then .ok [] else Ring.loadRange buffer src len

/-- `buffer_push`. -/
def push (r : ByteRing) (value : Bytes) : Except Fault ByteRing := do
  let buffer ← copyIn r.buffer (r.bufferSlot r.tail) value r.elemSize
  return { r with
    buffer := buffer, tail := sizeT (r.tail + 1) % r.capacity, len := sizeT (r.len + 1) }

/-- `buffer_pop`. -/
def pop (r : ByteRing) : Except Fault (Bytes × ByteRing) := do
  let value ← copyOut r.buffer (r.bufferSlot r.head) r.elemSize
  return (value, { r with head := sizeT (r.head + 1) % r.capacity, len := r.len - 1 })

end ByteRing

/-! ## The list in the ring -/

namespace ByteRing

variable {r : ByteRing} {l : List Bytes} {v : Bytes}

/-- The bytes of one slot. -/
def slot (r : ByteRing) (i : Nat) : Bytes := Ring.slice r.buffer (i * r.elemSize) r.elemSize

/-- The values in the ring, the oldest first. -/
def contents (r : ByteRing) : List Bytes :=
  (List.range r.len).map fun i => r.slot ((r.head + i) % r.capacity)

/-- The buffer is a ring that holds the list of values. -/
structure Represents (r : ByteRing) (l : List Bytes) : Prop where
  holds : Ring.Holds r.slot r.capacity r.head l
  len_eq : r.len = l.length
  tail_eq : r.tail = (r.head + r.len) % r.capacity
  allocated : r.capacity * r.elemSize ≤ r.buffer.length
  fits : r.capacity * r.elemSize ≤ sizeMax
  capacity_le : r.capacity ≤ sizeMax

namespace Represents

theorem pos (h : r.Represents l) : 0 < r.capacity :=
  Nat.lt_of_le_of_lt (Nat.zero_le _) h.holds.head_lt

theorem tail_lt (h : r.Represents l) : r.tail < r.capacity := by
  rw [h.tail_eq]
  exact Nat.mod_lt _ h.pos

theorem contents_eq (h : r.Represents l) : r.contents = l := by
  unfold contents
  rw [h.len_eq]
  refine List.ext_getElem (by simp) fun i _ hi => ?_
  rw [List.getElem_map, List.getElem_range]
  exact h.holds.slots i _ (List.getElem?_eq_getElem hi)

/-- The bytes of a slot lie inside the allocation, and neither their position nor the next
index leaves `size_t`. -/
theorem slot_bounds (h : r.Represents l) {i : Nat} (hi : i < r.capacity) :
    i * r.elemSize + r.elemSize ≤ r.buffer.length ∧
      i * r.elemSize + r.elemSize ≤ sizeMax ∧ i + 1 ≤ sizeMax := by
  have hend := Ring.mul_add_le_mul hi r.elemSize
  exact ⟨Nat.le_trans hend h.allocated, Nat.le_trans hend h.fits,
    Nat.le_trans hi h.capacity_le⟩

theorem bufferSlot_eq (h : r.Represents l) {i : Nat} (hi : i < r.capacity) :
    r.bufferSlot i = i * r.elemSize := by
  unfold bufferSlot
  split
  · next hzero => rw [hzero, Nat.mul_zero]
  · exact sizeT_eq (Nat.le_trans (Nat.le_add_right _ _) (h.slot_bounds hi).2.1)

theorem next_eq (h : r.Represents l) {i : Nat} (hi : i < r.capacity) :
    sizeT (i + 1) % r.capacity = (i + 1) % r.capacity := by
  rw [sizeT_eq (h.slot_bounds hi).2.2]

/-- Copying a value to the tail slot changes that slot only. -/
theorem copyIn_tail (h : r.Represents l) (hv : v.length = r.elemSize) :
    ∃ buffer, copyIn r.buffer (r.bufferSlot r.tail) v r.elemSize = .ok buffer ∧
      buffer.length = r.buffer.length ∧
      ∀ i, Ring.slice buffer (i * r.elemSize) r.elemSize =
        if i = r.tail then v else r.slot i := by
  unfold copyIn
  rw [h.bufferSlot_eq h.tail_lt]
  by_cases hzero : r.elemSize = 0
  · refine ⟨r.buffer, if_pos hzero, rfl, fun i => ?_⟩
    have hnil : v = [] := List.eq_nil_of_length_eq_zero (hv.trans hzero)
    rw [slot, hzero, hnil]
    simp [Ring.slice]
  · have hroom : r.tail * r.elemSize + v.length ≤ r.buffer.length := by
      rw [hv]
      exact (h.slot_bounds h.tail_lt).1
    refine ⟨_, (if_neg hzero).trans (Ring.storeRange_ok hroom), Ring.length_patch hroom,
      fun i => ?_⟩
    split
    · next hi =>
      rw [hi, ← hv]
      rw [← hv] at hroom
      exact Ring.slice_patch_self hroom
    · next hi =>
      refine Ring.slice_patch_of_disjoint hroom ?_
      rw [hv]
      rcases Nat.lt_or_gt_of_ne hi with hlt | hgt
      · exact .inl (Ring.mul_add_le_mul hlt _)
      · exact .inr (Ring.mul_add_le_mul hgt _)

/-- **Pushing appends**, to a ring with room, and touches no other slot. -/
theorem push (h : r.Represents l) (hroom : r.len < r.capacity) (hv : v.length = r.elemSize) :
    ∃ r', r.push v = .ok r' ∧ r'.Represents (l ++ [v]) ∧ r'.capacity = r.capacity ∧
      r'.elemSize = r.elemSize := by
  obtain ⟨buffer, hcopy, hlength, hslots⟩ := h.copyIn_tail hv
  have htail := h.tail_eq
  have hlen : sizeT (r.len + 1) = r.len + 1 := sizeT_eq (Nat.le_trans hroom h.capacity_le)
  refine ⟨⟨r.elemSize, r.capacity, buffer, sizeT (r.len + 1), r.head,
      sizeT (r.tail + 1) % r.capacity⟩, by unfold ByteRing.push; rw [hcopy]; rfl,
    ⟨?_, ?_, ?_, ?_, h.fits, h.capacity_le⟩, rfl, rfl⟩
  · rw [h.len_eq] at htail hroom
    refine h.holds.push hroom ?_ fun i _ hi => ?_
    · rw [← htail]
      exact (hslots r.tail).trans (if_pos rfl)
    · rw [← htail] at hi
      exact (hslots i).trans (if_neg hi)
  · show sizeT (r.len + 1) = _
    rw [hlen, h.len_eq, List.length_append, List.length_singleton]
  · show sizeT (r.tail + 1) % r.capacity = (r.head + sizeT (r.len + 1)) % r.capacity
    rw [hlen, h.next_eq h.tail_lt, htail, Nat.mod_add_mod, Nat.add_assoc]
  · show r.capacity * r.elemSize ≤ buffer.length
    rw [hlength]
    exact h.allocated

/-- Copying from a slot reads the bytes of that slot. -/
theorem copyOut_slot (h : r.Represents l) {i : Nat} (hi : i < r.capacity) :
    copyOut r.buffer (r.bufferSlot i) r.elemSize = .ok (r.slot i) := by
  unfold copyOut slot
  rw [h.bufferSlot_eq hi]
  split
  · next hzero => rw [hzero, Ring.slice, List.take_zero]
  · exact Ring.loadRange_ok (h.slot_bounds hi).1

/-- **Popping takes the oldest value**, byte for byte. -/
theorem pop (h : r.Represents (v :: l)) :
    ∃ r', r.pop = .ok (v, r') ∧ r'.Represents l ∧ r'.capacity = r.capacity ∧
      r'.elemSize = r.elemSize := by
  have hlen := h.len_eq
  rw [List.length_cons] at hlen
  have hvalue := h.copyOut_slot h.holds.head_lt
  rw [h.holds.first] at hvalue
  have hnext := h.next_eq h.holds.head_lt
  refine ⟨⟨r.elemSize, r.capacity, r.buffer, r.len - 1, sizeT (r.head + 1) % r.capacity,
      r.tail⟩, by unfold ByteRing.pop; rw [hvalue]; rfl,
    ⟨?_, ?_, ?_, h.allocated, h.fits, h.capacity_le⟩, rfl, rfl⟩
  · show Ring.Holds r.slot r.capacity (sizeT (r.head + 1) % r.capacity) l
    rw [hnext]
    exact h.holds.pop
  · show r.len - 1 = l.length
    omega
  · show r.tail = (sizeT (r.head + 1) % r.capacity + (r.len - 1)) % r.capacity
    rw [hnext, Nat.mod_add_mod, h.tail_eq, hlen]
    congr 1
    omega

end Represents

/-- A buffer is refused by the check of its size, or by `malloc`. -/
theorem create_eq_none {capacity : Nat} (hcap : 1 ≤ capacity) (mallocOk : Bool)
    (garbage : Memory) (elemSize : Nat) :
    create mallocOk garbage elemSize capacity = none ↔
      (capacity ≠ 0 ∧ elemSize > sizeMax / capacity) ∨ !mallocOk := by
  have hzero : capacity ≠ 0 := Nat.ne_of_gt hcap
  unfold create
  rw [if_neg hzero]
  split
  · next hcheck => simp [hcheck]
  · next hcheck => cases mallocOk <;> simp [hcheck]

/-- What `croutine_channel_create` accepts is an empty ring. -/
theorem create_represents {mallocOk : Bool} {garbage : Memory} {elemSize capacity : Nat}
    (hcap : 1 ≤ capacity) (hsize : capacity ≤ sizeMax)
    (h : create mallocOk garbage elemSize capacity = some r) :
    r.Represents [] ∧ r.capacity = capacity ∧ r.elemSize = elemSize := by
  unfold create at h
  split at h
  · cases h
  next hcheck =>
  have hzero : capacity ≠ 0 := Nat.ne_of_gt hcap
  have hfits : elemSize * capacity ≤ sizeMax := by
    rw [not_and, Nat.not_lt] at hcheck
    exact (Nat.le_div_iff_mul_le hcap).mp (hcheck hzero)
  rw [if_neg hzero, sizeT_eq hfits] at h
  cases mallocOk with
  | false => exact nomatch h
  | true =>
      obtain rfl := Option.some.inj h
      refine ⟨⟨Ring.Holds.empty _ hcap, rfl, (Nat.zero_mod _).symm, ?_, ?_, hsize⟩, rfl, rfl⟩
      · show capacity * elemSize ≤ (readBytes garbage 0 _).length
        rw [readBytes, List.length_map, List.length_range, Nat.mul_comm]
        split <;> omega
      · rw [Nat.mul_comm]
        exact hfits

end ByteRing

/-! ## Sequences of calls -/

inductive RingMove where
  | push (value : Bytes)
  | pop
  deriving DecidableEq

inductive RingResult where
  | pushed
  | full
  | popped (value : Bytes)
  | empty
  deriving DecidableEq

/-- A push or a pop behind the guard of `try_send_locked` and
`buffer_one_waiting_sender_locked`, or of `try_recv_locked`. -/
def ByteRing.call (r : ByteRing) : RingMove → Except Fault (RingResult × ByteRing)
  | .push value =>
    if r.capacity > 0 ∧ r.len < r.capacity then do
      return (.pushed, ← r.push value)
    else .ok (.full, r)
  | .pop =>
    if r.len > 0 then do
      let (value, r) ← r.pop
      return (.popped value, r)
    else .ok (.empty, r)

def ByteRing.calls (r : ByteRing) :
    List RingMove → Except Fault (List RingResult × ByteRing)
  | [] => .ok ([], r)
  | move :: moves => do
    let (result, r) ← r.call move
    let (results, r) ← r.calls moves
    return (result :: results, r)

/-- One operation of a FIFO of at most `capacity` values. -/
def fifoCall (capacity : Nat) (l : List Bytes) : RingMove → RingResult × List Bytes
  | .push value => if l.length < capacity then (.pushed, l ++ [value]) else (.full, l)
  | .pop =>
    match l with
    | [] => (.empty, [])
    | value :: rest => (.popped value, rest)

def fifoCalls (capacity : Nat) (l : List Bytes) :
    List RingMove → List RingResult × List Bytes
  | [] => ([], l)
  | move :: moves =>
    let (result, l) := fifoCall capacity l move
    let (results, l) := fifoCalls capacity l moves
    (result :: results, l)

/-- The value of a push has the channel's element size. -/
def RingMove.sized (elemSize : Nat) : RingMove → Prop
  | .push value => value.length = elemSize
  | .pop => True

namespace ByteRing.Represents

variable {r : ByteRing} {l : List Bytes}

/-- One guarded call does to the ring what it does to the FIFO. -/
theorem call (h : r.Represents l) {move : RingMove} (hmove : move.sized r.elemSize) :
    ∃ result r', r.call move = .ok (result, r') ∧
      (∃ l', fifoCall r.capacity l move = (result, l') ∧ r'.Represents l') ∧
      r'.capacity = r.capacity ∧ r'.elemSize = r.elemSize := by
  cases move with
  | push value =>
      by_cases hroom : r.len < r.capacity
      · obtain ⟨r', hpush, hrep, hcap, helem⟩ := h.push hroom hmove
        refine ⟨.pushed, r', ?_, ⟨l ++ [value], ?_, hrep⟩, hcap, helem⟩
        · have hguard : r.capacity > 0 ∧ r.len < r.capacity := ⟨h.pos, hroom⟩
          dsimp only [ByteRing.call]
          rw [if_pos hguard, hpush]
          rfl
        · exact if_pos (h.len_eq ▸ hroom)
      · refine ⟨.full, r, if_neg fun hboth => hroom hboth.2, ⟨l, ?_, h⟩, rfl, rfl⟩
        exact if_neg (h.len_eq ▸ hroom)
  | pop =>
      have hlen := h.len_eq
      cases l with
      | nil =>
          refine ⟨.empty, r, if_neg ?_, ⟨[], rfl, h⟩, rfl, rfl⟩
          rw [hlen]
          exact Nat.lt_irrefl 0
      | cons v l =>
          obtain ⟨r', hpop, hrep, hcap, helem⟩ := h.pop
          refine ⟨.popped v, r', ?_, ⟨l, rfl, hrep⟩, hcap, helem⟩
          dsimp only [ByteRing.call]
          rw [if_pos (hlen ▸ Nat.succ_pos _), hpop]
          rfl

/-- Every sequence of guarded calls, by induction over it. -/
theorem calls (moves : List RingMove) :
    ∀ {r : ByteRing} {l : List Bytes}, r.Represents l →
      (∀ move ∈ moves, move.sized r.elemSize) →
      ∃ results r', r.calls moves = .ok (results, r') ∧
        (∃ l', fifoCalls r.capacity l moves = (results, l') ∧ r'.Represents l') ∧
        r'.capacity = r.capacity ∧ r'.elemSize = r.elemSize := by
  induction moves with
  | nil =>
      intro r l h _
      exact ⟨[], r, rfl, ⟨l, rfl, h⟩, rfl, rfl⟩
  | cons move moves ih =>
      intro r l h hsized
      obtain ⟨result, r1, hcall, ⟨l1, hfifo, h1⟩, hcap, helem⟩ :=
        h.call (hsized move List.mem_cons_self)
      obtain ⟨results, r2, hcalls, ⟨l2, hfifos, h2⟩, hcap2, helem2⟩ :=
        ih h1 fun m hm => helem ▸ hsized m (List.mem_cons_of_mem _ hm)
      refine ⟨result :: results, r2, ?_, ⟨l2, ?_, h2⟩, hcap2.trans hcap, helem2.trans helem⟩
      · unfold ByteRing.calls
        rw [hcall]
        show (do
          let (results, r) ← r1.calls moves
          return (result :: results, r) : Except Fault _) = _
        rw [hcalls]
        rfl
      · unfold fifoCalls
        rw [hfifo]
        dsimp only
        rw [← hcap, hfifos]

end ByteRing.Represents

/-- **The byte ring is a bounded FIFO.**  For every element size and capacity that create
accepts and every sequence of guarded pushes and pops: no copy leaves the allocation; the
results and the contents are those of the FIFO, byte for byte; the indices and the length
keep their bounds and the tail is `len` slots behind the head; and for every index of the
ring neither the position nor the end of its bytes nor the next index leaves `size_t`, while
the bytes lie inside the allocation. -/
theorem byte_ring_is_bounded_fifo {mallocOk : Bool} {garbage : Memory}
    {elemSize capacity : Nat} {r : ByteRing} (hcap : 1 ≤ capacity) (hsize : capacity ≤ sizeMax)
    (hcreate : ByteRing.create mallocOk garbage elemSize capacity = some r)
    {moves : List RingMove} (hmoves : ∀ move ∈ moves, move.sized elemSize) :
    ∃ results r', r.calls moves = .ok (results, r') ∧
      fifoCalls capacity [] moves = (results, r'.contents) ∧
      (r'.capacity = capacity ∧ r'.elemSize = elemSize) ∧
      (r'.head < capacity ∧ r'.tail < capacity ∧ r'.len ≤ capacity ∧
        r'.tail = (r'.head + r'.len) % capacity) ∧
      ∀ index < capacity,
        index * elemSize + elemSize ≤ sizeMax ∧ index + 1 ≤ sizeMax ∧
        r'.bufferSlot index = (if elemSize = 0 then 0 else index * elemSize) ∧
        r'.bufferSlot index + elemSize ≤ r'.buffer.length := by
  obtain ⟨h, rfl, rfl⟩ := ByteRing.create_represents hcap hsize hcreate
  obtain ⟨results, r', hcalls, ⟨l, hfifo, h'⟩, hcap', helem'⟩ := h.calls moves hmoves
  refine ⟨results, r', hcalls, by rw [h'.contents_eq]; exact hfifo, ⟨hcap', helem'⟩,
    ?_, fun index hindex => ?_⟩
  · rw [← hcap']
    refine ⟨h'.holds.head_lt, h'.tail_lt, ?_, h'.tail_eq⟩
    rw [h'.len_eq]
    exact h'.holds.length_le
  · rw [← hcap'] at hindex
    obtain ⟨hinside, hfits, hnext⟩ := h'.slot_bounds hindex
    rw [← helem', h'.bufferSlot_eq hindex]
    refine ⟨hfits, hnext, ?_, hinside⟩
    split
    · next hzero => rw [hzero, Nat.mul_zero]
    · rfl

/-- Two slots of two bytes: the ring is full, refuses a third value, and takes it at the
front of the buffer after a pop. -/
def ringMoves : List RingMove :=
  [.push [1, 2], .push [3, 4], .push [5, 6], .pop, .push [7, 8], .pop, .pop, .pop]

theorem byte_ring_is_bounded_fifo_wrapped :
    ∃ r results r', ByteRing.create true (fun _ => 0) 2 2 = some r ∧
      r.calls ringMoves = .ok (results, r') ∧
      results = [.pushed, .pushed, .full, .popped [1, 2], .pushed, .popped [3, 4],
        .popped [7, 8], .empty] ∧
      fifoCalls 2 [] ringMoves = (results, r'.contents) := by
  have hcreate : ByteRing.create true (fun _ => 0) 2 2 =
      some ⟨2, 2, [0, 0, 0, 0], 0, 0, 0⟩ := by decide +kernel
  have hsized : ∀ move ∈ ringMoves, move.sized 2 := by
    intro move hmove
    simp only [ringMoves, List.mem_cons, List.not_mem_nil, or_false] at hmove
    rcases hmove with rfl | rfl | rfl | rfl | rfl | rfl | rfl | rfl <;>
      simp [RingMove.sized]
  obtain ⟨results, r', hcalls, hfifo, _⟩ :=
    byte_ring_is_bounded_fifo (by decide) (by decide) hcreate hsized
  refine ⟨_, results, r', hcreate, hcalls, ?_, hfifo⟩
  exact (congrArg Prod.fst hfifo).symm.trans (by decide)

/-! ## The buffer of the channel model -/

/-- The ring stands for the buffer of channel `c`. -/
structure ByteRing.Realizes (r : ByteRing) (κ : Chans) (c : ChanId) : Prop where
  represents : r.Represents (κ.chan c).buffer
  capacity : r.capacity = (κ.chan c).capacity
  elemSize : r.elemSize = (κ.chan c).elemSize

namespace ByteRing.Realizes

variable {r : ByteRing} {κ : Chans} {c : ChanId}

/-- A new channel with a buffer. -/
theorem create {mallocOk : Bool} {garbage : Memory} {elemSize capacity : Nat}
    (hcap : 1 ≤ capacity) (hsize : capacity ≤ sizeMax) :
    (ByteRing.create mallocOk garbage elemSize capacity = none ∧
      croutineChannelCreate κ elemSize capacity mallocOk = κ) ∨
    ∃ r, ByteRing.create mallocOk garbage elemSize capacity = some r ∧
      r.Realizes (croutineChannelCreate κ elemSize capacity mallocOk) κ.nextChan := by
  have hrefused := ByteRing.create_eq_none hcap mallocOk garbage elemSize
  cases hcreate : ByteRing.create mallocOk garbage elemSize capacity with
  | none => exact .inl ⟨rfl, if_pos (hrefused.mp hcreate)⟩
  | some r =>
      obtain ⟨hrep, hcapacity, helem⟩ := ByteRing.create_represents hcap hsize hcreate
      refine .inr ⟨r, rfl, ?_⟩
      unfold croutineChannelCreate
      rw [if_neg fun hcheck => nomatch hcreate.symm.trans (hrefused.mpr hcheck)]
      have hnew : (κ.setChan κ.nextChan
          { elemSize := elemSize, capacity := capacity }).chan κ.nextChan =
          { elemSize := elemSize, capacity := capacity } := Function.update_self ..
      refine ⟨?_, ?_, ?_⟩ <;> dsimp only <;> rw [hnew]
      · exact hrep
      · exact hcapacity
      · exact helem

/-- **A push of the channel model is a push of the ring.** -/
theorem push (h : r.Realizes κ c)
    (hroom : (κ.chan c).capacity > 0 ∧ (κ.chan c).buffer.length < (κ.chan c).capacity)
    (value : Addr) :
    ∃ r', r.call (.push (κ.valueAt c value)) = .ok (.pushed, r') ∧
      r'.Realizes (κ.bufferPush c (κ.valueAt c value)) c := by
  have hsized : (κ.valueAt c value).length = r.elemSize := by
    rw [h.elemSize]
    simp [Chans.valueAt, readBytes]
  obtain ⟨result, r', hcall, ⟨l', hfifo, hrep⟩, hcap, helem⟩ :=
    h.represents.call (show RingMove.sized r.elemSize (.push (κ.valueAt c value)) from hsized)
  have hpushed : fifoCall r.capacity (κ.chan c).buffer (.push (κ.valueAt c value)) =
      (.pushed, (κ.chan c).buffer ++ [κ.valueAt c value]) := by
    rw [h.capacity]
    exact if_pos hroom.2
  rw [hpushed] at hfifo
  obtain ⟨rfl, rfl⟩ := Prod.mk.inj hfifo
  refine ⟨r', hcall, ?_⟩
  unfold Chans.bufferPush
  have hnew := Function.update_self c
    { κ.chan c with buffer := (κ.chan c).buffer ++ [κ.valueAt c value] } κ.chan
  refine ⟨?_, ?_, ?_⟩ <;> dsimp only [Chans.setChan] <;> rw [hnew]
  · exact hrep
  · exact hcap.trans h.capacity
  · exact helem.trans h.elemSize

/-- **A pop of the channel model is a pop of the ring.** -/
theorem pop (h : r.Realizes κ c) {v : Bytes} {rest : List Bytes}
    (hbuffer : (κ.chan c).buffer = v :: rest) (out : Addr) :
    ∃ r', r.call .pop = .ok (.popped v, r') ∧ r'.Realizes (κ.bufferPop c v rest out) c := by
  have hrep := h.represents
  rw [hbuffer] at hrep
  obtain ⟨result, r', hcall, ⟨l', hfifo, hrep'⟩, hcap, helem⟩ :=
    hrep.call (show RingMove.sized r.elemSize .pop from trivial)
  obtain ⟨rfl, rfl⟩ := Prod.mk.inj hfifo
  refine ⟨r', hcall, ?_⟩
  unfold Chans.bufferPop
  have hnew := Function.update_self c { κ.chan c with buffer := rest } κ.chan
  refine ⟨?_, ?_, ?_⟩ <;> dsimp only [Chans.setChan, Chans.copyValue] <;> rw [hnew]
  · exact hrep'
  · exact hcap.trans h.capacity
  · exact helem.trans h.elemSize

end ByteRing.Realizes

end Croutine
