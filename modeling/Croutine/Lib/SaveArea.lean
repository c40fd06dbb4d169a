import Mathlib.Algebra.Order.Ring.Nat
import Mathlib.Data.List.Nodup
import Mathlib.Logic.Function.Basic
import Mathlib.Tactic.Common

/-!
# Registers saved in memory

A processor with registers of whole bytes over a byte memory, little endian, and the
instructions of a register save area: stores, loads, moves between registers and popping a
word off the stack.  Addresses wrap at the width of their base register.

A save area is a list of slots, each a register and its offset, with a scratch register
where the processor cannot store the register itself.  `save_area` and `restore_area` say
what storing and loading all slots does; where the slots do not overlap, every slot then
holds its register, no other memory changes, and loading gets every register back.

`layout` is the placement of the fields of a C struct.
-/

namespace SaveArea

/-! ## Byte memory -/

/-- The value of the first `n` bytes, the lowest first. -/
def value (bytes : Nat → UInt8) : Nat → Nat
  | 0 => 0
  | n + 1 => value bytes n + 256 ^ n * (bytes n).toNat

def read (m : Nat → UInt8) (a n : Nat) : Nat := value (fun i => m (a + i)) n

def write (m : Nat → UInt8) (a n v : Nat) : Nat → UInt8 :=
  fun x => if a ≤ x ∧ x < a + n then UInt8.ofNat (v / 256 ^ (x - a)) else m x

variable {m m' : Nat → UInt8} {a b n k v : Nat}

/-- Only the bytes below `n` matter. -/
theorem value_congr {f g : Nat → UInt8} (h : ∀ i < n, f i = g i) : value f n = value g n := by
  induction n with
  | zero => rfl
  | succ n ih =>
      rw [value, value, ih fun i hi => h i (Nat.lt_succ_of_lt hi), h n (Nat.lt_succ_self n)]

/-- The value of `n` bytes is below `256 ^ n`. -/
theorem value_lt (bytes : Nat → UInt8) (n : Nat) : value bytes n < 256 ^ n := by
  induction n with
  | zero => exact Nat.one_pos
  | succ n ih =>
      have hbyte : (bytes n).toNat ≤ 255 := Nat.le_of_lt_succ (bytes n).toNat_lt
      have hle := Nat.mul_le_mul_left (256 ^ n) hbyte
      rw [value, Nat.pow_succ]
      omega

/-- The value of the bytes of a number is the number, up to its width. -/
theorem value_bytes (n v : Nat) :
    value (fun i => UInt8.ofNat (v / 256 ^ i)) n = v % 256 ^ n := by
  induction n with
  | zero => rw [value, Nat.pow_zero, Nat.mod_one]
  | succ n ih =>
      rw [value, ih, Nat.mod_pow_succ]
      rfl

/-- A read depends on the bytes it reads. -/
theorem read_congr (h : ∀ x, a ≤ x → x < a + n → m x = m' x) : read m a n = read m' a n :=
  value_congr fun i hi => h (a + i) (Nat.le_add_right a i) (Nat.add_lt_add_left hi a)

/-- A write leaves the bytes outside of it. -/
theorem write_other {x : Nat} (h : x < a ∨ a + n ≤ x) : write m a n v x = m x :=
  if_neg fun hin => by omega

/-- A read gives back what was written, cut to its size. -/
theorem read_write_self : read (write m a n v) a n = v % 256 ^ n := by
  rw [← value_bytes n v]
  refine value_congr fun i hi => ?_
  have hin : a ≤ a + i ∧ a + i < a + n := by omega
  show (if a ≤ a + i ∧ a + i < a + n then _ else _) = _
  rw [if_pos hin, Nat.add_sub_cancel_left]

/-- Two stretches of memory that do not overlap. -/
def Apart (a n b k : Nat) : Prop := n = 0 ∨ k = 0 ∨ a + n ≤ b ∨ b + k ≤ a

instance : Decidable (Apart a n b k) := inferInstanceAs (Decidable (_ ∨ _ ∨ _ ∨ _))

/-- What is in one of two ranges apart is outside the other. -/
theorem Apart.outside {x : Nat} (h : Apart a n b k) (hlow : b ≤ x) (hhigh : x < b + k) :
    x < a ∨ a + n ≤ x := by
  unfold Apart at h
  omega

theorem Apart.symm (h : Apart a n b k) : Apart b k a n := by
  unfold Apart at h ⊢
  omega

/-- Bytes of a zeroed stretch are zero. -/
theorem read_write_zero (hlow : b ≤ a) (hhigh : a + n ≤ b + k) :
    read (write m b k 0) a n = 0 := by
  have hzero : read (write m b k 0) a n = value (fun i => UInt8.ofNat (0 / 256 ^ i)) n := by
    refine value_congr fun i hi => ?_
    have hin : b ≤ a + i ∧ a + i < b + k := by omega
    show (if b ≤ a + i ∧ a + i < b + k then _ else _) = _
    rw [if_pos hin, Nat.zero_div, Nat.zero_div]
  rw [hzero, value_bytes, Nat.zero_mod]

/-- A number to be stored at an offset, in so many bytes. -/
structure Piece where
  offset : Nat
  size : Nat
  value : Nat

/-- Store pieces, one after the other. -/
def writeAll (base : Nat) (pieces : List Piece) (m : Nat → UInt8) : Nat → UInt8 :=
  pieces.foldl (fun m p => write m (base + p.offset) p.size p.value) m

/-- Writing pieces leaves the bytes outside of them. -/
theorem writeAll_other {base x : Nat} (pieces : List Piece) :
    ∀ {m : Nat → UInt8},
      (∀ p ∈ pieces, x < base + p.offset ∨ base + p.offset + p.size ≤ x) →
      writeAll base pieces m x = m x := by
  induction pieces with
  | nil => exact fun _ => rfl
  | cons p pieces ih =>
      intro m hx
      show writeAll base pieces (write m _ _ _) x = m x
      rw [ih fun q hq => hx q (List.mem_cons_of_mem _ hq)]
      exact write_other (hx p List.mem_cons_self)

/-- Pieces that do not overlap can all be read back. -/
theorem read_writeAll {base : Nat} (pieces : List Piece) :
    ∀ {m : Nat → UInt8}, (pieces.Pairwise fun p q =>
        p.offset + p.size ≤ q.offset ∨ q.offset + q.size ≤ p.offset) →
      ∀ p ∈ pieces, read (writeAll base pieces m) (base + p.offset) p.size =
        p.value % 256 ^ p.size := by
  induction pieces with
  | nil => exact fun _ p hp => absurd hp List.not_mem_nil
  | cons q pieces ih =>
      intro m hapart p hp
      obtain ⟨hfirst, hrest⟩ := List.pairwise_cons.mp hapart
      show read (writeAll base pieces (write m _ _ _)) _ _ = _
      rcases List.mem_cons.mp hp with rfl | hp
      · -- the later pieces do not overlap the first
        rw [← read_write_self (m := m)]
        refine read_congr fun x hlow hhigh => writeAll_other pieces fun q hq => ?_
        have := hfirst q hq
        omega
      · exact ih hrest p hp

/-- Registers and memory store the same numbers. -/
theorem toNat_mod (x : BitVec (8 * n)) : x.toNat % 256 ^ n = x.toNat := by
  refine Nat.mod_eq_of_lt ?_
  have hlt := x.isLt
  rwa [Nat.pow_mul] at hlt

/-! ## The processor -/

section Processor

variable {R : Type}

/-- The contents of registers of the given widths in bytes. -/
abbrev Regs (width : R → Nat) := (r : R) → BitVec (8 * width r)

structure Cpu (width : R → Nat) where
  regs : Regs width
  mem : Nat → UInt8

inductive Instr (R : Type) where
  | store (src base : R) (offset : Nat)
  | load (dst base : R) (offset : Nat)
  | move (dst src : R)
  | pop (dst sp : R)

variable {width : R → Nat}

def address (regs : Regs width) (base : R) (offset : Nat) : Nat :=
  (regs base + BitVec.ofNat _ offset).toNat

/-- An address within the area does not wrap. -/
theorem address_eq {regs : Regs width} {base : R} {offset size : Nat} (hoff : offset < size)
    (hfits : (regs base).toNat + size ≤ 2 ^ (8 * width base)) :
    address regs base offset = (regs base).toNat + offset := by
  unfold address
  rw [BitVec.toNat_add, BitVec.toNat_ofNat, Nat.mod_eq_of_lt (a := offset) (by omega),
    Nat.mod_eq_of_lt (by omega)]

variable [DecidableEq R]

def Instr.exec (s : Cpu width) : Instr R → Cpu width
  | .store src base offset =>
    { s with mem := write s.mem (address s.regs base offset) (width src) (s.regs src).toNat }
  | .load dst base offset =>
    { s with
      regs := Function.update s.regs dst
        (BitVec.ofNat _ (read s.mem (address s.regs base offset) (width dst))) }
  | .move dst src =>
    { s with regs := Function.update s.regs dst ((s.regs src).setWidth _) }
  | .pop dst sp =>
    { s with
      regs := Function.update
        (Function.update s.regs dst
          (BitVec.ofNat _ (read s.mem (s.regs sp).toNat (width dst))))
        sp (s.regs sp + BitVec.ofNat _ (width dst)) }

def execAll (code : List (Instr R)) (s : Cpu width) : Cpu width := code.foldl Instr.exec s

/-- Code after code. -/
theorem execAll_append (code code' : List (Instr R)) (s : Cpu width) :
    execAll (code ++ code') s = execAll code' (execAll code s) := List.foldl_append

/-! ## Save areas -/

/-- A register with its offset in the save area, and the register its contents go through
if it cannot be stored itself. -/
structure Slot (R : Type) where
  reg : R
  offset : Nat
  via : Option R := none
  deriving DecidableEq

def Slot.save (base : R) (t : Slot R) : List (Instr R) :=
  match t.via with
  | none => [.store t.reg base t.offset]
  | some x => [.move x t.reg, .store x base t.offset]

def Slot.restore (base : R) (t : Slot R) : List (Instr R) :=
  match t.via with
  | none => [.load t.reg base t.offset]
  | some x => [.load x base t.offset, .move t.reg x]

/-- The slots lie inside the area and do not overlap, no register has two of them, and
neither the base register nor a scratch register has one. -/
structure Valid (width : R → Nat) (size : Nat) (base : R) (area : List (Slot R)) : Prop where
  inside : ∀ t ∈ area, t.offset < size ∧ t.offset + width t.reg ≤ size
  apart : area.Pairwise fun t u =>
    t.offset + width t.reg ≤ u.offset ∨ u.offset + width u.reg ≤ t.offset
  regs : (area.map Slot.reg).Nodup
  scratch : ∀ t ∈ area, ∀ x ∈ t.via, width x = width t.reg ∧ x ≠ base ∧ x ∉ area.map Slot.reg
  base : base ∉ area.map Slot.reg

/-- What saving an area stores. -/
def pieces (regs : Regs width) (area : List (Slot R)) : List Piece :=
  area.map fun t => ⟨t.offset, width t.reg, (regs t.reg).toNat⟩

/-- A register that no slot saves through. -/
def Kept (area : List (Slot R)) (r : R) : Prop := ∀ t ∈ area, r ∉ t.via

namespace Valid

variable {size : Nat} {base : R} {area : List (Slot R)} {t : Slot R} {s : Cpu width}

omit [DecidableEq R] in
/-- Leaving out a slot keeps the layout valid. -/
theorem tail (h : Valid width size base (t :: area)) : Valid width size base area := by
  refine ⟨fun u hu => h.inside u (List.mem_cons_of_mem _ hu), (List.pairwise_cons.mp h.apart).2,
    (List.nodup_cons.mp h.regs).2, fun u hu x hx => ?_,
    fun hmem => h.base (List.mem_cons_of_mem _ hmem)⟩
  obtain ⟨hwidth, hbase, hout⟩ := h.scratch u (List.mem_cons_of_mem _ hu) x hx
  exact ⟨hwidth, hbase, fun hmem => hout (List.mem_cons_of_mem _ hmem)⟩

/-- Saving one slot writes the register there. -/
theorem save_slot (h : Valid width size base area) (ht : t ∈ area)
    (hfits : (s.regs base).toNat + size ≤ 2 ^ (8 * width base)) :
    (execAll (t.save base) s).mem =
        write s.mem ((s.regs base).toNat + t.offset) (width t.reg) (s.regs t.reg).toNat ∧
      ∀ r, r ∉ t.via → (execAll (t.save base) s).regs r = s.regs r := by
  have haddr := address_eq (h.inside t ht).1 hfits
  unfold Slot.save
  cases hvia : t.via with
  | none =>
      refine ⟨?_, fun r _ => rfl⟩
      show write s.mem (address s.regs base t.offset) _ _ = _
      rw [haddr]
  | some x =>
      obtain ⟨hwidth, hbase, _⟩ := h.scratch t ht x hvia
      have hmoved : ∀ r, r ≠ x →
          Function.update s.regs x ((s.regs t.reg).setWidth _) r = s.regs r :=
        fun r hr => Function.update_of_ne hr _ _
      refine ⟨?_, fun r hr => hmoved r fun heq => hr (by rw [heq]; rfl)⟩
      show write s.mem (address (Function.update s.regs x _) base t.offset) (width x)
        (Function.update s.regs x ((s.regs t.reg).setWidth _) x).toNat = _
      rw [address, hmoved base hbase.symm, Function.update_self, BitVec.toNat_setWidth]
      rw [address] at haddr
      rw [haddr, hwidth, Nat.mod_eq_of_lt (s.regs t.reg).isLt]

/-- **Saving an area** stores every register in its slot. -/
theorem save_area (area : List (Slot R)) :
    ∀ {s : Cpu width}, Valid width size base area →
      (s.regs base).toNat + size ≤ 2 ^ (8 * width base) →
      (execAll (area.flatMap (Slot.save base)) s).mem =
        writeAll (s.regs base).toNat (pieces s.regs area) s.mem ∧
      ∀ r, Kept area r → (execAll (area.flatMap (Slot.save base)) s).regs r = s.regs r := by
  induction area with
  | nil => exact fun _ _ => ⟨rfl, fun _ _ => rfl⟩
  | cons t area ih =>
      intro s h hfits
      obtain ⟨hmem, hregs⟩ := h.save_slot (s := s) List.mem_cons_self hfits
      -- neither the base nor the registers of the other slots are scratch registers
      have hnotvia : ∀ r, r ∈ (t :: area).map Slot.reg ∨ r = base → r ∉ t.via := by
        rintro r hr hvia
        obtain ⟨_, hbase, hout⟩ := h.scratch t List.mem_cons_self r hvia
        exact hr.elim hout hbase
      have hbase := hregs base (hnotvia base (.inr rfl))
      have hpieces : pieces (execAll (t.save base) s).regs area = pieces s.regs area := by
        refine List.map_congr_left fun u hu => ?_
        rw [hregs u.reg (hnotvia _ (.inl (List.mem_cons_of_mem _ (List.mem_map_of_mem hu))))]
      obtain ⟨hslots, hkept⟩ := ih (s := execAll (t.save base) s) h.tail
        (by rw [hbase]; exact hfits)
      rw [hbase, hpieces, hmem] at hslots
      rw [List.flatMap_cons, execAll_append]
      refine ⟨hslots, fun r hr => ?_⟩
      rw [hkept r fun u hu => hr u (List.mem_cons_of_mem _ hu)]
      exact hregs r (hr t List.mem_cons_self)

omit [DecidableEq R] in
/-- Stored registers can be read back. -/
theorem read_pieces (h : Valid width size base area) (regs : Regs width) (ht : t ∈ area)
    (start : Nat) (m : Nat → UInt8) :
    read (writeAll start (pieces regs area) m) (start + t.offset) (width t.reg) =
      (regs t.reg).toNat := by
  refine Eq.trans ?_ (toNat_mod (regs t.reg))
  exact read_writeAll (pieces regs area) (List.pairwise_map.mpr h.apart)
    ⟨t.offset, width t.reg, (regs t.reg).toNat⟩ (List.mem_map_of_mem ht)

omit [DecidableEq R] in
/-- Storing an area changes no byte outside it. -/
theorem pieces_other (h : Valid width size base area) (regs : Regs width) {start x : Nat}
    (hx : x < start ∨ start + size ≤ x) (m : Nat → UInt8) :
    writeAll start (pieces regs area) m x = m x := by
  refine writeAll_other _ fun p hp => ?_
  obtain ⟨t, ht, rfl⟩ := List.mem_map.mp hp
  have := (h.inside t ht).2
  show x < start + t.offset ∨ start + t.offset + width t.reg ≤ x
  omega

/-- Restoring one slot loads its register. -/
theorem restore_slot (h : Valid width size base area) (ht : t ∈ area)
    (hfits : (s.regs base).toNat + size ≤ 2 ^ (8 * width base)) :
    (execAll (t.restore base) s).mem = s.mem ∧
      (execAll (t.restore base) s).regs t.reg =
        BitVec.ofNat _ (read s.mem ((s.regs base).toNat + t.offset) (width t.reg)) ∧
      ∀ r, r ≠ t.reg → r ∉ t.via → (execAll (t.restore base) s).regs r = s.regs r := by
  have haddr := address_eq (h.inside t ht).1 hfits
  unfold Slot.restore
  cases hvia : t.via with
  | none =>
      refine ⟨rfl, ?_, fun r hr _ => Function.update_of_ne hr _ _⟩
      show Function.update s.regs t.reg _ t.reg = _
      rw [Function.update_self, haddr]
  | some x =>
      obtain ⟨hwidth, _, _⟩ := h.scratch t ht x hvia
      refine ⟨rfl, ?_, fun r hr hx => ?_⟩
      · show Function.update (Function.update s.regs x _) t.reg
          ((Function.update s.regs x _ x).setWidth _) t.reg = _
        rw [Function.update_self, Function.update_self, haddr, hwidth]
        refine BitVec.eq_of_toNat_eq ?_
        rw [BitVec.toNat_setWidth, BitVec.toNat_ofNat, Nat.mod_mod]
      · show Function.update (Function.update s.regs x _) t.reg _ r = _
        rw [Function.update_of_ne hr]
        exact Function.update_of_ne (fun heq => hx (by rw [heq]; rfl)) _ _

/-- **Restoring an area** loads every register from its slot. -/
theorem restore_area (area : List (Slot R)) :
    ∀ {s : Cpu width}, Valid width size base area →
      (s.regs base).toNat + size ≤ 2 ^ (8 * width base) →
      (execAll (area.flatMap (Slot.restore base)) s).mem = s.mem ∧
      (∀ t ∈ area, (execAll (area.flatMap (Slot.restore base)) s).regs t.reg =
        BitVec.ofNat _ (read s.mem ((s.regs base).toNat + t.offset) (width t.reg))) ∧
      ∀ r, r ∉ area.map Slot.reg → Kept area r →
        (execAll (area.flatMap (Slot.restore base)) s).regs r = s.regs r := by
  induction area with
  | nil =>
      intro s _ _
      exact ⟨rfl, fun t ht => absurd ht List.not_mem_nil, fun _ _ _ => rfl⟩
  | cons t area ih =>
      intro s h hfits
      obtain ⟨hmem, hreg, hother⟩ := h.restore_slot (s := s) List.mem_cons_self hfits
      have hnotvia : ∀ u ∈ t :: area, ∀ r ∈ (t :: area).map Slot.reg, r ∉ u.via :=
        fun u hu r hr hvia => (h.scratch u hu r hvia).2.2 hr
      have hbase : (execAll (t.restore base) s).regs base = s.regs base := by
        refine hother base (fun heq => h.base ?_) fun hvia => ?_
        · rw [heq]
          exact List.mem_cons_self
        · exact (h.scratch t List.mem_cons_self base hvia).2.1 rfl
      obtain ⟨hmem', hslots, hkept⟩ := ih (s := execAll (t.restore base) s) h.tail
        (by rw [hbase]; exact hfits)
      rw [hbase, hmem] at hslots
      rw [List.flatMap_cons, execAll_append]
      refine ⟨hmem'.trans hmem, fun u hu => ?_, fun r hr hkeep => ?_⟩
      · rcases List.mem_cons.mp hu with rfl | hu
        · rw [hkept u.reg (List.nodup_cons.mp h.regs).1 fun v hv =>
            hnotvia v (List.mem_cons_of_mem _ hv) u.reg List.mem_cons_self]
          exact hreg
        · exact hslots u hu
      · rw [hkept r (fun hmem => hr (List.mem_cons_of_mem _ hmem))
          fun u hu => hkeep u (List.mem_cons_of_mem _ hu)]
        refine hother r (fun heq => hr ?_) (hkeep t List.mem_cons_self)
        rw [heq]
        exact List.mem_cons_self

end Valid

end Processor

/-! ## Struct layout -/

/-- The first multiple of the alignment from `n` on. -/
def alignUp (n alignment : Nat) : Nat := (n + alignment - 1) / alignment * alignment

variable {F : Type}

/-- The fields of a struct, of the given sizes and aligned to them, with their offsets. -/
def layout (start : Nat) : List (F × Nat) → List (F × Nat)
  | [] => []
  | (f, size) :: rest => (f, alignUp start size) :: layout (alignUp start size + size) rest

/-- The end of the last field, up to the largest alignment. -/
def structSize (fields : List (F × Nat)) : Nat :=
  let ends := (layout 0 fields).zipWith (fun f g => f.2 + g.2) fields
  alignUp (ends.foldl max 0) ((fields.map Prod.snd).foldl max 1)

def offsetOf [BEq F] (fields : List (F × Nat)) (f : F) : Nat :=
  ((layout 0 fields).lookup f).getD 0

end SaveArea
