import Croutine.Context

/-!
# What the context functions do

`Arch.Lawful` says that the code of an architecture fits together, and both architectures
are lawful: the switch saves and restores the slots of one and the same area, at the offsets
that the C layout gives the fields of `struct Context`, and `create_context` fills that area.

From there on the architecture does not matter.  `Lawful.Holds` says that memory holds a
suspended register file.  Switching away makes it hold that of the caller, `create_context`
that of a new task, and switching to it gives every register back.
-/

namespace Croutine

open SaveArea

namespace Arch

variable (A : Arch)

/-- The code of an architecture fits together: the switch saves and restores the slots of
one area, whose other registers are kept, and `create_context` fills that area as if
`created` had been saved there. -/
structure Lawful where
  area : List (Slot A.Reg)
  created : BitVec 64 → Regs A.width → BitVec 64 → BitVec 64 → BitVec 64 → Regs A.width
  code : A.contextSwitch =
    area.flatMap (Slot.save A.oldArg) ++ (area.flatMap (Slot.restore A.newArg) ++ A.retCode)
  saves : Valid A.width A.contextSize A.oldArg area
  restores : Valid A.width A.contextSize A.newArg area
  args : A.oldArg ≠ A.newArg
  words : A.width A.pc = 8 ∧ A.width A.sp = 8 ∧ A.width A.oldArg = 8 ∧ A.width A.newArg = 8
  sp_slot : ∃ t ∈ area, t.reg = A.sp ∧ t.offset = A.spOffset
  pc_free : A.pc ≠ A.sp ∧ A.pc ∉ area.map Slot.reg
  lr_slot : ∀ lr, A.ret = .link lr → lr ∈ area.map Slot.reg ∧ lr ≠ A.sp ∧ A.width lr = 8
  saved : ∀ r ∈ A.calleeSaved ++ A.fpState, r ∈ area.map Slot.reg ∧ r ≠ A.sp
  created_slots : ∀ entry regs mem obj taskBody arg stackTop, ∀ t ∈ area,
    read (A.createContext entry regs mem obj taskBody arg stackTop) (obj + t.offset)
      (A.width t.reg) = (created entry regs taskBody arg stackTop t.reg).toNat
  created_point : ∀ entry regs mem obj taskBody arg stackTop,
    Apart (A.initialSp stackTop).toNat A.returnBytes obj A.contextSize →
    A.returnPoint (created entry regs taskBody arg stackTop)
      (A.createContext entry regs mem obj taskBody arg stackTop) = entry.toNat
  created_other : ∀ entry regs mem obj taskBody arg stackTop, ∀ x,
    x < obj ∨ obj + A.contextSize ≤ x →
    x < (A.initialSp stackTop).toNat ∨ (A.initialSp stackTop).toNat + A.returnBytes ≤ x →
    A.createContext entry regs mem obj taskBody arg stackTop x = mem x
  created_regs : ∀ entry regs taskBody arg stackTop,
    (created entry regs taskBody arg stackTop A.sp).toNat = (A.initialSp stackTop).toNat ∧
    (∀ r ∈ A.fpControl, created entry regs taskBody arg stackTop r = regs r) ∧
    A.getTaskBody (created entry regs taskBody arg stackTop) = taskBody ∧
    A.getTaskArg (created entry regs taskBody arg stackTop) = arg
  body_saved : ∃ r ∈ area.map Slot.reg, r ≠ A.sp ∧
    ∀ f g : Regs A.width, f r = g r → A.getTaskBody f = A.getTaskBody g
  arg_saved : ∃ r ∈ area.map Slot.reg, r ≠ A.sp ∧
    ∀ f g : Regs A.width, f r = g r → A.getTaskArg f = A.getTaskArg g
  control_saved : ∀ r ∈ A.fpControl, r ∈ A.fpState

end Arch

/-! ## x86_64 -/

namespace X8664

/-- Where the registers are in a context. -/
def area : List (Slot Reg) :=
  [⟨.rsp, 0, none⟩, ⟨.rbp, 8, none⟩, ⟨.rbx, 16, none⟩, ⟨.r12, 24, none⟩, ⟨.r13, 32, none⟩,
    ⟨.r14, 40, none⟩, ⟨.r15, 48, none⟩, ⟨.mxcsr, 56, none⟩, ⟨.x87cw, 60, none⟩]

/-- The registers with which a new context starts. -/
def created (_entry : BitVec 64) (regs : Regs width) (taskBody arg stackTop : BitVec 64) :
    Regs width
  | .rsp => initialSp stackTop
  | .r14 => arg
  | .r15 => taskBody
  | .mxcsr => regs .mxcsr
  | .x87cw => regs .x87cw
  | _ => 0

/-- The layout is valid for the context that is saved. -/
theorem valid_save : Valid width (structSize context) .rdi area :=
  ⟨by decide, by decide, by decide, by decide, by decide⟩

/-- The layout is valid for the context that is restored. -/
theorem valid_restore : Valid width (structSize context) .rsi area :=
  ⟨by decide, by decide, by decide, by decide, by decide⟩

section Create

variable (entry : BitVec 64) (regs : Regs width) (mem : Nat → UInt8) (obj : Nat)
  (taskBody arg stackTop : BitVec 64)

/-- `create_context` assigns the fields in the order of the slots. -/
theorem createContext_eq :
    createContext entry regs mem obj taskBody arg stackTop =
      writeAll obj (pieces (created entry regs taskBody arg stackTop) area)
        (write mem (initialSp stackTop).toNat 8 entry.toNat) := rfl

/-- Every slot of a new context holds what the first switch to it is to load. -/
theorem created_slots : ∀ t ∈ area,
    read (createContext entry regs mem obj taskBody arg stackTop) (obj + t.offset)
      (width t.reg) = (created entry regs taskBody arg stackTop t.reg).toNat := by
  intro t ht
  rw [createContext_eq]
  exact valid_save.read_pieces _ ht obj _

/-- `create_context` writes the context and the return address on the stack alone. -/
theorem created_other {x : Nat} (hobj : x < obj ∨ obj + structSize context ≤ x)
    (hsp : x < (initialSp stackTop).toNat ∨ (initialSp stackTop).toNat + 8 ≤ x) :
    createContext entry regs mem obj taskBody arg stackTop x = mem x := by
  rw [createContext_eq, valid_save.pieces_other _ hobj]
  exact write_other hsp

/-- The return address on the new stack is that of `task_entrypoint`. -/
theorem created_point (hapart : Apart (initialSp stackTop).toNat 8 obj (structSize context)) :
    read (createContext entry regs mem obj taskBody arg stackTop) (initialSp stackTop).toNat 8 =
      entry.toNat := by
  have hkept : read (createContext entry regs mem obj taskBody arg stackTop)
      (initialSp stackTop).toNat 8 =
      read (write mem (initialSp stackTop).toNat 8 entry.toNat) (initialSp stackTop).toNat 8 := by
    rw [createContext_eq]
    exact read_congr fun x hlow hhigh =>
      valid_save.pieces_other _ (hapart.symm.outside hlow hhigh) _
  rw [hkept, read_write_self]
  exact toNat_mod (n := 8) entry

/-- The control words of a new context are those of its creator. -/
theorem created_control : ∀ r ∈ [Reg.mxcsr, Reg.x87cw],
    created entry regs taskBody arg stackTop r = regs r := by
  intro r hr
  rcases List.mem_pair.mp hr with rfl | rfl <;> rfl

end Create

/-- The registers that the entry point reads are saved. -/
theorem entry_saved : Reg.r15 ∈ area.map Slot.reg ∧ Reg.r14 ∈ area.map Slot.reg := by decide

/-- The code for x86_64 fits together. -/
def lawful : x8664.Lawful where
  area := area
  created := created
  code := rfl
  saves := valid_save
  restores := valid_restore
  args := by decide
  words := by decide
  sp_slot := ⟨⟨.rsp, 0, none⟩, List.mem_cons_self, rfl, rfl⟩
  pc_free := by decide
  lr_slot := fun lr h => nomatch h
  saved := by decide
  created_slots := created_slots
  created_point := by
    intro entry regs mem obj taskBody arg stackTop hapart
    exact created_point entry regs mem obj taskBody arg stackTop hapart
  created_other := fun entry regs mem obj taskBody arg stackTop x hobj hsp =>
    created_other entry regs mem obj taskBody arg stackTop hobj hsp
  created_regs := fun entry regs taskBody arg stackTop =>
    ⟨rfl, created_control entry regs taskBody arg stackTop, rfl, rfl⟩
  body_saved := ⟨Reg.r15, entry_saved.1, nofun, fun f g h => h⟩
  arg_saved := ⟨Reg.r14, entry_saved.2, nofun, fun f g h => h⟩
  control_saved := by decide

end X8664

/-! ## aarch64 -/

namespace Aarch64

/-- Where the registers are in a context; `sp` and `fpcr` go through `x9`. -/
def area : List (Slot Reg) :=
  [⟨.sp, 0x00, some .x9⟩, ⟨.x30, 0x08, none⟩, ⟨.x29, 0x10, none⟩, ⟨.x19, 0x18, none⟩,
    ⟨.x20, 0x20, none⟩, ⟨.x21, 0x28, none⟩, ⟨.x22, 0x30, none⟩, ⟨.x23, 0x38, none⟩,
    ⟨.x24, 0x40, none⟩, ⟨.x25, 0x48, none⟩, ⟨.x26, 0x50, none⟩, ⟨.x27, 0x58, none⟩,
    ⟨.x28, 0x60, none⟩, ⟨.d8, 0x68, none⟩, ⟨.d9, 0x70, none⟩, ⟨.d10, 0x78, none⟩,
    ⟨.d11, 0x80, none⟩, ⟨.d12, 0x88, none⟩, ⟨.d13, 0x90, none⟩, ⟨.d14, 0x98, none⟩,
    ⟨.d15, 0xA0, none⟩, ⟨.fpcr, 0xA8, some .x9⟩]

/-- The registers with which a new context starts. -/
def created (entry : BitVec 64) (regs : Regs width) (taskBody arg stackTop : BitVec 64) :
    Regs width
  | .sp => initialSp stackTop
  | .x30 => entry
  | .x19 => taskBody
  | .x20 => arg
  | .fpcr => regs .fpcr
  | _ => 0#64

/-- The layout is valid for the context that is saved. -/
theorem valid_save : Valid width (structSize context) .x0 area :=
  ⟨by decide, by decide, by decide, by decide, by decide⟩

/-- The layout is valid for the context that is restored. -/
theorem valid_restore : Valid width (structSize context) .x1 area :=
  ⟨by decide, by decide, by decide, by decide, by decide⟩

/-- The fields that `create_context` assigns. -/
def assigned (entry : BitVec 64) (regs : Regs width) (taskBody arg stackTop : BitVec 64) :
    List Piece :=
  [⟨0x00, 8, (initialSp stackTop).toNat⟩, ⟨0x08, 8, entry.toNat⟩, ⟨0x18, 8, taskBody.toNat⟩,
    ⟨0x20, 8, arg.toNat⟩, ⟨0xA8, 8, (regs .fpcr).toNat⟩]

section Create

variable (entry : BitVec 64) (regs : Regs width) (mem : Nat → UInt8) (obj : Nat)
  (taskBody arg stackTop : BitVec 64)

/-- `create_context` clears the context and writes the assigned fields. -/
theorem createContext_eq :
    createContext entry regs mem obj taskBody arg stackTop =
      writeAll obj (assigned entry regs taskBody arg stackTop)
        (write mem obj (structSize context) 0) := rfl

/-- The assigned fields do not overlap. -/
theorem assigned_apart : (assigned entry regs taskBody arg stackTop).Pairwise fun p q =>
    p.offset + p.size ≤ q.offset ∨ q.offset + q.size ≤ p.offset := by
  simp [assigned]

/-- An assigned field has its value. -/
theorem read_assigned {p : Piece} (hp : p ∈ assigned entry regs taskBody arg stackTop) :
    read (createContext entry regs mem obj taskBody arg stackTop) (obj + p.offset) p.size =
      p.value % 256 ^ p.size :=
  read_writeAll _ (assigned_apart entry regs taskBody arg stackTop) p hp

/-- Any other field is zero. -/
theorem read_cleared {offset : Nat} (hinside : offset + 8 ≤ structSize context)
    (hapart : ∀ p ∈ assigned entry regs taskBody arg stackTop,
      p.offset + p.size ≤ offset ∨ offset + 8 ≤ p.offset) :
    read (createContext entry regs mem obj taskBody arg stackTop) (obj + offset) 8 = 0 := by
  have hkept : read (createContext entry regs mem obj taskBody arg stackTop) (obj + offset) 8 =
      read (write mem obj (structSize context) 0) (obj + offset) 8 := by
    refine read_congr fun x hlow hhigh => writeAll_other _ fun p hp => ?_
    have := hapart p hp
    omega
  rw [hkept]
  exact read_write_zero (by omega) (by omega)

/-- A slot is one of the five that are assigned, or lies beside all of them. -/
theorem area_split : ∀ t ∈ area,
    t ∈ [⟨.sp, 0x00, some .x9⟩, ⟨.x30, 0x08, none⟩, ⟨.x19, 0x18, none⟩, ⟨.x20, 0x20, none⟩,
      (⟨.fpcr, 0xA8, some .x9⟩ : Slot Reg)] ∨
    (t.reg ∉ [Reg.sp, .x30, .x19, .x20, .fpcr] ∧ t.offset + 8 ≤ structSize context ∧
      ∀ o ∈ [0x00, 0x08, 0x18, 0x20, 0xA8], o + 8 ≤ t.offset ∨ t.offset + 8 ≤ o) := by
  decide

/-- The registers that are not assigned start as zero. -/
theorem created_zero {r : Reg} (hr : r ∉ [Reg.sp, .x30, .x19, .x20, .fpcr]) :
    (created entry regs taskBody arg stackTop r).toNat = 0 := by
  cases r <;> first | rfl | simp at hr

/-- Every slot of a new context holds what the first switch to it is to load. -/
theorem created_slots : ∀ t ∈ area,
    read (createContext entry regs mem obj taskBody arg stackTop) (obj + t.offset)
      (width t.reg) = (created entry regs taskBody arg stackTop t.reg).toNat := by
  -- an assigned field holds a register of eight bytes
  have hassigned : ∀ (offset : Nat) (v : BitVec 64),
      (⟨offset, 8, v.toNat⟩ : Piece) ∈ assigned entry regs taskBody arg stackTop →
      read (createContext entry regs mem obj taskBody arg stackTop) (obj + offset) 8 = v.toNat :=
    fun offset v hp => (read_assigned entry regs mem obj taskBody arg stackTop hp).trans
      (toNat_mod (n := 8) v)
  intro t ht
  rcases area_split t ht with hslot | ⟨hreg, hinside, hapart⟩
  · simp only [List.mem_cons, List.not_mem_nil, or_false] at hslot
    rcases hslot with rfl | rfl | rfl | rfl | rfl
    · exact hassigned 0x00 (initialSp stackTop) (by simp [assigned])
    · exact hassigned 0x08 entry (by simp [assigned])
    · exact hassigned 0x18 taskBody (by simp [assigned])
    · exact hassigned 0x20 arg (by simp [assigned])
    · exact hassigned 0xA8 (regs .fpcr) (.tail _ (.tail _ (.tail _ (.tail _ (.head _)))))
  · rw [created_zero entry regs taskBody arg stackTop hreg]
    refine read_cleared entry regs mem obj taskBody arg stackTop hinside ?_
    simpa [assigned] using hapart

/-- `create_context` writes the context alone. -/
theorem created_other {x : Nat} (hobj : x < obj ∨ obj + structSize context ≤ x) :
    createContext entry regs mem obj taskBody arg stackTop x = mem x := by
  rw [createContext_eq, writeAll_other]
  · exact write_other hobj
  · intro p hp
    have hsize : structSize context = 176 := by decide
    have hinside : p.offset + p.size ≤ 176 := by
      simp only [assigned, List.mem_cons, List.not_mem_nil, or_false] at hp
      rcases hp with rfl | rfl | rfl | rfl | rfl <;> simp
    omega

end Create

/-- The registers that the entry point reads are saved. -/
theorem entry_saved :
    Reg.x19 ∈ area.map Slot.reg ∧ Reg.x20 ∈ area.map Slot.reg ∧ Reg.x30 ∈ area.map Slot.reg := by
  decide

/-- The code for aarch64 fits together. -/
def lawful : aarch64.Lawful where
  area := area
  created := created
  code := rfl
  saves := valid_save
  restores := valid_restore
  args := by decide
  words := by decide
  sp_slot := ⟨⟨.sp, 0, some .x9⟩, List.mem_cons_self, rfl, rfl⟩
  pc_free := by decide
  lr_slot := by
    rintro lr ⟨⟩
    exact ⟨entry_saved.2.2, nofun, rfl⟩
  saved := by decide
  created_slots := created_slots
  created_point := fun entry regs mem obj taskBody arg stackTop _ => rfl
  created_other := fun entry regs mem obj taskBody arg stackTop x hobj _ =>
    created_other entry regs mem obj taskBody arg stackTop hobj
  created_regs := fun entry regs taskBody arg stackTop =>
    ⟨rfl, fun r hr => by rw [List.mem_singleton.mp hr]; rfl, rfl, rfl⟩
  body_saved := ⟨Reg.x19, entry_saved.1, nofun, fun f g h => h⟩
  arg_saved := ⟨Reg.x20, entry_saved.2.1, nofun, fun f g h => h⟩
  control_saved := by decide

end Aarch64

def ArchName.lawful : (name : ArchName) → name.arch.Lawful
  | .x86_64 => X8664.lawful
  | .aarch64 => Aarch64.lawful

/-! ## Suspended register files -/

namespace Arch.Lawful

variable {A : Arch} (L : A.Lawful)

/-- Memory holds the registers of a context that returns to `point` when it is resumed. -/
structure Holds (mem : Nat → UInt8) (obj : Nat) (regs : Regs A.width) (point : Nat) : Prop where
  slots : ∀ t ∈ L.area, read mem (obj + t.offset) (A.width t.reg) = (regs t.reg).toNat
  point : A.returnPoint regs mem = point

variable {L} {mem mem' : Nat → UInt8} {obj point : Nat} {regs image : Regs A.width}

/-- The stack pointer is in its slot. -/
theorem read_sp (L : A.Lawful)
    (hslots : ∀ t ∈ L.area, read mem (obj + t.offset) (A.width t.reg) = (regs t.reg).toNat) :
    read mem (obj + A.spOffset) 8 = (regs A.sp).toNat := by
  obtain ⟨t, ht, hreg, hoff⟩ := L.sp_slot
  have hread := hslots t ht
  have hwidth : read mem (obj + A.spOffset) (A.width A.sp) = read mem (obj + A.spOffset) 8 := by
    rw [L.words.2.1]
  rw [hreg, hoff, hwidth] at hread
  exact hread

/-- A context that holds an image holds its stack pointer. -/
theorem Holds.savedSp (h : L.Holds mem obj regs point) :
    read mem (obj + A.spOffset) 8 = (regs A.sp).toNat := L.read_sp h.slots

/-- The point of return depends on the stack alone. -/
theorem returnPoint_congr
    (h : ∀ x, (regs A.sp).toNat ≤ x → x < (regs A.sp).toNat + A.returnBytes → mem x = mem' x) :
    A.returnPoint regs mem = A.returnPoint regs mem' := by
  unfold returnPoint
  unfold returnBytes at h
  cases hret : A.ret with
  | stack =>
      rw [hret] at h
      exact read_congr h
  | link lr => rfl

/-- The stack pointer is saved. -/
theorem sp_saved (L : A.Lawful) : A.sp ∈ L.area.map Slot.reg := by
  obtain ⟨t, ht, hreg, _⟩ := L.sp_slot
  exact List.mem_map.mpr ⟨t, ht, hreg⟩

/-- The point of return depends on saved registers alone. -/
theorem returnPoint_eq (L : A.Lawful) (hregs : ∀ r ∈ L.area.map Slot.reg, image r = regs r) :
    A.returnPoint image mem = A.returnPoint regs mem := by
  unfold returnPoint
  cases hret : A.ret with
  | stack =>
      dsimp only
      rw [hregs _ L.sp_saved]
  | link lr =>
      dsimp only
      rw [hregs lr (L.lr_slot lr hret).1]

/-- Only the registers of the area matter. -/
theorem Holds.congr (h : L.Holds mem obj regs point)
    (hregs : ∀ r ∈ L.area.map Slot.reg, image r = regs r) : L.Holds mem obj image point := by
  refine ⟨fun t ht => ?_, (L.returnPoint_eq hregs).trans h.point⟩
  rw [hregs t.reg (List.mem_map_of_mem ht)]
  exact h.slots t ht

/-- Only the context and the return address above the saved stack pointer matter. -/
theorem Holds.frame (h : L.Holds mem obj regs point)
    (hobj : ∀ x, obj ≤ x → x < obj + A.contextSize → mem x = mem' x)
    (hword : ∀ x, (regs A.sp).toNat ≤ x → x < (regs A.sp).toNat + A.returnBytes →
      mem x = mem' x) : L.Holds mem' obj regs point := by
  refine ⟨fun t ht => ?_, (returnPoint_congr hword).symm.trans h.point⟩
  have hinside := (L.saves.inside t ht).2
  rw [← h.slots t ht]
  exact (read_congr fun x hlow hhigh => hobj x (by omega) (by omega)).symm

/-- **Creating** a context makes memory hold the registers of a new task. -/
theorem holds_created (entry taskBody arg stackTop : BitVec 64)
    (hapart : Apart (A.initialSp stackTop).toNat A.returnBytes obj A.contextSize) :
    L.Holds (A.createContext entry regs mem obj taskBody arg stackTop) obj
      (L.created entry regs taskBody arg stackTop) entry.toNat :=
  ⟨L.created_slots entry regs mem obj taskBody arg stackTop,
    L.created_point entry regs mem obj taskBody arg stackTop hapart⟩

/-! ### Switching -/

variable (L) {s : Cpu A.width}

/-- The memory after a switch: the registers of the caller are in the old context. -/
def savedMem (L : A.Lawful) (s : Cpu A.width) : Nat → UInt8 :=
  writeAll (s.regs A.oldArg).toNat (pieces s.regs L.area) s.mem

/-- **Switching away** makes memory hold the registers of the caller. -/
theorem holds_saved (hobj : (s.regs A.oldArg).toNat = obj)
    (hapart : Apart (s.regs A.sp).toNat A.returnBytes obj A.contextSize) :
    L.Holds (L.savedMem s) obj s.regs (A.returnPoint s.regs s.mem) := by
  unfold savedMem
  rw [hobj]
  refine ⟨fun t ht => L.saves.read_pieces _ ht obj _, returnPoint_congr fun x hlow hhigh => ?_⟩
  exact L.saves.pieces_other _ (hapart.symm.outside hlow hhigh) _

/-- A switch writes to the old context only. -/
theorem savedMem_other {x : Nat}
    (hx : x < (s.regs A.oldArg).toNat ∨ (s.regs A.oldArg).toNat + A.contextSize ≤ x) :
    L.savedMem s x = s.mem x :=
  L.saves.pieces_other _ hx _

/-- No register is saved through the register that points to the new context. -/
theorem kept_newArg : Kept L.area A.newArg :=
  fun t ht hvia => (L.restores.scratch t ht _ hvia).2.1 rfl

/-- The state of a switch before its `ret`. -/
theorem exec_restored (hold : (s.regs A.oldArg).toNat + A.contextSize ≤ 2 ^ 64)
    (hnew : (s.regs A.newArg).toNat = obj) (hfits : obj + A.contextSize ≤ 2 ^ 64) :
    ∃ r : Cpu A.width, execAll A.contextSwitch s = execAll A.retCode r ∧ r.mem = L.savedMem s ∧
      ∀ t ∈ L.area, r.regs t.reg =
        BitVec.ofNat _ (read (L.savedMem s) (obj + t.offset) (A.width t.reg)) := by
  have hpow : 2 ^ (8 * A.width A.oldArg) = 2 ^ 64 := by rw [L.words.2.2.1]
  have hpow' : 2 ^ (8 * A.width A.newArg) = 2 ^ 64 := by rw [L.words.2.2.2]
  obtain ⟨hmem, hkept⟩ := Valid.save_area L.area (s := s) L.saves (by rw [hpow]; exact hold)
  have hbase := hkept _ L.kept_newArg
  obtain ⟨hmem', hregs, _⟩ := Valid.restore_area L.area
    (s := execAll (L.area.flatMap (Slot.save A.oldArg)) s) L.restores
    (by rw [hpow', hbase, hnew]; exact hfits)
  rw [hbase, hnew, hmem] at hregs
  refine ⟨_, ?_, hmem'.trans hmem, hregs⟩
  rw [L.code, execAll_append, execAll_append]

/-- The registers of a thread that runs on with the registers `image` from `point`. -/
structure Restored (image : Regs A.width) (point : Nat) (after : Regs A.width) : Prop where
  sp : (after A.sp).toNat = A.callerSp image
  pc : (after A.pc).toNat = point
  slots : ∀ r ∈ L.area.map Slot.reg, r ≠ A.sp → after r = image r

/-- What `ret` does when the registers are back. -/
theorem exec_ret {r : Cpu A.width} (hregs : ∀ t ∈ L.area, r.regs t.reg = image t.reg)
    (hpoint : A.returnPoint image r.mem = point) :
    L.Restored image point (execAll A.retCode r).regs := by
  obtain ⟨hpcsp, hpcslot⟩ := L.pc_free
  have hslots : ∀ x ∈ L.area.map Slot.reg, x ≠ A.pc ∧ r.regs x = image x := by
    intro x hx
    refine ⟨fun heq => hpcslot (heq ▸ hx), ?_⟩
    obtain ⟨t, ht, rfl⟩ := List.mem_map.mp hx
    exact hregs t ht
  have hsp := (hslots A.sp L.sp_saved).2
  have hpc : 2 ^ (8 * A.width A.pc) = 256 ^ 8 :=
    (congrArg (fun w => 2 ^ (8 * w)) L.words.1).trans (by decide)
  have hspw : 2 ^ (8 * A.width A.sp) = 2 ^ 64 := by rw [L.words.2.1]
  unfold retCode
  unfold returnPoint at hpoint
  cases hret : A.ret with
  | stack =>
      rw [hret] at hpoint
      refine ⟨?_, ?_, fun x hx hne => ?_⟩
      · have hcaller : A.callerSp image = ((image A.sp).toNat + 8) % 2 ^ 64 := by
          unfold callerSp
          rw [hret]
        rw [hcaller]
        show (Function.update (Function.update r.regs A.pc _) A.sp _ A.sp).toNat = _
        rw [Function.update_self, BitVec.toNat_add, BitVec.toNat_ofNat, hspw, hsp, L.words.1,
          Nat.add_mod_mod]
      · show (Function.update (Function.update r.regs A.pc _) A.sp _ A.pc).toNat = point
        rw [Function.update_of_ne hpcsp, Function.update_self, BitVec.toNat_ofNat, hpc, hsp,
          L.words.1, ← hpoint]
        exact Nat.mod_eq_of_lt (value_lt _ 8)
      · show Function.update (Function.update r.regs A.pc _) A.sp _ x = image x
        rw [Function.update_of_ne hne, Function.update_of_ne (hslots x hx).1]
        exact (hslots x hx).2
  | link lr =>
      rw [hret] at hpoint
      obtain ⟨hlr, hlrsp, hlrw⟩ := L.lr_slot lr hret
      refine ⟨?_, ?_, fun x hx _ => ?_⟩
      · have hcaller : A.callerSp image = (image A.sp).toNat := by
          unfold callerSp
          rw [hret]
        rw [hcaller]
        show (Function.update r.regs A.pc _ A.sp).toNat = _
        rw [Function.update_of_ne hpcsp.symm, hsp]
      · show (Function.update r.regs A.pc _ A.pc).toNat = point
        have hlrpow : 2 ^ (8 * A.width lr) = 256 ^ 8 :=
          (congrArg (fun w => 2 ^ (8 * w)) hlrw).trans (by decide)
        rw [Function.update_self, BitVec.toNat_setWidth, hpc, (hslots lr hlr).2, ← hpoint]
        exact Nat.mod_eq_of_lt (hlrpow ▸ (image lr).isLt)
      · show Function.update r.regs A.pc _ x = image x
        rw [Function.update_of_ne (hslots x hx).1]
        exact (hslots x hx).2

omit L in
/-- The return writes no memory. -/
theorem exec_ret_mem (r : Cpu A.width) : (execAll A.retCode r).mem = r.mem := by
  unfold retCode
  cases A.ret <;> rfl

/-- **A switch** saves the caller in the old context and restores what memory then holds in
the new one. -/
theorem exec_switch (hold : (s.regs A.oldArg).toNat + A.contextSize ≤ 2 ^ 64)
    (hnew : (s.regs A.newArg).toNat = obj) (hfits : obj + A.contextSize ≤ 2 ^ 64) :
    (execAll A.contextSwitch s).mem = L.savedMem s ∧
      ∀ image point, L.Holds (L.savedMem s) obj image point →
        L.Restored image point (execAll A.contextSwitch s).regs := by
  obtain ⟨r, hexec, hmem, hregs⟩ := L.exec_restored hold hnew hfits
  rw [hexec]
  refine ⟨(exec_ret_mem r).trans hmem, fun image point h => L.exec_ret (fun t ht => ?_) ?_⟩
  · rw [hregs t ht, h.slots t ht, BitVec.ofNat_toNat, BitVec.setWidth_eq]
  · rw [hmem]
    exact h.point

variable {L} {after : Regs A.width}

/-- A thread that was suspended with `regs` finds them again. -/
theorem Restored.resumed (h : L.Restored regs (A.returnPoint regs mem) after) :
    A.Resumed regs mem after := by
  refine ⟨h.sp, h.pc, fun r hr => ?_, fun r hr => ?_⟩
  · obtain ⟨hslot, hne⟩ := L.saved r (List.mem_append_left _ hr)
    exact h.slots r hslot hne
  · obtain ⟨hslot, hne⟩ := L.saved r (List.mem_append_right _ hr)
    exact h.slots r hslot hne

/-- A new task starts with its function, its argument and the control state of its
creator. -/
theorem Restored.entered {entry taskBody arg stackTop : BitVec 64}
    (h : L.Restored (L.created entry regs taskBody arg stackTop) entry.toNat after) :
    A.Entered entry regs taskBody arg after := by
  obtain ⟨_, hcontrol, hbody, harg⟩ := L.created_regs entry regs taskBody arg stackTop
  refine ⟨h.pc, ?_, ?_, fun r hr => ?_⟩
  · obtain ⟨r, hslot, hne, hreads⟩ := L.body_saved
    exact (hreads _ _ (h.slots r hslot hne)).trans hbody
  · obtain ⟨r, hslot, hne, hreads⟩ := L.arg_saved
    exact (hreads _ _ (h.slots r hslot hne)).trans harg
  · obtain ⟨hslot, hne⟩ := L.saved r (List.mem_append_right _ (L.control_saved r hr))
    exact (h.slots r hslot hne).trans (hcontrol r hr)

end Arch.Lawful

end Croutine
