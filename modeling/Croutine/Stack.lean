import Croutine.ContextSpec

/-!
# The geometry of task stacks

`create_stack` and `destroy_stack` of `task.c` with the system calls they make, the size that
`croutine_runtime_init` accepts, and the top of the stack that a spawn passes to
`create_context`, in 64-bit arithmetic that wraps.

The stack lies inside its mapping above the guard page, and the first stack pointer inside
the stack, unless rounding the size up to a page wraps.  Then the mapping is the guard page
alone and the stack lies behind it.
-/

namespace Croutine

open SaveArea

/-! ## The code -/

/-- What the operating system answers: `sysconf(_SC_PAGESIZE)`, the base of a new mapping of
the given length, and whether the protection of a stretch could be changed. -/
structure Os where
  sysconf : Int
  mmap : BitVec 64 → Option (BitVec 64)
  mprotect : BitVec 64 → BitVec 64 → Bool

/-- The calls that change mappings, with address and length. -/
inductive MapCall where
  | mmap (base length : BitVec 64)
  | protect (base length : BitVec 64)
  | munmap (base length : BitVec 64)
  deriving DecidableEq

/-- `CROUTINE_DEFAULT_STACK_SIZE`. -/
def defaultStackSize : BitVec 64 := 256 * 1024

/-- The stack size that `croutine_runtime_init` configures; `none` where it refuses. -/
def configuredStackSize (requested : BitVec 64) : Option (BitVec 64) :=
  let stackSize := if requested = 0 then defaultStackSize else requested
  if stackSize < 16 * 1024 then none else some stackSize

def alignUp (value alignment : BitVec 64) : BitVec 64 :=
  (value + alignment - 1) &&& ~~~(alignment - 1)

namespace Os

def getPageSize (os : Os) : BitVec 64 :=
  if os.sysconf ≤ 0 then 4096 else BitVec.ofInt 64 os.sysconf

def getUsableStackSize (os : Os) (stackSize : BitVec 64) : BitVec 64 :=
  alignUp stackSize os.getPageSize

def getStackMappingSize (os : Os) (stackSize : BitVec 64) : BitVec 64 :=
  os.getPageSize + os.getUsableStackSize stackSize

/-- `create_stack`; `none` is its result `NULL`. -/
def createStack (os : Os) (stackSize : BitVec 64) : Option (BitVec 64) × List MapCall :=
  let mappingSize := os.getStackMappingSize stackSize
  match os.mmap mappingSize with
  | none => (none, [])
  | some mapping =>
    if os.mprotect mapping os.getPageSize then
      (some (mapping + os.getPageSize),
        [.mmap mapping mappingSize, .protect mapping os.getPageSize])
    else (none, [.mmap mapping mappingSize, .munmap mapping mappingSize])

def destroyStack (os : Os) (stack stackSize : BitVec 64) : List MapCall :=
  if stack = 0 then []
  else [.munmap (stack - os.getPageSize) (os.getStackMappingSize stackSize)]

/-- A mapping has the length that was asked for, which is not zero, and does not wrap. -/
def Sound (os : Os) : Prop :=
  ∀ length base, os.mmap length = some base →
    length ≠ 0 ∧ base.toNat + length.toNat < 2 ^ 64

end Os

/-! ## Rounding -/

/-- Masking the low bits off rounds down. -/
theorem toNat_and_not_mask {k : Nat} (x m : BitVec 64) (hm : m.toNat = 2 ^ k - 1) :
    (x &&& ~~~m).toNat = x.toNat / 2 ^ k * 2 ^ k := by
  have hbits : x &&& ~~~m = (x >>> k) <<< k := by
    ext i hi
    have hmask : m[i] = decide (i < k) := by
      rw [← BitVec.getLsbD_eq_getElem, ← BitVec.testBit_toNat, hm, Nat.testBit_two_pow_sub_one]
    simp only [BitVec.getElem_and, BitVec.getElem_not, hmask, BitVec.getElem_shiftLeft]
    by_cases h : i < k
    · simp [h]
    · simp [h, BitVec.getLsbD_eq_getElem, Nat.add_sub_cancel' (Nat.le_of_not_lt h), hi]
  rw [hbits, BitVec.toNat_shiftLeft, BitVec.toNat_ushiftRight, Nat.shiftRight_eq_div_pow,
    Nat.shiftLeft_eq]
  exact Nat.mod_eq_of_lt (Nat.lt_of_le_of_lt (Nat.div_mul_le_self _ _) x.isLt)

/-- The rounded value is the first multiple of the alignment from the value on. -/
theorem alignUp_bounds {k : Nat} {value alignment : BitVec 64} (hk : alignment.toNat = 2 ^ k)
    (hfits : value.toNat + alignment.toNat ≤ 2 ^ 64) :
    value.toNat ≤ (alignUp value alignment).toNat ∧
      (alignUp value alignment).toNat < value.toNat + alignment.toNat ∧
      alignment.toNat ∣ (alignUp value alignment).toNat := by
  have hpos : 0 < alignment.toNat := by
    rw [hk]
    exact Nat.two_pow_pos k
  have hone : (1 : BitVec 64).toNat = 1 := rfl
  have hlt := alignment.isLt
  have hmask : (alignment - 1).toNat = 2 ^ k - 1 := by
    rw [BitVec.toNat_sub, hone, ← hk]
    omega
  have hsum : (value + alignment - 1).toNat = value.toNat + alignment.toNat - 1 := by
    rw [BitVec.toNat_sub, BitVec.toNat_add, hone]
    omega
  unfold alignUp
  rw [toNat_and_not_mask _ _ hmask, hsum, ← hk]
  have hdiv := Nat.div_add_mod (value.toNat + alignment.toNat - 1) alignment.toNat
  have hmod := Nat.mod_lt (value.toNat + alignment.toNat - 1) hpos
  rw [Nat.mul_comm] at hdiv
  exact ⟨by omega, by omega, Nat.dvd_mul_left _ _⟩

/-- The first stack pointer: at most 143 bytes below the top, a multiple of 16, with room
for the return address. -/
theorem initialSp_bounds (name : ArchName) (top : BitVec 64) (htop : 16 * 1024 ≤ top.toNat) :
    top.toNat < (name.arch.initialSp top).toNat + 144 ∧
      (name.arch.initialSp top).toNat + name.arch.returnBytes ≤ top.toNat ∧
      (name.arch.initialSp top).toNat % 16 = 0 := by
  have hlt := top.isLt
  cases name with
  | x86_64 =>
      have hsub : (top - 128).toNat = top.toNat - 128 := by
        rw [BitVec.toNat_sub]
        show (2 ^ 64 - 128 + top.toNat) % 2 ^ 64 = _
        omega
      have hsp : (X8664.initialSp top).toNat = (top.toNat - 128) / 2 ^ 4 * 2 ^ 4 := by
        rw [X8664.initialSp, toNat_and_not_mask (k := 4) _ _ rfl, hsub]
      show top.toNat < (X8664.initialSp top).toNat + 144 ∧
        (X8664.initialSp top).toNat + 8 ≤ top.toNat ∧ (X8664.initialSp top).toNat % 16 = 0
      rw [hsp]
      omega
  | aarch64 =>
      have hsp : (Aarch64.initialSp top).toNat = top.toNat / 2 ^ 4 * 2 ^ 4 := by
        rw [Aarch64.initialSp, toNat_and_not_mask (k := 4) _ _ rfl]
      show top.toNat < (Aarch64.initialSp top).toNat + 144 ∧
        (Aarch64.initialSp top).toNat + 0 ≤ top.toNat ∧ (Aarch64.initialSp top).toNat % 16 = 0
      rw [hsp]
      omega

/-! ## The stack in its mapping -/

/-- Where rounding up does not wrap, neither does adding the guard page, except to zero. -/
theorem Os.mappingSize_eq {os : Os} {k : Nat} {stackSize : BitVec 64}
    (hpage : os.getPageSize.toNat = 2 ^ k)
    (hround : stackSize.toNat + os.getPageSize.toNat ≤ 2 ^ 64)
    (hzero : os.getStackMappingSize stackSize ≠ 0) :
    (os.getStackMappingSize stackSize).toNat =
        os.getPageSize.toNat + (os.getUsableStackSize stackSize).toNat ∧
      stackSize.toNat ≤ (os.getUsableStackSize stackSize).toNat := by
  obtain ⟨hlow, hhigh, d, hd⟩ := alignUp_bounds hpage hround
  refine ⟨?_, hlow⟩
  have hlt : (os.getUsableStackSize stackSize).toNat < 2 ^ 64 := BitVec.isLt _
  have hk : k ≤ 64 := by
    have hpow : 2 ^ k < 2 ^ 64 := hpage ▸ os.getPageSize.isLt
    exact Nat.le_of_lt ((Nat.pow_lt_pow_iff_right (by decide)).mp hpow)
  obtain ⟨c, hc⟩ : os.getPageSize.toNat ∣ 2 ^ 64 := hpage ▸ Nat.pow_dvd_pow 2 hk
  -- both are multiples of the page size, so a page more is at most the whole address space
  have hsum : os.getPageSize.toNat + (os.getUsableStackSize stackSize).toNat ≤ 2 ^ 64 := by
    change (alignUp stackSize os.getPageSize).toNat < 2 ^ 64 at hlt
    change os.getPageSize.toNat + (alignUp stackSize os.getPageSize).toNat ≤ 2 ^ 64
    rw [hd, hc] at hlt
    rw [hd, hc, Nat.add_comm, ← Nat.mul_succ]
    exact Nat.mul_le_mul_left _ (Nat.lt_of_mul_lt_mul_left hlt)
  have hne : os.getPageSize.toNat + (os.getUsableStackSize stackSize).toNat ≠ 2 ^ 64 := by
    intro heq
    refine hzero (BitVec.eq_of_toNat_eq ?_)
    rw [Os.getStackMappingSize, BitVec.toNat_add, heq]
    rfl
  rw [Os.getStackMappingSize, BitVec.toNat_add]
  exact Nat.mod_eq_of_lt (by omega)

/-- The inversion of `create_stack`. -/
theorem Os.createStack_some {os : Os} {stackSize stack : BitVec 64} {calls : List MapCall}
    (h : os.createStack stackSize = (some stack, calls)) :
    ∃ base, os.mmap (os.getStackMappingSize stackSize) = some base ∧
      stack = base + os.getPageSize ∧
      calls = [.mmap base (os.getStackMappingSize stackSize), .protect base os.getPageSize] := by
  unfold createStack at h
  dsimp only at h
  cases hmmap : os.mmap (os.getStackMappingSize stackSize) with
  | none =>
      rw [hmmap] at h
      exact nomatch (Prod.mk.inj h).1
  | some base =>
      rw [hmmap] at h
      dsimp only at h
      split at h
      · obtain ⟨hstack, hcalls⟩ := Prod.mk.inj h
        exact ⟨base, rfl, (Option.some.inj hstack).symm, hcalls.symm⟩
      · exact nomatch (Prod.mk.inj h).1

theorem configuredStackSize_ge {requested stackSize : BitVec 64}
    (h : configuredStackSize requested = some stackSize) : 16 * 1024 ≤ stackSize.toNat := by
  unfold configuredStackSize at h
  dsimp only at h
  generalize (if requested = 0 then defaultStackSize else requested) = size at h
  split at h
  · exact nomatch h
  · next hlarge =>
    obtain rfl := Option.some.inj h
    exact Nat.le_of_not_lt hlarge

/-- The first stack pointer that `create_context` stores lies in the stack, is aligned, and
every byte it writes outside the context lies in the stack. -/
theorem createContext_in_stack (name : ArchName) {stack stackSize : BitVec 64}
    (hsize : 16 * 1024 ≤ stackSize.toNat) (hfits : stack.toNat + stackSize.toNat < 2 ^ 64)
    (entry : BitVec 64) (regs : Regs name.arch.width) (mem : Nat → UInt8) (obj : Nat)
    (taskBody arg : BitVec 64) :
    ∃ sp, read (name.arch.createContext entry regs mem obj taskBody arg (stack + stackSize))
        (obj + name.arch.spOffset) 8 = sp ∧
      (stack.toNat < sp ∧ sp ≤ stack.toNat + stackSize.toNat ∧ sp % 16 = 0) ∧
      sp + name.arch.returnBytes ≤ stack.toNat + stackSize.toNat ∧
      ∀ x, name.arch.createContext entry regs mem obj taskBody arg (stack + stackSize) x ≠
        mem x → (obj ≤ x ∧ x < obj + name.arch.contextSize) ∨
          (sp ≤ x ∧ x < sp + name.arch.returnBytes) := by
  have htop : (stack + stackSize).toNat = stack.toNat + stackSize.toNat := by
    rw [BitVec.toNat_add]
    exact Nat.mod_eq_of_lt hfits
  obtain ⟨hlow, hword, halign⟩ := initialSp_bounds name (stack + stackSize) (by omega)
  rw [htop] at hlow hword
  have L := name.lawful
  have hsp : read (name.arch.createContext entry regs mem obj taskBody arg (stack + stackSize))
      (obj + name.arch.spOffset) 8 = (name.arch.initialSp (stack + stackSize)).toNat :=
    (L.read_sp (L.created_slots entry regs mem obj taskBody arg (stack + stackSize))).trans
      (L.created_regs entry regs taskBody arg (stack + stackSize)).1
  refine ⟨_, hsp, ⟨by omega, by omega, halign⟩, hword, fun x hx => ?_⟩
  by_contra hout
  refine hx (L.created_other entry regs mem obj taskBody arg (stack + stackSize) x ?_ ?_)
  · omega
  · omega

/-- The geometry that a stack should have, by the calls that made it.  The stack lies, whole,
inside the mapping above its guard page, with no wrap; on both architectures `create_context`
stores a first stack pointer that is inside the stack, is aligned to 16 bytes and has the
return address that is written there inside the stack; and `destroy_stack` unmaps what was
mapped. -/
def Os.StackInMapping (os : Os) (stackSize stack : BitVec 64) (calls : List MapCall) : Prop :=
  ∃ base length, calls = [.mmap base length, .protect base os.getPageSize] ∧
    (length.toNat = os.getPageSize.toNat + (os.getUsableStackSize stackSize).toNat ∧
      base.toNat + length.toNat < 2 ^ 64) ∧
    (stack.toNat = base.toNat + os.getPageSize.toNat ∧
      stack.toNat + stackSize.toNat ≤ base.toNat + length.toNat) ∧
    (∀ (name : ArchName) (entry : BitVec 64) (regs : Regs name.arch.width)
      (mem : Nat → UInt8) (obj : Nat) (taskBody arg : BitVec 64),
      ∃ sp, read (name.arch.createContext entry regs mem obj taskBody arg
          (stack + stackSize)) (obj + name.arch.spOffset) 8 = sp ∧
        (stack.toNat < sp ∧ sp ≤ stack.toNat + stackSize.toNat ∧ sp % 16 = 0) ∧
        sp + name.arch.returnBytes ≤ stack.toNat + stackSize.toNat ∧
        ∀ x, name.arch.createContext entry regs mem obj taskBody arg (stack + stackSize) x ≠
          mem x → (obj ≤ x ∧ x < obj + name.arch.contextSize) ∨
            (sp ≤ x ∧ x < sp + name.arch.returnBytes)) ∧
    os.destroyStack stack stackSize = [.munmap base length]

/-- A stack inside its mapping leaves room for the guard page in the address space. -/
theorem Os.StackInMapping.fits {os : Os} {stackSize stack : BitVec 64} {calls : List MapCall}
    (h : os.StackInMapping stackSize stack calls) :
    stackSize.toNat + os.getPageSize.toNat ≤ 2 ^ 64 := by
  obtain ⟨base, length, _, ⟨_, hend⟩, ⟨hstack, hinside⟩, _⟩ := h
  omega

/-- **Stack geometry is sound** if and only if rounding the size up to a page does not wrap:
for every power-of-two page size and every stack size that the runtime accepts, a stack that
`create_stack` returns has its geometry exactly then. -/
theorem stack_geometry_sound {os : Os} {k : Nat} {requested stackSize stack : BitVec 64}
    {calls : List MapCall} (hos : os.Sound) (hpage : os.getPageSize.toNat = 2 ^ k)
    (haccepted : configuredStackSize requested = some stackSize)
    (hcreate : os.createStack stackSize = (some stack, calls)) :
    stackSize.toNat + os.getPageSize.toNat ≤ 2 ^ 64 ↔
      os.StackInMapping stackSize stack calls := by
  refine ⟨fun hround => ?_, Os.StackInMapping.fits⟩
  obtain ⟨base, hmmap, rfl, rfl⟩ := Os.createStack_some hcreate
  obtain ⟨hzero, hbase⟩ := hos _ _ hmmap
  obtain ⟨hlength, husable⟩ := Os.mappingSize_eq hpage hround hzero
  have hsize := configuredStackSize_ge haccepted
  have hstack : (base + os.getPageSize).toNat = base.toNat + os.getPageSize.toNat := by
    rw [BitVec.toNat_add]
    exact Nat.mod_eq_of_lt (by omega)
  have hinside : (base + os.getPageSize).toNat + stackSize.toNat ≤
      base.toNat + (os.getStackMappingSize stackSize).toNat := by
    omega
  refine ⟨base, _, rfl, ⟨hlength, hbase⟩, ⟨hstack, hinside⟩,
    fun name => createContext_in_stack name hsize (by omega), ?_⟩
  have hnull : base + os.getPageSize ≠ 0 := by
    intro heq
    have hpos := Nat.two_pow_pos k
    have hzero : (0 : BitVec 64).toNat = 0 := rfl
    rw [heq, hzero, hpage] at hstack
    omega
  unfold Os.destroyStack
  rw [if_neg hnull, BitVec.add_sub_cancel]

/-- Pages of 4 KiB, and a system that maps stretches of less than a gigabyte at 64 KiB. -/
def smallPages : Os where
  sysconf := 4096
  mmap length := if length = 0 ∨ 0x40000000 ≤ length then none else some 0x10000
  mprotect _ _ := true

theorem smallPages_sound : smallPages.Sound := by
  intro length base hmmap
  unfold smallPages at hmmap
  dsimp only at hmmap
  split at hmmap
  · exact nomatch hmmap
  · next hlength =>
    obtain rfl := Option.some.inj hmmap
    rw [not_or] at hlength
    have hsmall : length.toNat < 0x40000000 := Nat.lt_of_not_le hlength.2
    refine ⟨hlength.1, ?_⟩
    show 0x10000 + length.toNat < 2 ^ 64
    omega

/-- A size that is a multiple of neither 16 nor the page size. -/
theorem stack_geometry_sound_unaligned :
    ∃ stack calls base length, smallPages.createStack 20001 = (some stack, calls) ∧
      calls = [.mmap base length, .protect base 4096] ∧
      stack.toNat + 20001 ≤ base.toNat + length.toNat ∧
      smallPages.destroyStack stack 20001 = [.munmap base length] := by
  have hcreate : smallPages.createStack 20001 =
      (some 0x11000, [.mmap 0x10000 0x6000, .protect 0x10000 4096]) := by decide
  obtain ⟨base, length, hcalls, _, ⟨_, hinside⟩, _, hdestroy⟩ :=
    (stack_geometry_sound (k := 12) smallPages_sound (by decide)
      (show configuredStackSize 20001 = some 20001 by decide) hcreate).mp (by decide)
  exact ⟨_, _, base, length, hcreate, hcalls, hinside, hdestroy⟩

/-- **Rounding up wraps** for a stack size of `SIZE_MAX`, which the runtime accepts: the
mapping is the guard page alone, the stack begins where it ends, and the first stack pointer
on x86_64 lies in the guard page. -/
theorem stack_geometry_wraps :
    smallPages.Sound ∧ smallPages.getPageSize.toNat = 2 ^ 12 ∧
      configuredStackSize (BitVec.allOnes 64) = some (BitVec.allOnes 64) ∧
      smallPages.createStack (BitVec.allOnes 64) =
        (some 0x11000, [.mmap 0x10000 4096, .protect 0x10000 4096]) ∧
      ¬smallPages.StackInMapping (BitVec.allOnes 64) 0x11000
        [.mmap 0x10000 4096, .protect 0x10000 4096] ∧
      ¬(0x11000 : BitVec 64).toNat + (BitVec.allOnes 64).toNat ≤
        (0x10000 : BitVec 64).toNat + (4096 : BitVec 64).toNat ∧
      (x8664.initialSp (0x11000 + BitVec.allOnes 64)).toNat < (0x11000 : BitVec 64).toNat :=
  ⟨smallPages_sound, by decide, by decide, by decide,
    fun h => absurd h.fits (by decide), by decide, by decide⟩

end Croutine
