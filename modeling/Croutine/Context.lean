import Croutine.Lib.SaveArea

/-!
# Contexts of the two architectures

`struct Context` and the functions of `arch/x86_64.c` and `arch/aarch64.c`: the context
switch as the instructions of its `naked` body, with their literal offsets, and
`create_context` as writes to the fields of the struct, at the offsets the C layout gives
them.  The registers are those the code names and the program counter; of a floating-point
register only the half that `d8` to `d15` name is kept.

`Arch` has what the two have in common.  `Arch.Resumed` and `Arch.Entered` say what a thread
has to find in its registers when it runs on, and when it starts.
-/

namespace Croutine

open SaveArea

/-- How `ret` finds the return point. -/
inductive Return (R : Type) where
  /-- It pops the return address off the stack. -/
  | stack
  /-- It is in the link register. -/
  | link (lr : R)

/-! ## x86_64 -/

namespace X8664

inductive Reg where
  | rip | rsp | rbp | rbx | r12 | r13 | r14 | r15 | rdi | rsi | mxcsr | x87cw
  deriving DecidableEq

/-- The width of a register in bytes. -/
def width : Reg → Nat
  | .mxcsr => 4
  | .x87cw => 2
  | _ => 8

inductive Field where
  | rsp | rbp | rbx | r12 | r13 | r14 | r15 | mxcsr | x87Cw
  deriving DecidableEq

/-- `struct Context`. -/
def context : List (Field × Nat) :=
  [(.rsp, 8), (.rbp, 8), (.rbx, 8), (.r12, 8), (.r13, 8), (.r14, 8), (.r15, 8), (.mxcsr, 4),
    (.x87Cw, 2)]

def contextSwitch : List (Instr Reg) :=
  [.store .rsp .rdi 0, .store .rbp .rdi 8, .store .rbx .rdi 16, .store .r12 .rdi 24,
    .store .r13 .rdi 32, .store .r14 .rdi 40, .store .r15 .rdi 48, .store .mxcsr .rdi 56,
    .store .x87cw .rdi 60,
    .load .rsp .rsi 0, .load .rbp .rsi 8, .load .rbx .rsi 16, .load .r12 .rsi 24,
    .load .r13 .rsi 32, .load .r14 .rsi 40, .load .r15 .rsi 48, .load .mxcsr .rsi 56,
    .load .x87cw .rsi 60,
    .pop .rip .rsp]

def getTaskBody (regs : Regs width) : BitVec 64 := regs .r15

def getTaskArg (regs : Regs width) : BitVec 64 := regs .r14

/-- The stack pointer that `create_context` computes. -/
def initialSp (stackTop : BitVec 64) : BitVec 64 := (stackTop - 128) &&& ~~~0x0F

/-- An assignment to a field of a context. -/
def assign (f : Field) (size v : Nat) : Piece := ⟨offsetOf context f, size, v⟩

/-- `create_context`, called with the registers `regs`. -/
def createContext (entry : BitVec 64) (regs : Regs width) (mem : Nat → UInt8) (context : Nat)
    (taskBody arg stackTop : BitVec 64) : Nat → UInt8 :=
  let rsp := initialSp stackTop
  let mem := write mem rsp.toNat 8 entry.toNat
  writeAll context
    [assign .rsp 8 rsp.toNat, assign .rbp 8 0, assign .rbx 8 0, assign .r12 8 0,
      assign .r13 8 0, assign .r14 8 arg.toNat, assign .r15 8 taskBody.toNat,
      assign .mxcsr 4 (regs .mxcsr).toNat, assign .x87Cw 2 (regs .x87cw).toNat] mem

end X8664

/-! ## aarch64 -/

namespace Aarch64

inductive Reg where
  | pc | sp | x0 | x1 | x9 | x19 | x20 | x21 | x22 | x23 | x24 | x25 | x26 | x27 | x28 | x29
  | x30 | d8 | d9 | d10 | d11 | d12 | d13 | d14 | d15 | fpcr
  deriving DecidableEq

def width : Reg → Nat := fun _ => 8

inductive Field where
  | sp | lr | fp | x19 | x20 | x21 | x22 | x23 | x24 | x25 | x26 | x27 | x28
  | d8 | d9 | d10 | d11 | d12 | d13 | d14 | d15 | fpcr
  deriving DecidableEq

/-- `struct Context`. -/
def context : List (Field × Nat) :=
  [(.sp, 8), (.lr, 8), (.fp, 8), (.x19, 8), (.x20, 8), (.x21, 8), (.x22, 8), (.x23, 8),
    (.x24, 8), (.x25, 8), (.x26, 8), (.x27, 8), (.x28, 8), (.d8, 8), (.d9, 8), (.d10, 8),
    (.d11, 8), (.d12, 8), (.d13, 8), (.d14, 8), (.d15, 8), (.fpcr, 8)]

def contextSwitch : List (Instr Reg) :=
  [.move .x9 .sp, .store .x9 .x0 0x00, .store .x30 .x0 0x08, .store .x29 .x0 0x10,
    .store .x19 .x0 0x18, .store .x20 .x0 0x20, .store .x21 .x0 0x28, .store .x22 .x0 0x30,
    .store .x23 .x0 0x38, .store .x24 .x0 0x40, .store .x25 .x0 0x48, .store .x26 .x0 0x50,
    .store .x27 .x0 0x58, .store .x28 .x0 0x60, .store .d8 .x0 0x68, .store .d9 .x0 0x70,
    .store .d10 .x0 0x78, .store .d11 .x0 0x80, .store .d12 .x0 0x88, .store .d13 .x0 0x90,
    .store .d14 .x0 0x98, .store .d15 .x0 0xA0, .move .x9 .fpcr, .store .x9 .x0 0xA8,
    .load .x9 .x1 0x00, .move .sp .x9, .load .x30 .x1 0x08, .load .x29 .x1 0x10,
    .load .x19 .x1 0x18, .load .x20 .x1 0x20, .load .x21 .x1 0x28, .load .x22 .x1 0x30,
    .load .x23 .x1 0x38, .load .x24 .x1 0x40, .load .x25 .x1 0x48, .load .x26 .x1 0x50,
    .load .x27 .x1 0x58, .load .x28 .x1 0x60, .load .d8 .x1 0x68, .load .d9 .x1 0x70,
    .load .d10 .x1 0x78, .load .d11 .x1 0x80, .load .d12 .x1 0x88, .load .d13 .x1 0x90,
    .load .d14 .x1 0x98, .load .d15 .x1 0xA0, .load .x9 .x1 0xA8, .move .fpcr .x9,
    .move .pc .x30]

def getTaskBody (regs : Regs width) : BitVec 64 := regs .x19

def getTaskArg (regs : Regs width) : BitVec 64 := regs .x20

/-- The stack pointer that `create_context` computes. -/
def initialSp (stackTop : BitVec 64) : BitVec 64 := stackTop &&& ~~~0x0F

/-- An assignment to a field of a context. -/
def assign (f : Field) (v : Nat) : Piece := ⟨offsetOf context f, 8, v⟩

/-- `create_context`, called with the registers `regs`. -/
def createContext (entry : BitVec 64) (regs : Regs width) (mem : Nat → UInt8) (context : Nat)
    (taskBody arg stackTop : BitVec 64) : Nat → UInt8 :=
  let mem := write mem context (structSize Aarch64.context) 0
  writeAll context
    [assign .sp (initialSp stackTop).toNat, assign .lr entry.toNat,
      assign .x19 taskBody.toNat, assign .x20 arg.toNat, assign .fpcr (regs .fpcr).toNat] mem

end Aarch64

/-! ## What the two have in common -/

/-- An architecture: its registers, its `struct Context` and its functions.  `calleeSaved`
and `fpState` are the registers that a switch has to keep, `fpControl` those that control
floating-point arithmetic. -/
structure Arch where
  Reg : Type
  decEq : DecidableEq Reg
  width : Reg → Nat
  pc : Reg
  sp : Reg
  oldArg : Reg
  newArg : Reg
  ret : Return Reg
  calleeSaved : List Reg
  fpState : List Reg
  fpControl : List Reg
  contextSize : Nat
  spOffset : Nat
  contextSwitch : List (Instr Reg)
  initialSp : BitVec 64 → BitVec 64
  createContext : BitVec 64 → Regs width → (Nat → UInt8) → Nat → BitVec 64 → BitVec 64 →
    BitVec 64 → Nat → UInt8
  getTaskBody : Regs width → BitVec 64
  getTaskArg : Regs width → BitVec 64

def x8664 : Arch where
  Reg := X8664.Reg
  decEq := inferInstance
  width := X8664.width
  pc := .rip
  sp := .rsp
  oldArg := .rdi
  newArg := .rsi
  ret := .stack
  calleeSaved := [.rbp, .rbx, .r12, .r13, .r14, .r15]
  fpState := [.mxcsr, .x87cw]
  fpControl := [.mxcsr, .x87cw]
  contextSize := structSize X8664.context
  spOffset := offsetOf X8664.context .rsp
  contextSwitch := X8664.contextSwitch
  initialSp := X8664.initialSp
  createContext := X8664.createContext
  getTaskBody := X8664.getTaskBody
  getTaskArg := X8664.getTaskArg

def aarch64 : Arch where
  Reg := Aarch64.Reg
  decEq := inferInstance
  width := Aarch64.width
  pc := .pc
  sp := .sp
  oldArg := .x0
  newArg := .x1
  ret := .link .x30
  calleeSaved := [.x19, .x20, .x21, .x22, .x23, .x24, .x25, .x26, .x27, .x28, .x29, .x30]
  fpState := [.d8, .d9, .d10, .d11, .d12, .d13, .d14, .d15, .fpcr]
  fpControl := [.fpcr]
  contextSize := structSize Aarch64.context
  spOffset := offsetOf Aarch64.context .sp
  contextSwitch := Aarch64.contextSwitch
  initialSp := Aarch64.initialSp
  createContext := Aarch64.createContext
  getTaskBody := Aarch64.getTaskBody
  getTaskArg := Aarch64.getTaskArg

inductive ArchName where
  | x86_64
  | aarch64
  deriving DecidableEq

def ArchName.arch : ArchName → Arch
  | .x86_64 => x8664
  | .aarch64 => Croutine.aarch64

namespace Arch

variable (A : Arch)

instance : DecidableEq A.Reg := A.decEq

/-- The bytes at the saved stack pointer that resuming reads. -/
def returnBytes : Nat :=
  match A.ret with
  | .stack => 8
  | .link _ => 0

/-- Where a call returns to from a state with these registers, at its first instruction. -/
def returnPoint (regs : Regs A.width) (mem : Nat → UInt8) : Nat :=
  match A.ret with
  | .stack => read mem (regs A.sp).toNat 8
  | .link lr => (regs lr).toNat

/-- The stack pointer that the caller then has. -/
def callerSp (regs : Regs A.width) : Nat :=
  match A.ret with
  | .stack => ((regs A.sp).toNat + 8) % 2 ^ 64
  | .link _ => (regs A.sp).toNat

/-- The instructions of `ret`. -/
def retCode : List (Instr A.Reg) :=
  match A.ret with
  | .stack => [.pop A.pc A.sp]
  | .link lr => [.move A.pc lr]

/-- The registers after a resumption are those of a call that returns from `regs`. -/
structure Resumed (regs : Regs A.width) (mem : Nat → UInt8) (after : Regs A.width) : Prop where
  sp : (after A.sp).toNat = A.callerSp regs
  pc : (after A.pc).toNat = A.returnPoint regs mem
  calleeSaved : ∀ r ∈ A.calleeSaved, after r = regs r
  fpState : ∀ r ∈ A.fpState, after r = regs r

/-- The registers after the first resumption of a context that a thread with the registers
`creator` made. -/
structure Entered (entry : BitVec 64) (creator : Regs A.width)
    (taskBody arg : BitVec 64) (after : Regs A.width) : Prop where
  pc : (after A.pc).toNat = entry.toNat
  body : A.getTaskBody after = taskBody
  arg : A.getTaskArg after = arg
  fpControl : ∀ r ∈ A.fpControl, after r = creator r

end Arch

end Croutine
