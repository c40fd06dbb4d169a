import Mathlib.Data.List.Induction
import Croutine.ContextSpec
import Croutine.Lib.Machine

/-!
# Runs of context switches

Any number of workers switch between the contexts of a finite set, on one memory.  A context
is ready while it is suspended or new: a switch suspends the context it leaves and resumes
one that is ready.  Between two switches a worker executes any code: it changes its registers
at will, and all memory but that of ready contexts, which is the context itself and, where
`ret` pops the return address, the word at the saved stack pointer.

A ready context holds the registers of its last suspension, or those that `create_context`
made, whatever the workers do in between; the switch that resumes it finds them.
-/

namespace Croutine

open SaveArea

/-- A finite set of `struct Context` objects that do not overlap. -/
structure Objects (A : Arch) (n : Nat) where
  addr : Fin n → Nat
  inside : ∀ c, addr c + A.contextSize ≤ 2 ^ 64
  apart : ∀ c d, c ≠ d → Apart (addr c) A.contextSize (addr d) A.contextSize

/-- The memory, the registers of every worker, and which contexts are ready. -/
structure Threads (A : Arch) (n : Nat) where
  mem : Nat → UInt8
  cpu : Nat → Regs A.width
  ready : Fin n → Bool

inductive SwitchAction (A : Arch) (n : Nat) where
  /-- Worker `w` executes code of its own, with these registers and memory bytes as result. -/
  | work (w : Nat) (regs : Regs A.width) (writes : List (Nat × UInt8))
  | createContext (w : Nat) (c : Fin n) (taskBody arg stackTop : BitVec 64)
  | contextSwitch (w : Nat) (old new : Fin n)

/-- The action stores registers in context `c`: a suspension, or its creation. -/
def SwitchAction.saves {A : Arch} {n : Nat} (c : Fin n) : SwitchAction A n → Bool
  | .work .. => false
  | .createContext _ d .. => d = c
  | .contextSwitch _ old _ => old = c

variable {A : Arch} {n : Nat}

namespace Threads

/-- No byte of the stretch belongs to a ready context. -/
def Clear (O : Objects A n) (s : Threads A n) (a k : Nat) : Prop :=
  ∀ c, s.ready c = true → Apart a k (O.addr c) A.contextSize ∧
    Apart a k (read s.mem (O.addr c + A.spOffset) 8) A.returnBytes

instance (O : Objects A n) (s : Threads A n) (a k : Nat) : Decidable (s.Clear O a k) :=
  inferInstanceAs (Decidable (∀ _, _))

/-- The registers of a worker at the first instruction of `context_switch(old, new)`. -/
def callRegs (O : Objects A n) (s : Threads A n) (w : Nat) (old new : Fin n) : Regs A.width :=
  Function.update (Function.update (s.cpu w) A.oldArg (BitVec.ofNat _ (O.addr old))) A.newArg
    (BitVec.ofNat _ (O.addr new))

def step (O : Objects A n) (entry : BitVec 64) (s : Threads A n) :
    SwitchAction A n → Res (Threads A n)
  | .work w regs writes => do
    Res.require (∀ p ∈ writes, s.Clear O p.1 1)
    return { s with
      mem := writes.foldl (fun m p => Function.update m p.1 p.2) s.mem
      cpu := Function.update s.cpu w regs }
  | .createContext w c taskBody arg stackTop => do
    Res.require (s.ready c = false ∧ s.Clear O (O.addr c) A.contextSize ∧
      s.Clear O (A.initialSp stackTop).toNat A.returnBytes ∧
      Apart (A.initialSp stackTop).toNat A.returnBytes (O.addr c) A.contextSize)
    return { s with
      mem := A.createContext entry (s.cpu w) s.mem (O.addr c) taskBody arg stackTop
      ready := Function.update s.ready c true }
  | .contextSwitch w old new => do
    Res.require (s.ready old = false ∧ (new = old ∨ s.ready new = true) ∧
      s.Clear O (O.addr old) A.contextSize ∧
      Apart (s.cpu w A.sp).toNat A.returnBytes (O.addr old) A.contextSize)
    let r := execAll A.contextSwitch ⟨s.callRegs O w old new, s.mem⟩
    return {
      mem := r.mem
      cpu := Function.update s.cpu w r.regs
      ready := Function.update (Function.update s.ready old true) new false }

end Threads

/-- The workers, from any memory and registers and with no context ready. -/
def switching (O : Objects A n) (entry : BitVec 64) : Machine (Threads A n) (SwitchAction A n) where
  init s := ∀ c, s.ready c = false
  step := Threads.step O entry

/-! ## One step -/

/-- What an action that saves a context stores there. -/
def SwitchAction.image (L : A.Lawful) (entry : BitVec 64) (s : Threads A n) :
    SwitchAction A n → Regs A.width × Nat
  | .work w _ _ => (s.cpu w, 0)
  | .createContext w _ taskBody arg stackTop =>
    (L.created entry (s.cpu w) taskBody arg stackTop, entry.toNat)
  | .contextSwitch w _ _ => (s.cpu w, A.returnPoint (s.cpu w) s.mem)

namespace Threads

variable {O : Objects A n} {entry : BitVec 64} {s s' : Threads A n}

theorem addr_lt (L : A.Lawful) (O : Objects A n) (c : Fin n) : O.addr c < 2 ^ 64 := by
  obtain ⟨t, ht, _⟩ := L.sp_slot
  have hpos := (L.saves.inside t ht).1
  have hinside := O.inside c
  omega

section Call

variable (L : A.Lawful) (O : Objects A n) (s : Threads A n) (w : Nat) (old new : Fin n)

include L

theorem callRegs_old : (s.callRegs O w old new A.oldArg).toNat = O.addr old := by
  have hpow : 2 ^ (8 * A.width A.oldArg) = 2 ^ 64 := by rw [L.words.2.2.1]
  unfold callRegs
  rw [Function.update_of_ne L.args, Function.update_self, BitVec.toNat_ofNat, hpow]
  exact Nat.mod_eq_of_lt (addr_lt L O old)

theorem callRegs_new : (s.callRegs O w old new A.newArg).toNat = O.addr new := by
  have hpow : 2 ^ (8 * A.width A.newArg) = 2 ^ 64 := by rw [L.words.2.2.2]
  unfold callRegs
  rw [Function.update_self, BitVec.toNat_ofNat, hpow]
  exact Nat.mod_eq_of_lt (addr_lt L O new)

/-- The call passes its arguments in registers that are not saved. -/
theorem callRegs_slot {r : A.Reg} (hr : r ∈ L.area.map Slot.reg) :
    s.callRegs O w old new r = s.cpu w r := by
  have hnew : r ≠ A.newArg := by
    rintro rfl
    exact L.restores.base hr
  have hold : r ≠ A.oldArg := by
    rintro rfl
    exact L.saves.base hr
  unfold callRegs
  rw [Function.update_of_ne hnew, Function.update_of_ne hold]

end Call

variable {L : A.Lawful} {c : Fin n} {a : SwitchAction A n} {image : Regs A.width} {point : Nat}

/-- The memory of a ready context is not written by a write beside it. -/
theorem Clear.holds {b k : Nat} {mem : Nat → UInt8} (hclear : s.Clear O b k)
    (hready : s.ready c = true) (h : L.Holds s.mem (O.addr c) image point)
    (hmem : ∀ x, x < b ∨ b + k ≤ x → mem x = s.mem x) :
    L.Holds mem (O.addr c) image point := by
  obtain ⟨hobj, hword⟩ := hclear c hready
  rw [h.savedSp] at hword
  refine h.frame (fun x hlow hhigh => ?_) fun x hlow hhigh => ?_
  · exact (hmem x (hobj.outside hlow hhigh)).symm
  · exact (hmem x (hword.outside hlow hhigh)).symm

/-- Any number of writes beside it. -/
theorem Clear.holds_writes (writes : List (Nat × UInt8)) (hclear : ∀ p ∈ writes, s.Clear O p.1 1)
    (hready : s.ready c = true) (h : L.Holds s.mem (O.addr c) image point) :
    L.Holds (writes.foldl (fun m p => Function.update m p.1 p.2) s.mem) (O.addr c) image
      point := by
  have hother : ∀ (l : List (Nat × UInt8)) (m : Nat → UInt8) (x : Nat), (∀ p ∈ l, p.1 ≠ x) →
      l.foldl (fun m p => Function.update m p.1 p.2) m x = m x := by
    intro l
    induction l with
    | nil => exact fun _ _ _ => rfl
    | cons p l ih =>
        intro m x hx
        rw [List.foldl_cons, ih _ x fun q hq => hx q (List.mem_cons_of_mem _ hq)]
        exact Function.update_of_ne (hx p List.mem_cons_self).symm _ _
  have hsp := h.savedSp
  refine h.frame (fun x hlow hhigh => ?_) fun x hlow hhigh => ?_
  · refine (hother writes s.mem x fun p hp heq => ?_).symm
    have := ((hclear p hp) c hready).1.outside hlow hhigh
    omega
  · refine (hother writes s.mem x fun p hp heq => ?_).symm
    have hword := ((hclear p hp) c hready).2
    rw [hsp] at hword
    have := hword.outside hlow hhigh
    omega

/-- The inversion of a switch. -/
theorem step_switch {w : Nat} {old new : Fin n}
    (hstep : s.step O entry (.contextSwitch w old new) = .ok s') :
    (s.ready old = false ∧ (new = old ∨ s.ready new = true) ∧
      s.Clear O (O.addr old) A.contextSize ∧
      Apart (s.cpu w A.sp).toNat A.returnBytes (O.addr old) A.contextSize) ∧
    s' = ⟨(execAll A.contextSwitch ⟨s.callRegs O w old new, s.mem⟩).mem,
      Function.update s.cpu w (execAll A.contextSwitch ⟨s.callRegs O w old new, s.mem⟩).regs,
      Function.update (Function.update s.ready old true) new false⟩ := by
  obtain ⟨_, hguard, hret⟩ := Res.bind_ok.mp hstep
  exact ⟨of_decide_eq_true (Res.require_ok.mp hguard), (Except.ok.inj hret).symm⟩

/-- **A switch** leaves the registers of its caller in the old context, writes nothing else,
and gives the worker the registers that memory then holds in the new one. -/
theorem switch_spec (L : A.Lawful) {w : Nat} {old new : Fin n}
    (hstep : s.step O entry (.contextSwitch w old new) = .ok s') :
    L.Holds s'.mem (O.addr old) (s.cpu w) (A.returnPoint (s.cpu w) s.mem) ∧
    (∀ x, x < O.addr old ∨ O.addr old + A.contextSize ≤ x → s'.mem x = s.mem x) ∧
    ∀ image point, L.Holds s'.mem (O.addr new) image point →
      L.Restored image point (s'.cpu w) := by
  obtain ⟨⟨_, _, _, hword⟩, rfl⟩ := step_switch hstep
  have hold := callRegs_old L O s w old new
  have hcall : ∀ r ∈ L.area.map Slot.reg, s.callRegs O w old new r = s.cpu w r :=
    fun r => callRegs_slot L O s w old new
  obtain ⟨hmem, hregs⟩ := L.exec_switch (s := ⟨s.callRegs O w old new, s.mem⟩)
    (by rw [hold]; exact O.inside old) (callRegs_new L O s w old new) (O.inside new)
  dsimp only
  rw [hmem, Function.update_self]
  refine ⟨?_, fun x hx => L.savedMem_other (by rw [hold]; exact hx), hregs⟩
  rw [← hcall _ L.sp_saved] at hword
  have hsaved := L.holds_saved (s := ⟨s.callRegs O w old new, s.mem⟩) hold hword
  rw [L.returnPoint_eq hcall] at hsaved
  exact hsaved.congr fun r hr => (hcall r hr).symm

/-- The inversion of a creation. -/
theorem step_create {w : Nat} {taskBody arg stackTop : BitVec 64}
    (hstep : s.step O entry (.createContext w c taskBody arg stackTop) = .ok s') :
    (s.ready c = false ∧ s.Clear O (O.addr c) A.contextSize ∧
      s.Clear O (A.initialSp stackTop).toNat A.returnBytes ∧
      Apart (A.initialSp stackTop).toNat A.returnBytes (O.addr c) A.contextSize) ∧
    s' = { s with
      mem := A.createContext entry (s.cpu w) s.mem (O.addr c) taskBody arg stackTop
      ready := Function.update s.ready c true } := by
  obtain ⟨_, hguard, hret⟩ := Res.bind_ok.mp hstep
  exact ⟨of_decide_eq_true (Res.require_ok.mp hguard), (Except.ok.inj hret).symm⟩

/-- **Saving**: an action that saves a context leaves its image there. -/
theorem step_saves (L : A.Lawful) (hstep : s.step O entry a = .ok s') (ha : a.saves c = true) :
    L.Holds s'.mem (O.addr c) (a.image L entry s).1 (a.image L entry s).2 := by
  cases a with
  | work w regs writes => exact absurd ha Bool.false_ne_true
  | createContext w d taskBody arg stackTop =>
      obtain rfl : d = c := of_decide_eq_true ha
      obtain ⟨⟨_, _, _, hapart⟩, rfl⟩ := step_create hstep
      exact Arch.Lawful.holds_created entry taskBody arg stackTop hapart
  | contextSwitch w old new =>
      obtain rfl : old = c := of_decide_eq_true ha
      exact (switch_spec L hstep).1

/-- **Keeping**: a context that is ready after any other action was ready before, and still
holds what it held. -/
theorem step_keeps (L : A.Lawful) (hstep : s.step O entry a = .ok s') (ha : a.saves c = false)
    (hready : s'.ready c = true) :
    s.ready c = true ∧ ∀ image point,
      L.Holds s.mem (O.addr c) image point → L.Holds s'.mem (O.addr c) image point := by
  cases a with
  | work w regs writes =>
      obtain ⟨_, hguard, hret⟩ := Res.bind_ok.mp hstep
      have hclear := of_decide_eq_true (Res.require_ok.mp hguard)
      obtain rfl := Except.ok.inj hret
      exact ⟨hready, fun image point h => Clear.holds_writes writes hclear hready h⟩
  | createContext w d taskBody arg stackTop =>
      have hne : c ≠ d := fun heq => of_decide_eq_false ha heq.symm
      obtain ⟨⟨_, hobj, hword, _⟩, rfl⟩ := step_create hstep
      have hbefore : s.ready c = true := by
        rw [← hready]
        exact (Function.update_of_ne hne _ _).symm
      refine ⟨hbefore, fun image point h => ?_⟩
      -- the writes are to the new context and to the top of its stack
      obtain ⟨hobj', hword'⟩ := hobj c hbefore
      obtain ⟨hsp', hspword'⟩ := hword c hbefore
      rw [h.savedSp] at hword' hspword'
      refine h.frame (fun x hlow hhigh => ?_) fun x hlow hhigh => ?_
      · exact (L.created_other _ _ _ _ _ _ _ x (hobj'.outside hlow hhigh)
          (hsp'.outside hlow hhigh)).symm
      · exact (L.created_other _ _ _ _ _ _ _ x (hword'.outside hlow hhigh)
          (hspword'.outside hlow hhigh)).symm
  | contextSwitch w old new =>
      have hne : c ≠ old := fun heq => of_decide_eq_false ha heq.symm
      obtain ⟨_, hother, _⟩ := switch_spec L hstep
      obtain ⟨⟨_, _, hclear, _⟩, hs'⟩ := step_switch hstep
      have hafter : Function.update (Function.update s.ready old true) new false c = true := by
        rw [hs'] at hready
        exact hready
      have hnew : c ≠ new := by
        rintro rfl
        rw [Function.update_self] at hafter
        exact Bool.false_ne_true hafter
      have hbefore : s.ready c = true := by
        rwa [Function.update_of_ne hnew, Function.update_of_ne hne] at hafter
      exact ⟨hbefore, fun image point h => hclear.holds hbefore h hother⟩

end Threads

/-! ## Whole runs -/

section Runs

variable {O : Objects A n} {entry : BitVec 64} {s₀ s s' : Threads A n}

/-- The memory of a ready context is what the last action that saved it left there, by
induction over the run: the last action either saves the context or keeps it. -/
theorem Threads.last_save (L : A.Lawful) (hinit : (switching O entry).init s₀)
    (l : List (SwitchAction A n)) :
    ∀ {s : Threads A n}, (switching O entry).run s₀ l = .ok s → ∀ c, s.ready c = true →
      ∃ before a between t, l = before ++ a :: between ∧
        (switching O entry).run s₀ before = .ok t ∧ a.saves c = true ∧
        (∀ b ∈ between, b.saves c = false) ∧
        L.Holds s.mem (O.addr c) (a.image L entry t).1 (a.image L entry t).2 := by
  induction l using List.reverseRecOn with
  | nil =>
      intro s hrun c hready
      obtain rfl := Except.ok.inj hrun
      exact absurd ((hinit c).symm.trans hready) Bool.false_ne_true
  | append_singleton l b ih =>
      intro s hrun c hready
      obtain ⟨t, ht, hstep⟩ := Machine.run_concat_ok hrun
      cases hb : b.saves c with
      | true =>
          exact ⟨l, b, [], t, rfl, ht, hb, fun x hx => absurd hx List.not_mem_nil,
            Threads.step_saves L hstep hb⟩
      | false =>
          obtain ⟨hready', hkeeps⟩ := Threads.step_keeps L hstep hb hready
          obtain ⟨before, a, between, u, rfl, hu, ha, hbetween, hholds⟩ := ih ht c hready'
          refine ⟨before, a, between ++ [b], u, by simp, hu, ha, fun x hx => ?_,
            hkeeps _ _ hholds⟩
          rcases List.mem_append.mp hx with hx | hx
          · exact hbetween x hx
          · rw [List.mem_singleton.mp hx]
            exact hb

/-- What a thread finds that runs on with the image of an action. -/
theorem SwitchAction.found (L : A.Lawful) {after : Regs A.width} {a : SwitchAction A n}
    {c : Fin n} (ha : a.saves c = true)
    (h : L.Restored (a.image L entry s).1 (a.image L entry s).2 after) :
    (∃ w new, a = .contextSwitch w c new ∧ A.Resumed (s.cpu w) s.mem after) ∨
    ∃ w taskBody arg stackTop, a = .createContext w c taskBody arg stackTop ∧
      A.Entered entry (s.cpu w) taskBody arg after := by
  cases a with
  | work w regs writes => exact absurd ha Bool.false_ne_true
  | createContext w d taskBody arg stackTop =>
      obtain rfl : d = c := of_decide_eq_true ha
      exact .inr ⟨w, taskBody, arg, stackTop, rfl, h.entered⟩
  | contextSwitch w old new =>
      obtain rfl : old = c := of_decide_eq_true ha
      exact .inl ⟨w, new, rfl, h.resumed⟩

end Runs

/-- **Context switching preserves each thread's machine state.**  On both architectures, for
every finite set of contexts and every run of any number of workers, a worker that resumes a
context finds what the last action left that saved it.  That is the switch that suspended it,
by whichever worker, and the stack pointer, the return point, the callee-saved registers and
the floating-point state are then as if that call had returned at once; or it is
`create_context`, and the worker enters `task_entrypoint` with the function, the argument and
the creator's floating-point control state.  A switch from a context to itself returns. -/
theorem context_switch_preserves_state (name : ArchName) {n : Nat} (O : Objects name.arch n)
    (entry : BitVec 64) {s₀ s s' : Threads name.arch n} {l : List (SwitchAction name.arch n)}
    {w : Nat} {old c : Fin n} (hinit : (switching O entry).init s₀)
    (hrun : (switching O entry).run s₀ l = .ok s)
    (hstep : (switching O entry).step s (.contextSwitch w old c) = .ok s') :
    (old = c ∧ name.arch.Resumed (s.cpu w) s.mem (s'.cpu w)) ∨
    (old ≠ c ∧ ∃ before a between t, l = before ++ a :: between ∧
      (switching O entry).run s₀ before = .ok t ∧ (∀ b ∈ between, b.saves c = false) ∧
      ((∃ v new, a = .contextSwitch v c new ∧
          name.arch.Resumed (t.cpu v) t.mem (s'.cpu w)) ∨
        ∃ v taskBody arg stackTop, a = .createContext v c taskBody arg stackTop ∧
          name.arch.Entered entry (t.cpu v) taskBody arg (s'.cpu w))) := by
  have L := name.lawful
  have hstep : s.step O entry (.contextSwitch w old c) = .ok s' := hstep
  obtain ⟨hsaved, hother, hrestored⟩ := Threads.switch_spec L hstep
  obtain ⟨⟨_, hready, hclear, _⟩, _⟩ := Threads.step_switch hstep
  by_cases hself : old = c
  · subst hself
    exact .inl ⟨rfl, (hrestored _ _ hsaved).resumed⟩
  · have hc : s.ready c = true := hready.resolve_left fun heq => hself heq.symm
    obtain ⟨before, a, between, t, hl, ht, ha, hbetween, hholds⟩ :=
      Threads.last_save L hinit l hrun c hc
    refine .inr ⟨hself, before, a, between, t, hl, ht, hbetween, ?_⟩
    exact SwitchAction.found L ha (hrestored _ _ (hclear.holds hc hholds hother))

/-! ### A thread that moves to another worker -/

/-- The contexts of two workers, 0 and 2, and of a task, 1. -/
def threeContexts : Objects ArchName.x86_64.arch 3 where
  addr c := 0x1000 * (c.val + 1)
  inside := by decide
  apart := by decide

/-- Registers with this stack pointer, and with values in a callee-saved and in a control
register. -/
def regsWith (sp rbx : BitVec 64) (mxcsr : BitVec 32) : Regs ArchName.x86_64.arch.width :=
  fun r : X8664.Reg => match r with
    | .rsp => sp
    | .rbx => rbx
    | .mxcsr => mxcsr
    | _ => 0

def twoWorkers : Threads ArchName.x86_64.arch 3 where
  mem := fun _ => 0
  cpu w := regsWith (0x10000 + 0x10000 * BitVec.ofNat 64 w) 0 0x1f80
  ready := fun _ => false

/-- Worker 0 makes the task and runs it; the task sets its rounding mode, calls
`context_switch` from `0x1234` and suspends. -/
def suspendTask : List (SwitchAction ArchName.x86_64.arch 3) :=
  [.createContext 0 1 0x5000 0x6000 0x40000, .contextSwitch 0 0 1,
    .work 0 (regsWith 0x3ff00 7 0x5f80) [(0x3ff00, 0x34), (0x3ff01, 0x12)],
    .contextSwitch 0 1 0]

theorem context_switch_preserves_state_moved :
    ∃ s s', (switching threeContexts 0x400000).run twoWorkers suspendTask = .ok s ∧
      (switching threeContexts 0x400000).step s (.contextSwitch 1 2 1) = .ok s' ∧
      (s'.cpu 1 X8664.Reg.rbx).toNat = 7 ∧ (s'.cpu 1 X8664.Reg.mxcsr).toNat = 0x5f80 ∧
      (s'.cpu 1 X8664.Reg.rip).toNat = 0x1234 ∧
      ∃ before a between t, suspendTask = before ++ a :: between ∧
        (switching threeContexts 0x400000).run twoWorkers before = .ok t ∧
        ((∃ v new, a = .contextSwitch v 1 new ∧
            ArchName.x86_64.arch.Resumed (t.cpu v) t.mem (s'.cpu 1)) ∨
          ∃ v taskBody arg stackTop, a = .createContext v 1 taskBody arg stackTop ∧
            ArchName.x86_64.arch.Entered 0x400000 (t.cpu v) taskBody arg (s'.cpu 1)) := by
  have hrun := Machine.run_eq_after (M := switching threeContexts 0x400000) (s := twoWorkers)
    (l := suspendTask) (by decide +kernel)
  have hstep := Machine.step_eq_after (M := switching threeContexts 0x400000)
    (s := (switching threeContexts 0x400000).after twoWorkers suspendTask)
    (a := .contextSwitch 1 2 1) (by decide +kernel)
  refine ⟨_, _, hrun, hstep, by decide +kernel, by decide +kernel, by decide +kernel, ?_⟩
  rcases context_switch_preserves_state .x86_64 threeContexts 0x400000 (fun _ => rfl) hrun hstep
    with ⟨hself, _⟩ | ⟨_, before, a, between, t, hl, ht, _, hfound⟩
  · exact absurd hself (by decide)
  · exact ⟨before, a, between, t, hl, ht, hfound⟩

/-! ### What a new thread does not get from its creator

On aarch64 `create_context` clears the whole context and then stores `fpcr`, so of the
floating-point registers that a switch keeps the new thread has only `fpcr` from its creator.
-/

/-- The contexts of a worker, 0, and of a task, 1. -/
def twoContexts : Objects ArchName.aarch64.arch 2 where
  addr c := 0x1000 * (c.val + 1)
  inside := by decide
  apart := by decide

/-- A worker that holds a value in `d8`. -/
def oneWorker : Threads ArchName.aarch64.arch 2 where
  mem := fun _ => 0
  cpu _ := fun r : Aarch64.Reg => if r = .d8 then 1 else 0
  ready := fun _ => false

theorem created_context_clears_d8 :
    ∃ s s', (switching twoContexts 0x400000).init oneWorker ∧
      (switching twoContexts 0x400000).run oneWorker
        [.createContext 0 1 0x5000 0x6000 0x40000] = .ok s ∧
      (switching twoContexts 0x400000).step s (.contextSwitch 0 0 1) = .ok s' ∧
      Aarch64.Reg.d8 ∈ ArchName.aarch64.arch.fpState ∧
      (oneWorker.cpu 0 Aarch64.Reg.d8).toNat = 1 ∧ (s'.cpu 0 Aarch64.Reg.d8).toNat = 0 := by
  have hrun := Machine.run_eq_after (M := switching twoContexts 0x400000) (s := oneWorker)
    (l := [.createContext 0 1 0x5000 0x6000 0x40000]) (by decide +kernel)
  have hstep := Machine.step_eq_after (M := switching twoContexts 0x400000)
    (s := (switching twoContexts 0x400000).after oneWorker
      [.createContext 0 1 0x5000 0x6000 0x40000])
    (a := .contextSwitch 0 0 1) (by decide +kernel)
  refine ⟨_, _, fun _ => rfl, hrun, hstep, ?_, by decide +kernel, by decide +kernel⟩
  exact List.mem_cons_self

end Croutine
