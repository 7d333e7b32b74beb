import Mathlib
import OspabOs.Lib.Stack

/-!
# The system call entry path

A ring-3 program calls the kernel with the `syscall` instruction: the number
in `rax`, the arguments in `rdi`, `rsi`, `rdx`, `r10` and `r8`, as the user
shell's wrappers put them. The instruction saves the return address in `rcx`
and the flags in `r11`, and jumps to `syscall_handler`, the address
`enable_syscall_support` wrote to `LSTAR`. That naked stub saves the user's
stack pointer in `SYSCALL_USER_RSP`, moves to the top of `SYSCALL_STACK`,
pushes fourteen registers, loads `do_syscall`'s six arguments (System V: `rdi`,
`rsi`, `rdx`, `rcx`, `r8`, `r9`) from the saved ones, calls it, pops the
fourteen back, restores the user's stack pointer and returns with `sysretq`.

The model runs the stub instruction by instruction over the registers, a
memory of words (`Lib.Stack`), `rip`, `rflags` and the two selectors the
instructions load. `do_syscall` is any function that keeps the System V
contract (`Abi`); the frame clause of that contract holds of the kernel only
while the pointers a call is given do not reach the syscall stack, which the
kernel does not check. The flags `add` sets in kernel mode are not modelled:
`sysretq` takes the user's from `r11`.

**The law.** For every user state and every such `do_syscall`, the kernel is
called with the user's `rax`, `rdi`, `rsi`, `rdx`, `r10`, `r8` on a 16-byte
aligned stack, and the user resumes after the `syscall` with the result in
`rax`, `rcx` holding the return address, `r11` the flags, and every other
register as it was (`syscall_entry_restores_user`). So the wrappers' `asm!`
blocks, which name `rax` alone as changed, are wrong about `rcx` and `r11`
(`wrappers_miss_rcx`).

`sysretq` takes the selectors from `STAR[63:48]`, which
`enable_syscall_support` sets to the user code selector `0x23`: it loads `CS`
`0x33` and `SS` `0x2B`, entries 6 and 5 of the table `gdt::init` builds, the
two halves of the TSS descriptor, where the user segments are entries 4
and 3.
-/

namespace OspabOs.Syscall

open Stack

/-! ## The GDT -/

/-- What `gdt::init` puts in each slot of the GDT. -/
inductive Descriptor where
  | null
  | kernelCode
  | kernelData
  | userData
  | userCode
  | tssLow
  | tssHigh
  deriving DecidableEq, Repr

/-- `GlobalDescriptorTable::add_entry`: the descriptor's slots go at the end
of the table, one for a user segment and two for the TSS, and the selector
names the first of them with the descriptor's privilege level. -/
def addEntry (table entries : List Descriptor) (dpl : UInt16) : UInt16 × List Descriptor :=
  ((table.length.toUInt16 <<< 3) ||| dpl, table ++ entries)

/-- `Selectors`. -/
structure Selectors where
  kernelCode : UInt16
  kernelData : UInt16
  userCode : UInt16
  userData : UInt16
  tssSelector : UInt16
  deriving DecidableEq, Repr

/-- `GDT`: the table, from `GlobalDescriptorTable::new`'s null entry, and its selectors. -/
def gdt : List Descriptor × Selectors :=
  let (kernelCode, table) := addEntry [.null] [.kernelCode] 0
  let (kernelData, table) := addEntry table [.kernelData] 0
  let (userData, table) := addEntry table [.userData] 3
  let (userCode, table) := addEntry table [.userCode] 3
  let (tssSelector, table) := addEntry table [.tssLow, .tssHigh] 0
  (table, ⟨kernelCode, kernelData, userCode, userData, tssSelector⟩)

/-- The GDT slot a selector names. -/
def gdtEntry (selector : UInt16) : Option Descriptor :=
  gdt.1[(selector >>> 3).toNat]?

/-! ## The machine -/

/-- The general-purpose registers. -/
inductive Reg where
  | rax | rbx | rcx | rdx | rsi | rdi | rbp | rsp
  | r8 | r9 | r10 | r11 | r12 | r13 | r14 | r15
  deriving DecidableEq, Repr

/-- What the entry path reads and writes of the processor. -/
structure Cpu extends Core Reg where
  rip : UInt64
  rflags : UInt64
  cs : UInt16
  ss : UInt16

/-- `STAR`, `LSTAR` and `SFMASK`. -/
structure Msrs where
  star : UInt64
  lstar : UInt64
  sfmask : UInt64

/-- The values `enable_syscall_support` writes, `handler` the address of
`syscall_handler`. -/
def kernelMsrs (handler : UInt64) : Msrs :=
  let kernelCs := gdt.2.kernelCode.toUInt64
  let userCs := gdt.2.userCode.toUInt64 ||| 3
  ⟨(userCs <<< 48) ||| (kernelCs <<< 32), handler, 0x200⟩

/-- The instructions of the entry path. A `[rip + sym]` operand is the
symbol's address, which the assembler resolves. -/
inductive Instr where
  /-- `syscall`, two bytes long. -/
  | syscall
  /-- `mov [addr], src` -/
  | store (addr : UInt64) (src : Reg)
  /-- `lea dst, [addr]` -/
  | lea (dst : Reg) (addr : UInt64)
  /-- `add dst, imm` -/
  | addImm (dst : Reg) (imm : UInt64)
  | push (r : Reg)
  | pop (r : Reg)
  /-- `mov dst, src` -/
  | mov (dst src : Reg)
  /-- `mov dst, [base + off]` -/
  | load (dst base : Reg) (off : UInt64)
  /-- `mov dst, [addr]` -/
  | loadAbs (dst : Reg) (addr : UInt64)
  /-- `call do_syscall`, through to its `ret`. -/
  | call
  | sysretq
  deriving DecidableEq, Repr

/-- One instruction. `callee` is what `do_syscall` does to the machine. -/
def exec (callee : Cpu → Cpu) (msrs : Msrs) (s : Cpu) : Instr → Cpu
  | .syscall =>
    { s with
      regs := Function.update (Function.update s.regs .rcx (s.rip + 2)) .r11 s.rflags
      rflags := s.rflags &&& ~~~msrs.sfmask
      rip := msrs.lstar
      cs := (msrs.star >>> 32).toUInt16 &&& 0xFFFC
      ss := (msrs.star >>> 32).toUInt16 + 8 }
  | .store addr src => { s with mem := Function.update s.mem addr (s.regs src) }
  | .lea dst addr => { s with regs := Function.update s.regs dst addr }
  | .addImm dst imm => { s with regs := Function.update s.regs dst (s.regs dst + imm) }
  | .push r => { s with toCore := Stack.push .rsp r s.toCore }
  | .pop r => { s with toCore := Stack.pop .rsp r s.toCore }
  | .mov dst src => { s with regs := Function.update s.regs dst (s.regs src) }
  | .load dst base off => { s with regs := Function.update s.regs dst (s.mem (s.regs base + off)) }
  | .loadAbs dst addr => { s with regs := Function.update s.regs dst (s.mem addr) }
  | .call => callee s
  | .sysretq =>
    { s with
      rip := s.regs .rcx
      rflags := (s.regs .r11 &&& 0x3C7FD7) ||| 2
      cs := ((msrs.star >>> 48).toUInt16 + 16) ||| 3
      ss := ((msrs.star >>> 48).toUInt16 + 8) ||| 3 }

/-- `STAR` holds the user code selector `0x23` in bits 63:48 and the kernel
code selector `0x08` in bits 47:32. -/
theorem star_kernelMsrs (handler : UInt64) : (kernelMsrs handler).star = 0x0023000800000000 := rfl

/-- A straight run of instructions. -/
def run (callee : Cpu → Cpu) (msrs : Msrs) (s : Cpu) (prog : List Instr) : Cpu :=
  prog.foldl (exec callee msrs) s

/-- `syscall_handler`, with the addresses of `SYSCALL_USER_RSP` and
`SYSCALL_STACK`; `SYSCALL_STACK_SIZE` is `16384`. -/
def syscallHandler (userRsp stackBase : UInt64) : List Instr :=
  [.store userRsp .rsp, .lea .rsp stackBase, .addImm .rsp 16384,
    .push .r11, .push .rcx, .push .r9, .push .r8, .push .r10, .push .rdx, .push .rsi, .push .rdi,
    .push .rbx, .push .rbp, .push .r12, .push .r13, .push .r14, .push .r15,
    .mov .rdi .rax, .load .rsi .rsp 48, .load .rdx .rsp 56, .load .rcx .rsp 64, .load .r8 .rsp 72,
    .load .r9 .rsp 80,
    .call,
    .pop .r15, .pop .r14, .pop .r13, .pop .r12, .pop .rbp, .pop .rbx, .pop .rdi, .pop .rsi, .pop .rdx,
    .pop .r10, .pop .r8, .pop .r9, .pop .rcx, .pop .r11,
    .loadAbs .rsp userRsp, .sysretq]

/-- A user `syscall` through to the `sysretq` that returns from it. -/
def afterSyscall (callee : Cpu → Cpu) (handler userRsp stackBase : UInt64) (s : Cpu) : Cpu :=
  run callee (kernelMsrs handler) s (.syscall :: syscallHandler userRsp stackBase)

/-! ## What `do_syscall` may do -/

/-- The registers a System V function gives back as it found them. -/
def calleeSaved : List Reg := [.rbx, .rbp, .rsp, .r12, .r13, .r14, .r15]

/-- The System V contract of `do_syscall`, when it is called on a 16-byte
aligned stack: it keeps the callee-saved registers, writes no memory at or
above its stack pointer and not `SYSCALL_USER_RSP` (at `kept`), and returns
`result` of its six arguments in `rax`. -/
structure Abi (callee : Cpu → Cpu) (kept : UInt64)
    (result : UInt64 → UInt64 → UInt64 → UInt64 → UInt64 → UInt64 → UInt64) : Prop where
  saved : ∀ s : Cpu, (s.regs .rsp).toNat % 16 = 0 → ∀ r ∈ calleeSaved, (callee s).regs r = s.regs r
  frame : ∀ s : Cpu, (s.regs .rsp).toNat % 16 = 0 → ∀ a : UInt64, (s.regs .rsp).toNat ≤ a.toNat →
    (callee s).mem a = s.mem a
  global : ∀ s : Cpu, (s.regs .rsp).toNat % 16 = 0 → (callee s).mem kept = s.mem kept
  returns : ∀ s : Cpu, (s.regs .rsp).toNat % 16 = 0 →
    (callee s).regs .rax = result (s.regs .rdi) (s.regs .rsi) (s.regs .rdx) (s.regs .rcx) (s.regs .r8) (s.regs .r9)

/-- `after` has the registers of `before` outside `changed`: what an `asm!`
block promises the compiler when `changed` are its outputs and clobbers. -/
def Agree (changed : List Reg) (before after : Cpu) : Prop :=
  ∀ r, r ∉ changed → after.regs r = before.regs r

/-! ## Runs -/

section Runs

variable (callee : Cpu → Cpu) (msrs : Msrs)

theorem run_append (s : Cpu) (p q : List Instr) :
    run callee msrs s (p ++ q) = run callee msrs (run callee msrs s p) q :=
  List.foldl_append

theorem run_pushes (rs : List Reg) (s : Cpu) :
    run callee msrs s (rs.map .push) = { s with toCore := pushAll .rsp rs s.toCore } := by
  induction rs generalizing s with
  | nil => rfl
  | cons r rs ih => exact ih _

theorem run_pops (rs : List Reg) (s : Cpu) :
    run callee msrs s (rs.map .pop) = { s with toCore := popAll .rsp rs s.toCore } := by
  induction rs generalizing s with
  | nil => rfl
  | cons r rs ih => exact ih _

end Runs

/-! ## The stub in parts -/

/-- The stub's first three instructions: to the top of the syscall stack. -/
def prologue (userRsp stackBase : UInt64) : List Instr :=
  [.store userRsp .rsp, .lea .rsp stackBase, .addImm .rsp 16384]

/-- The registers the stub saves, in the order it pushes them. -/
def saved : List Reg := [.r11, .rcx, .r9, .r8, .r10, .rdx, .rsi, .rdi, .rbx, .rbp, .r12, .r13, .r14, .r15]

/-- `do_syscall`'s arguments, from `rax` and the saved registers. -/
def argMoves : List Instr :=
  [.mov .rdi .rax, .load .rsi .rsp 48, .load .rdx .rsp 56, .load .rcx .rsp 64, .load .r8 .rsp 72, .load .r9 .rsp 80]

/-- Every register but `rax` and `rsp` is one the stub saves. -/
theorem mem_saved : ∀ r : Reg, r ≠ .rsp → r ≠ .rax → r ∈ saved := by
  intro r
  cases r <;> decide

/-- The stub pops what it pushed, in reverse order. -/
theorem syscallHandler_eq (userRsp stackBase : UInt64) :
    syscallHandler userRsp stackBase =
      prologue userRsp stackBase ++ saved.map .push ++ argMoves ++ [.call] ++ saved.reverse.map .pop ++
        [.loadAbs .rsp userRsp, .sysretq] := rfl

section Parts

variable (callee : Cpu → Cpu) (msrs : Msrs) (userRsp stackBase : UInt64) (s : Cpu)

@[simp] theorem regs_prologue_rsp : (run callee msrs s (.syscall :: prologue userRsp stackBase)).regs .rsp = stackBase + 16384 := by
  simp [run, prologue, exec]

@[simp] theorem regs_prologue_rcx : (run callee msrs s (.syscall :: prologue userRsp stackBase)).regs .rcx = s.rip + 2 := by
  simp [run, prologue, exec]

@[simp] theorem regs_prologue_r11 : (run callee msrs s (.syscall :: prologue userRsp stackBase)).regs .r11 = s.rflags := by
  simp [run, prologue, exec]

theorem regs_prologue_of_ne {r : Reg} (notRsp : r ≠ .rsp) (notRcx : r ≠ .rcx) (notR11 : r ≠ .r11) :
    (run callee msrs s (.syscall :: prologue userRsp stackBase)).regs r = s.regs r := by
  simp [run, prologue, exec, notRsp, notRcx, notR11]

@[simp] theorem mem_prologue_userRsp : (run callee msrs s (.syscall :: prologue userRsp stackBase)).mem userRsp = s.regs .rsp := by
  simp [run, prologue, exec]

/-- What the argument moves leave: `do_syscall`'s arguments in place, read
through the stack pointer, and nothing else changed. -/
theorem run_argMoves :
    (run callee msrs s argMoves).regs .rdi = s.regs .rax ∧
      (run callee msrs s argMoves).regs .rsi = s.mem (s.regs .rsp + 48) ∧
      (run callee msrs s argMoves).regs .rdx = s.mem (s.regs .rsp + 56) ∧
      (run callee msrs s argMoves).regs .rcx = s.mem (s.regs .rsp + 64) ∧
      (run callee msrs s argMoves).regs .r8 = s.mem (s.regs .rsp + 72) ∧
      (run callee msrs s argMoves).regs .r9 = s.mem (s.regs .rsp + 80) ∧
      (run callee msrs s argMoves).regs .rsp = s.regs .rsp ∧
      (run callee msrs s argMoves).mem = s.mem := by
  simp [run, argMoves, exec]

end Parts

/-! ## The return to the user -/

theorem toNat_add_of_lt {a b : UInt64} (lt : a.toNat + b.toNat < 2 ^ 64) : (a + b).toNat = a.toNat + b.toNat := by
  rw [UInt64.toNat_add, Nat.mod_eq_of_lt lt]

section Return

variable (callee : Cpu → Cpu) (handler : UInt64) {userRsp stackBase : UInt64}
  {result : UInt64 → UInt64 → UInt64 → UInt64 → UInt64 → UInt64 → UInt64}

/-- The return ends in `sysretq`. -/
theorem afterSyscall_sysretq (s : Cpu) : ∃ t, afterSyscall callee handler userRsp stackBase s =
    exec callee (kernelMsrs handler) t .sysretq := by
  refine ⟨run callee (kernelMsrs handler) s (.syscall :: (syscallHandler userRsp stackBase).dropLast), ?_⟩
  rw [afterSyscall, show syscallHandler userRsp stackBase = (syscallHandler userRsp stackBase).dropLast ++ [.sysretq]
    from rfl, ← List.cons_append, run_append]
  rfl

/-- `sysretq` jumps to `rcx` with the flags from `r11`. -/
theorem rip_afterSyscall (s : Cpu) :
    (afterSyscall callee handler userRsp stackBase s).rip = (afterSyscall callee handler userRsp stackBase s).regs .rcx := by
  obtain ⟨t, last⟩ := afterSyscall_sysretq callee handler s
  rw [last]
  rfl

theorem rflags_afterSyscall (s : Cpu) :
    (afterSyscall callee handler userRsp stackBase s).rflags =
      ((afterSyscall callee handler userRsp stackBase s).regs .r11 &&& 0x3C7FD7) ||| 2 := by
  obtain ⟨t, last⟩ := afterSyscall_sysretq callee handler s
  rw [last]
  rfl

/-- `sysretq` loads `STAR[63:48] + 16` and `STAR[63:48] + 8`, with RPL 3. -/
theorem cs_afterSyscall (s : Cpu) : (afterSyscall callee handler userRsp stackBase s).cs = 0x33 := by
  obtain ⟨t, last⟩ := afterSyscall_sysretq callee handler s
  rw [last]
  show (((kernelMsrs handler).star >>> 48).toUInt16 + 16) ||| 3 = _
  rw [star_kernelMsrs]
  decide

theorem ss_afterSyscall (s : Cpu) : (afterSyscall callee handler userRsp stackBase s).ss = 0x2B := by
  obtain ⟨t, last⟩ := afterSyscall_sysretq callee handler s
  rw [last]
  show (((kernelMsrs handler).star >>> 48).toUInt16 + 8) ||| 3 = _
  rw [star_kernelMsrs]
  decide

/-- The selectors `sysretq` loads name the two halves of the TSS descriptor. -/
theorem gdtEntry_sysret : gdtEntry 0x33 = some .tssHigh ∧ gdtEntry 0x2B = some .tssLow := by decide

/-- The selectors `enter_user_mode` loads name the user segments. -/
theorem gdtEntry_enterUserMode :
    gdtEntry (gdt.2.userCode ||| 3) = some .userCode ∧ gdtEntry (gdt.2.userData ||| 3) = some .userData := by
  decide

variable (abi : Abi callee userRsp result) (aligned : stackBase.toNat % 16 = 0)
  (fits : stackBase.toNat + 16384 < 2 ^ 64)
  (apart : userRsp.toNat < stackBase.toNat ∨ stackBase.toNat + 16384 ≤ userRsp.toNat)
include abi aligned fits apart

/-- The registers a `syscall` returns with: the user's, but for the return
address in `rcx`, the flags in `r11` and the result of `do_syscall` on the
user's number and arguments in `rax`. -/
theorem regs_afterSyscall (s : Cpu) :
    (afterSyscall callee handler userRsp stackBase s).regs =
      Function.update (Function.update (Function.update s.regs .rcx (s.rip + 2)) .r11 s.rflags) .rax
        (result (s.regs .rax) (s.regs .rdi) (s.regs .rsi) (s.regs .rdx) (s.regs .r10) (s.regs .r8)) := by
  -- the run in parts: to the top of the stack, the pushes, the arguments, the call, the pops
  set msrs := kernelMsrs handler
  set s₁ := run callee msrs s (.syscall :: prologue userRsp stackBase) with entered
  set s₂ : Cpu := { s₁ with toCore := pushAll .rsp saved s₁.toCore } with pushed
  set s₃ := run callee msrs s₂ argMoves with moved
  set s₄ := callee s₃ with called
  set s₅ : Cpu := { s₄ with toCore := popAll .rsp saved.reverse s₄.toCore } with popped
  have whole : afterSyscall callee handler userRsp stackBase s =
      exec callee msrs (exec callee msrs s₅ (.loadAbs .rsp userRsp)) .sysretq := by
    rw [afterSyscall, syscallHandler_eq, ← List.cons_append, ← List.cons_append, ← List.cons_append,
      ← List.cons_append, ← List.cons_append]
    simp only [run_append, run_pushes, run_pops]
    rfl
  -- the saved frame
  have top : (s₁.regs .rsp).toNat = stackBase.toNat + 16384 := by
    rw [entered, regs_prologue_rsp]
    exact toNat_add_of_lt fits
  have room : 8 * saved.length ≤ (s₁.regs .rsp).toNat := by
    rw [top]
    simp [saved]
  have sp₂ : (s₂.regs .rsp).toNat = stackBase.toNat + 16384 - 112 := by
    show ((pushAll .rsp saved s₁.toCore).regs .rsp).toNat = _
    rw [toNat_regs_pushAll room, top]
    rfl
  have notSp : Reg.rsp ∉ saved := by decide
  have slot : ∀ (off : UInt64) (i : Nat) (lt : i < saved.length), off.toNat + 8 * (i + 1) = 112 →
      s₂.mem (s₂.regs .rsp + off) = s₁.regs saved[i] := by
    intro off i lt sum
    apply mem_pushAll notSp room lt
    rw [toNat_add_of_lt (by omega), sp₂, top]
    omega
  -- the call, with its arguments
  obtain ⟨rdi₃, rsi₃, rdx₃, rcx₃, r8₃, r9₃, rsp₃, mem₃⟩ := run_argMoves callee msrs s₂
  have aligned₃ : (s₃.regs .rsp).toNat % 16 = 0 := by
    rw [rsp₃, sp₂]
    omega
  have user : ∀ r, r ≠ .rsp → r ≠ .rcx → r ≠ .r11 → s₁.regs r = s.regs r :=
    fun r notRsp notRcx notR11 => regs_prologue_of_ne callee msrs userRsp stackBase s notRsp notRcx notR11
  have returned : s₄.regs .rax = result (s.regs .rax) (s.regs .rdi) (s.regs .rsi) (s.regs .rdx) (s.regs .r10)
      (s.regs .r8) := by
    rw [called, abi.returns s₃ aligned₃, rdi₃, rsi₃, rdx₃, rcx₃, r8₃, r9₃, slot 48 7 (by decide) rfl,
      slot 56 6 (by decide) rfl, slot 64 5 (by decide) rfl, slot 72 4 (by decide) rfl, slot 80 3 (by decide) rfl]
    show result (s₂.regs .rax) (s₁.regs .rdi) (s₁.regs .rsi) (s₁.regs .rdx) (s₁.regs .r10) (s₁.regs .r8) = _
    rw [show s₂.regs .rax = s₁.regs .rax from regs_pushAll_of_ne (by decide), user .rax (by decide) (by decide)
      (by decide), user .rdi (by decide) (by decide) (by decide), user .rsi (by decide) (by decide) (by decide),
      user .rdx (by decide) (by decide) (by decide), user .r10 (by decide) (by decide) (by decide),
      user .r8 (by decide) (by decide) (by decide)]
  -- the frame comes back: the call kept the stack pointer and the words above it
  have sameSp : s₄.toCore.regs .rsp = (pushAll .rsp saved s₁.toCore).regs .rsp := by
    rw [called, abi.saved s₃ aligned₃ .rsp (by decide), rsp₃]
  have sameSlots : ∀ a : UInt64, (s₁.toCore.regs .rsp).toNat ≤ a.toNat + 8 * saved.length →
      a.toNat < (s₁.toCore.regs .rsp).toNat → s₄.toCore.mem a = (pushAll .rsp saved s₁.toCore).mem a := by
    intro a above _
    have high : (s₃.regs .rsp).toNat ≤ a.toNat := by
      rw [rsp₃, sp₂, ← top]
      simp only [saved, List.length_cons, List.length_nil] at above
      omega
    rw [called, abi.frame s₃ aligned₃ a high, mem₃]
  obtain ⟨restored, -⟩ := popAll_reverse_of_pushAll (by decide) notSp room sameSp sameSlots
  have back : ∀ r ∈ saved, s₅.regs r = s₁.regs r := restored
  -- the last two instructions: the user's stack pointer, then the return
  have userBack : s₅.mem userRsp = s.regs .rsp := by
    have outside : ∀ i < saved.length, userRsp.toNat + 8 * (i + 1) ≠ (s₁.toCore.regs .rsp).toNat := by
      intro i lt
      simp only [saved, List.length_cons, List.length_nil] at lt
      rw [top]
      omega
    show (popAll .rsp saved.reverse s₄.toCore).mem userRsp = _
    rw [mem_popAll, called, abi.global s₃ aligned₃, mem₃]
    show (pushAll .rsp saved s₁.toCore).mem userRsp = _
    rw [mem_pushAll_of_ne room outside, entered, mem_prologue_userRsp]
  have final : ∀ r, (afterSyscall callee handler userRsp stackBase s).regs r =
      Function.update s₅.regs .rsp (s₅.mem userRsp) r := by
    intro r
    rw [whole]
    rfl
  have rcx₅ : s₅.regs .rcx = s.rip + 2 := by
    rw [back .rcx (by decide), entered, regs_prologue_rcx]
  have r11₅ : s₅.regs .r11 = s.rflags := by
    rw [back .r11 (by decide), entered, regs_prologue_r11]
  funext r
  rw [final]
  -- `rsp` comes from `SYSCALL_USER_RSP`, `rax` from the call, the rest from the frame
  by_cases sp : r = .rsp
  · rw [sp, Function.update_self, userBack]
    simp
  by_cases ax : r = .rax
  · rw [ax, Function.update_of_ne (by decide), Function.update_self]
    show (popAll .rsp saved.reverse s₄.toCore).regs .rax = _
    rw [regs_popAll_of_not_mem (by decide) (by decide)]
    exact returned
  rw [Function.update_of_ne sp, back r (mem_saved r sp ax), Function.update_of_ne ax]
  by_cases r11 : r = .r11
  · rw [r11, Function.update_self, entered, regs_prologue_r11]
  by_cases cx : r = .rcx
  · rw [cx, Function.update_of_ne (by decide), Function.update_self, entered, regs_prologue_rcx]
  rw [Function.update_of_ne r11, Function.update_of_ne cx, user r sp cx r11]

/-- The shell's wrappers name `rax` alone as changed (`lateout("rax")`, no
clobbers): the call breaks that promise whenever `rcx` did not already hold
the return address. -/
theorem wrappers_miss_rcx (s : Cpu) (differs : s.regs .rcx ≠ s.rip + 2) :
    ¬ Agree [.rax] s (afterSyscall callee handler userRsp stackBase s) := by
  intro agree
  have kept := agree .rcx (by decide)
  rw [regs_afterSyscall callee handler abi aligned fits apart s] at kept
  simp at kept
  exact differs kept.symm

end Return

end OspabOs.Syscall
