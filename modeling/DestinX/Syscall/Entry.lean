import DestinX.Base.WordStack
import DestinX.Base.Runs

/-!
# Entering and leaving a system call

The instructions of `syscall_entry` in `syscalls.asm`. The user's `rip` and `rflags` go to the
kernel stack of the thread. The user's `rsp` goes to `user_rsp` of the only record `sstacks`,
found through `gs`, and comes from there again before `iretq`.
-/

namespace DestinX.Syscall

open Base Function List

inductive Reg where
  | rax | rbx | rcx | rdx | rsi | rdi | rbp | r8 | r9 | r10 | r11 | r12 | r13 | r14 | r15
  deriving DecidableEq, Repr

structure Cpu where
  regs : Reg → Nat
  (rsp gs kernelGs : Nat)
  mem : WordMem

/-- What a thread gets back in user mode. -/
structure UserRegs where
  (rsp rip rflags : Nat)
  deriving DecidableEq, Repr

namespace Cpu

def swapgs (c : Cpu) : Cpu := { c with gs := c.kernelGs, kernelGs := c.gs }

def pushValues (c : Cpu) (vs : List Nat) : Cpu :=
  { c with mem := pushWords c.mem c.rsp vs, rsp := c.rsp - 8 * vs.length }

def push (c : Cpu) (rs : List Reg) : Cpu := c.pushValues (rs.map c.regs)

def pop (c : Cpu) (rs : List Reg) : Cpu :=
  rs.foldl (fun c r => { c with regs := update c.regs r (c.mem c.rsp), rsp := c.rsp + 8 }) c

/-- `iretq`: the words are `rip`, `cs`, `rflags`, `rsp` and `ss`. -/
def iretq (c : Cpu) : UserRegs := ⟨c.mem (c.rsp + 24), c.mem c.rsp, c.mem (c.rsp + 16)⟩

end Cpu

/-- The registers that are pushed, `rflags` and `rip` first. -/
def entryOrder : List Reg :=
  [.r11, .rcx, .r15, .r14, .r13, .r12, .r11, .r10, .r9, .r8, .rbp, .rdi, .rsi, .rdx, .rbx, .rax]

/-- The registers that are popped. -/
def exitOrder : List Reg :=
  [.rax, .rbx, .rdx, .rsi, .rdi, .rbp, .r8, .r9, .r10, .r11, .r12, .r13, .r14, .r15, .rcx, .r11]

/-- Up to the call of `syscall_handler`. -/
def syscallEntry (c : Cpu) : Cpu :=
  let c := c.swapgs
  let c := { c with mem := update c.mem c.gs c.rsp }
  let c := { c with rsp := c.mem (c.gs + 8) }
  c.push entryOrder

/-- From its return to `iretq`, with the user's registers. -/
def syscallExit (c : Cpu) : Cpu × UserRegs :=
  let c := c.pop exitOrder
  let c := c.push [.rbx]
  let c := { c with regs := update c.regs .rbx (c.mem c.gs) }
  let c := c.pushValues [0x1B, c.regs .rbx, c.regs .r11, 0x23, c.regs .rcx]
  let c := { c with regs := update c.regs .rbx (c.mem (c.rsp + 40)) }
  let c := c.swapgs
  (c, c.iretq)

variable {c : Cpu} {sp : Nat}

/-! ## What they leave -/

lemma syscallEntry_rsp (hsp : c.mem (c.kernelGs + 8) = sp) : (syscallEntry c).rsp = sp - 128 := by
  have hload : update c.mem c.kernelGs c.rsp (c.kernelGs + 8) = sp := by
    rw [update_of_ne (by omega), hsp]
  simp only [syscallEntry, Cpu.swapgs, Cpu.push, Cpu.pushValues, hload, length_map]
  rfl

/-- The memory after entry: the record has the user's stack pointer, and the top two
words of the kernel stack have `rflags` and `rip`. -/
lemma syscallEntry_mem (hsp : c.mem (c.kernelGs + 8) = sp) (hroom : 128 ≤ sp)
    (hapart : c.kernelGs < sp - 128 ∨ sp ≤ c.kernelGs) :
    (syscallEntry c).mem c.kernelGs = c.rsp ∧ (syscallEntry c).mem (sp - 8) = c.regs .r11 ∧
      (syscallEntry c).mem (sp - 16) = c.regs .rcx ∧
      ∀ a, a ≠ c.kernelGs → (a < sp - 128 ∨ sp ≤ a) → (syscallEntry c).mem a = c.mem a := by
  have hload : update c.mem c.kernelGs c.rsp (c.kernelGs + 8) = sp := by
    rw [update_of_ne (by omega), hsp]
  have hlen : (entryOrder.map c.regs).length = 16 := rfl
  have hmem : (syscallEntry c).mem =
      pushWords (update c.mem c.kernelGs c.rsp) sp (entryOrder.map c.regs) := by
    simp only [syscallEntry, Cpu.swapgs, Cpu.push, Cpu.pushValues, hload]
  rw [hmem]
  refine ⟨?_, ?_, ?_, fun a hne ha => ?_⟩
  · rw [pushWords_outside (by omega) (by omega), update_self]
  · exact pushWords_get (k := 0) (by omega) (by omega)
  · exact pushWords_get (k := 1) (by omega) (by omega)
  · rw [pushWords_outside (by omega) (by omega), update_of_ne hne]

/-- Popping leaves memory and `gs` alone, and ends above the words. -/
lemma pop_fields (rs : List Reg) (c : Cpu) :
    (c.pop rs).mem = c.mem ∧ (c.pop rs).gs = c.gs ∧ (c.pop rs).kernelGs = c.kernelGs ∧
      (c.pop rs).rsp = c.rsp + 8 * rs.length := by
  induction rs generalizing c with
  | nil => exact ⟨rfl, rfl, rfl, rfl⟩
  | cons r rs ih =>
    obtain ⟨hmem, hgs, hkgs, hrsp⟩ :=
      ih { c with regs := update c.regs r (c.mem c.rsp), rsp := c.rsp + 8 }
    refine ⟨hmem, hgs, hkgs, hrsp.trans ?_⟩
    simp only [length_cons]
    omega

lemma pop_exitOrder (c : Cpu) : (c.pop exitOrder).regs .rcx = c.mem (c.rsp + 112) ∧
      (c.pop exitOrder).regs .r11 = c.mem (c.rsp + 120) := by
  constructor
  · rfl
  · rfl

lemma syscallExit_cpu (c : Cpu) :
    (syscallExit c).1.mem = pushWords (pushWords c.mem (c.rsp + 128) [(c.pop exitOrder).regs .rbx])
        (c.rsp + 120) [0x1B, pushWords c.mem (c.rsp + 128) [(c.pop exitOrder).regs .rbx] c.gs,
          c.mem (c.rsp + 120), 0x23, c.mem (c.rsp + 112)] ∧
      (syscallExit c).1.rsp = c.rsp + 80 ∧ (syscallExit c).1.gs = c.kernelGs ∧
      (syscallExit c).1.kernelGs = c.gs := by
  obtain ⟨hmem, hgs, hkgs, hrsp⟩ := pop_fields exitOrder c
  obtain ⟨hrcx, hr11⟩ := pop_exitOrder c
  simp only [syscallExit, Cpu.swapgs, Cpu.push, Cpu.pushValues, map_cons, map_nil,
    length_cons, length_nil, hmem, hgs, hkgs, hrsp, update_self,
    update_of_ne (show Reg.r11 ≠ .rbx by decide), hr11,
    update_of_ne (show Reg.rcx ≠ .rbx by decide), hrcx]
  exact ⟨rfl, rfl, trivial, trivial⟩

/-- What `iretq` restores: `rip` and `rflags` from the kernel stack, `rsp` from the
record that `gs` points to. -/
lemma syscallExit_user (hapart : c.gs ≠ c.rsp + 120) :
    (syscallExit c).2 = ⟨c.mem c.gs, c.mem (c.rsp + 112), c.mem (c.rsp + 120)⟩ := by
  obtain ⟨hmem, hrsp, -, -⟩ := syscallExit_cpu c
  have hgs : pushWords c.mem (c.rsp + 128) [(c.pop exitOrder).regs .rbx] c.gs = c.mem c.gs :=
    update_of_ne hapart _ _
  have hiretq : (syscallExit c).2 = (syscallExit c).1.iretq := rfl
  rw [hgs] at hmem
  rw [hiretq, Cpu.iretq, hmem]
  congr 1
  · exact pushWords_get (k := 1) (by simp only [length_cons, length_nil]; omega) (by simp)
  · exact pushWords_get (k := 4) (by simp only [length_cons, length_nil]; omega) (by simp)
  · exact pushWords_get (k := 2) (by simp only [length_cons, length_nil]; omega) (by simp)

/-- Only the part of the kernel stack that was in use is written. -/
lemma syscallExit_mem {a : Nat} (ha : a < c.rsp + 80 ∨ c.rsp + 128 ≤ a) :
    (syscallExit c).1.mem a = c.mem a := by
  obtain ⟨hmem, -, -, -⟩ := syscallExit_cpu c
  rw [hmem, pushWords_outside, pushWords_outside]
  · simp only [length_cons, length_nil]
    omega
  · simp only [length_cons, length_nil]
    omega
  · simp only [length_cons, length_nil]
    omega
  · simp only [length_cons, length_nil]
    omega

end DestinX.Syscall
