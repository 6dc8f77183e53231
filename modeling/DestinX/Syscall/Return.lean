import DestinX.Syscall.Entry

/-!
# System calls of several threads

Threads enter and leave system calls and are switched at any point in user mode or inside
`syscall_handler`. Entry and exit are one step each. On a switch, `scheduler_handler` puts the
kernel stack of the next thread into the record and sets the base that `swapgs` will bring in.
Each return is recorded, with the registers that the thread had and those that it gets back.
-/

namespace DestinX.Syscall

open Base Function List

/-- A thread in user mode, or inside `syscall_handler` with the stack pointer it has
there. The registers it had at its `syscall` are kept for comparison. -/
inductive Context where
  | user (regs : UserRegs)
  | kernel (rsp : Nat) (saved : UserRegs)
  deriving DecidableEq, Repr

/-- `entries` has the threads that entered, with their stack pointers, the last one
first. -/
structure CallState where
  mem : WordMem
  (gs kernelGs current : Nat)
  ctx : Nat → Context
  entries : List (Nat × Nat)
  returns : List (UserRegs × UserRegs)

/-- The address of `sstacks`, the tops of the kernel stacks, the threads that were
created with a user stack, and those that have a process. -/
structure Layout where
  sstacks : Nat
  top : Nat → Nat
  isUser : Nat → Prop
  hasProcess : Nat → Bool

/-- Kernel stacks have room for the saved registers. These parts do not meet, and do not
meet the record. -/
structure Layout.Valid (L : Layout) : Prop where
  room : ∀ t, L.isUser t → 128 ≤ L.top t
  record : ∀ t, L.isUser t → L.sstacks + 16 ≤ L.top t - 128 ∨ L.top t ≤ L.sstacks
  apart : ∀ t u, L.isUser t → L.isUser u → t ≠ u → L.top t ≤ L.top u - 128 ∨ L.top u ≤ L.top t - 128
  process : ∀ t, L.isUser t → L.hasProcess t = true

inductive CallAction where
  | run (regs : UserRegs)
  | enter (others : Reg → Nat)
  | work (mem : WordMem)
  | switch (t : Nat) (mem : WordMem)
  | leave (others : Reg → Nat)

/-- The kernel outside of `syscall_entry` writes neither to the record nor to the words
in which a thread inside a system call has its `rip` and `rflags`. -/
def Keeps (L : Layout) (st : CallState) (mem : WordMem) : Prop :=
  mem L.sstacks = st.mem L.sstacks ∧ mem (L.sstacks + 8) = st.mem (L.sstacks + 8) ∧
    ∀ t rsp saved, st.ctx t = .kernel rsp saved →
      mem (rsp + 112) = st.mem (rsp + 112) ∧ mem (rsp + 120) = st.mem (rsp + 120)

/-- The processor of the running thread. -/
def CallState.cpu (st : CallState) (regs : Reg → Nat) (rsp : Nat) : Cpu :=
  ⟨regs, rsp, st.gs, st.kernelGs, st.mem⟩

/-- `syscall` puts `rip` into `rcx` and `rflags` into `r11`. -/
def atSyscall (others : Reg → Nat) (u : UserRegs) : Reg → Nat :=
  update (update others .rcx u.rip) .r11 u.rflags

def CallState.enter (st : CallState) (others : Reg → Nat) (u : UserRegs) : CallState :=
  let c := syscallEntry (st.cpu (atSyscall others u) u.rsp)
  { st with
    mem := c.mem
    gs := c.gs
    kernelGs := c.kernelGs
    ctx := update st.ctx st.current (.kernel c.rsp u)
    entries := (st.current, u.rsp) :: st.entries }

def CallState.leave (st : CallState) (others : Reg → Nat) (rsp : Nat) (saved : UserRegs) :
    CallState :=
  let r := syscallExit (st.cpu others rsp)
  { st with
    mem := r.1.mem
    gs := r.1.gs
    kernelGs := r.1.kernelGs
    ctx := update st.ctx st.current (.user r.2)
    returns := (saved, r.2) :: st.returns }

/-- The end of `scheduler_handler`. -/
def CallState.switch (L : Layout) (st : CallState) (t : Nat) : CallState :=
  { st with
    current := t
    kernelGs := if L.hasProcess t then L.sstacks else st.kernelGs
    mem := update st.mem (L.sstacks + 8) (L.top t) }

/-- One step. Threads without a user stack run in the kernel only. -/
inductive CallStep (L : Layout) : CallState → CallAction → CallState → Prop
  | run {st : CallState} {u u' : UserRegs} (huser : L.isUser st.current)
      (hctx : st.ctx st.current = .user u) :
      CallStep L st (.run u') { st with ctx := update st.ctx st.current (.user u') }
  | enter {st : CallState} {u : UserRegs} {others : Reg → Nat} (huser : L.isUser st.current)
      (hctx : st.ctx st.current = .user u) :
      CallStep L st (.enter others) (st.enter others u)
  | work {st : CallState} {mem : WordMem} (hkeeps : Keeps L st mem) :
      CallStep L st (.work mem) { st with mem := mem }
  | switch {st : CallState} {t : Nat} {mem : WordMem} (hkeeps : Keeps L st mem) :
      CallStep L st (.switch t mem) (CallState.switch L { st with mem := mem } t)
  | leave {st : CallState} {rsp : Nat} {saved : UserRegs} {others : Reg → Nat}
      (huser : L.isUser st.current) (hctx : st.ctx st.current = .kernel rsp saved) :
      CallStep L st (.leave others) (st.leave others rsp saved)

/-- The system after `init_syscalls`, with a thread running that stays in the kernel. -/
def callMachine (L : Layout) : Machine CallState CallAction where
  start st := ¬ L.isUser st.current ∧ (∀ t, ∃ u, st.ctx t = .user u) ∧ st.entries = [] ∧
    st.returns = []
  step := CallStep L

/-- Every return has given back the registers of the system call. -/
def ReturnsRight (st : CallState) : Prop := ∀ r ∈ st.returns, r.2 = r.1

/-- When a thread leaves, the last thread to enter had the same stack pointer. -/
def LastEntered (st : CallState) : CallAction → Prop
  | .leave _ => ∀ rsp saved, st.ctx st.current = .kernel rsp saved →
      ∀ e ∈ st.entries.head?, e.2 = saved.rsp
  | _ => True

variable {L : Layout} {st st' : CallState} {t : Nat} {u saved : UserRegs} {others : Reg → Nat}
  {mem : WordMem} {rsp : Nat}

/-! ## What holds along a run -/

/-- The words of a thread inside a system call. -/
structure Saved (L : Layout) (mem : WordMem) (t rsp : Nat) (u : UserRegs) : Prop where
  isUser : L.isUser t
  rsp : rsp = L.top t - 128
  rip : mem (L.top t - 16) = u.rip
  rflags : mem (L.top t - 8) = u.rflags

/-- The record belongs to the running thread, up to the stack pointer in it, which is
that of the last thread to enter. Where a thread will need it, `gs` or its other base
points to the record. -/
structure CallInv (L : Layout) (st : CallState) : Prop where
  right : ReturnsRight st
  saved : ∀ t rsp u, st.ctx t = .kernel rsp u → Saved L st.mem t rsp u
  entered : ∀ t rsp u, st.ctx t = .kernel rsp u → st.entries ≠ []
  last : ∀ e ∈ st.entries.head?, st.mem L.sstacks = e.2
  kernelRsp : L.isUser st.current → st.mem (L.sstacks + 8) = L.top st.current
  gs : ∀ rsp u, st.ctx st.current = .kernel rsp u → st.gs = L.sstacks
  kernelGs : ∀ u, L.isUser st.current → st.ctx st.current = .user u → st.kernelGs = L.sstacks
  others : ∀ t rsp u, t ≠ st.current → st.ctx t = .kernel rsp u →
    st.gs = L.sstacks ∧ (L.hasProcess st.current = true → st.kernelGs = L.sstacks)

/-- The saved words of a thread, when its part of the stack stays. -/
lemma Saved.of_eq {mem' : WordMem} (h : Saved L mem t rsp u) (hL : L.Valid)
    (heq : ∀ a, L.top t - 16 ≤ a → a < L.top t → mem' a = mem a) : Saved L mem' t rsp u := by
  have hroom := hL.room t h.isUser
  refine ⟨h.isUser, h.rsp, ?_, ?_⟩
  · rw [heq _ le_rfl (by omega)]
    exact h.rip
  · rw [heq _ (by omega) (by omega)]
    exact h.rflags

lemma atSyscall_rcx (others : Reg → Nat) (u : UserRegs) : atSyscall others u .rcx = u.rip := by
  rw [atSyscall, update_of_ne (by decide), update_self]

lemma atSyscall_r11 (others : Reg → Nat) (u : UserRegs) : atSyscall others u .r11 = u.rflags := by
  rw [atSyscall, update_self]

lemma CallInv.start (h : (callMachine L).start st) : CallInv L st := by
  obtain ⟨hcur, huser, hentries, hreturns⟩ := h
  have hno : ∀ t rsp u, st.ctx t ≠ .kernel rsp u := by
    intro t rsp u hk
    obtain ⟨u', hu⟩ := huser t
    rw [hu] at hk
    cases hk
  refine ⟨?_, fun t rsp u hk => absurd hk (hno t rsp u),
    fun t rsp u hk => absurd hk (hno t rsp u), ?_,
    fun hc => absurd hc hcur, fun rsp u hk => absurd hk (hno _ rsp u), fun _ hc => absurd hc hcur,
    fun t rsp u _ hk => absurd hk (hno t rsp u)⟩
  · intro r hr
    rw [hreturns] at hr
    exact absurd hr not_mem_nil
  · intro e he
    rw [hentries] at he
    cases he

section

variable (h : CallInv L st)
include h

lemma CallInv.run (huser : L.isUser st.current) (hctx : st.ctx st.current = .user u)
    (u' : UserRegs) : CallInv L { st with ctx := update st.ctx st.current (.user u') } := by
  have hkernel : ∀ t rsp v, update st.ctx st.current (.user u') t = .kernel rsp v →
      t ≠ st.current ∧ st.ctx t = .kernel rsp v := by
    intro t rsp v hk
    rcases update_eq_cases hk with ⟨-, hk⟩ | ⟨ht, hk⟩
    · cases hk
    · exact ⟨ht, hk⟩
  refine ⟨h.right, fun t rsp v hk => h.saved t rsp v (hkernel t rsp v hk).2,
    fun t rsp v hk => h.entered t rsp v (hkernel t rsp v hk).2, h.last, h.kernelRsp,
    fun rsp v hk => absurd rfl (hkernel _ rsp v hk).1, fun _ _ _ => h.kernelGs u huser hctx,
    fun t rsp v ht hk => h.others t rsp v ht (hkernel t rsp v hk).2⟩

section

variable (hL : L.Valid)
include hL

lemma CallInv.work (hkeeps : Keeps L st mem) : CallInv L { st with mem := mem } := by
  obtain ⟨hrecord, hrsp, hframes⟩ := hkeeps
  refine ⟨h.right, fun t rsp u hk => ?_, h.entered, fun e he => hrecord.trans (h.last e he),
    fun hc => hrsp.trans (h.kernelRsp hc), h.gs, h.kernelGs, h.others⟩
  obtain ⟨hip, hflags⟩ := hframes t rsp u hk
  have hs := h.saved t rsp u hk
  have hroom := hL.room t hs.isUser
  rw [hs.rsp, show L.top t - 128 + 112 = L.top t - 16 by omega] at hip
  rw [hs.rsp, show L.top t - 128 + 120 = L.top t - 8 by omega] at hflags
  exact ⟨hs.isUser, hs.rsp, hip.trans hs.rip, hflags.trans hs.rflags⟩

lemma CallInv.switch (t : Nat) : CallInv L (CallState.switch L st t) := by
  refine ⟨h.right, fun t' rsp u hk => ?_, h.entered, fun e he => ?_, fun _ => ?_,
    fun rsp u hk => ?_, fun u hc _ => ?_, fun t' rsp u ht hk => ⟨?_, fun hp => if_pos hp⟩⟩
  · have hs := h.saved t' rsp u hk
    refine hs.of_eq hL fun a ha ha' => update_of_ne ?_ _ _
    have := hL.record t' hs.isUser
    omega
  · exact (update_of_ne (by omega) _ _).trans (h.last e he)
  · exact update_self _ _ _
  · by_cases ht : t = st.current
    · exact h.gs rsp u (ht ▸ hk)
    · exact (h.others t rsp u ht hk).1
  · exact if_pos (hL.process t hc)
  · by_cases ht' : t' = st.current
    · exact h.gs rsp u (ht' ▸ hk)
    · exact (h.others t' rsp u ht' hk).1

lemma CallInv.enter (huser : L.isUser st.current) (hctx : st.ctx st.current = .user u)
    (others : Reg → Nat) : CallInv L (st.enter others u) := by
  have hkgs := h.kernelGs u huser hctx
  have hroom := hL.room _ huser
  have hrec := hL.record _ huser
  have hsp : (st.cpu (atSyscall others u) u.rsp).mem
      ((st.cpu (atSyscall others u) u.rsp).kernelGs + 8) = L.top st.current := by
    simp only [CallState.cpu, hkgs]
    exact h.kernelRsp huser
  obtain ⟨hstack, hflags, hip, hframe⟩ := syscallEntry_mem hsp hroom (by
    simp only [CallState.cpu, hkgs]
    omega)
  have hrsp := syscallEntry_rsp hsp
  simp only [CallState.cpu, hkgs] at hstack hflags hip hframe hrsp
  have hmem : (st.enter others u).mem =
      (syscallEntry ⟨atSyscall others u, u.rsp, st.gs, L.sstacks, st.mem⟩).mem := by
    simp only [CallState.enter, CallState.cpu, hkgs]
  have hctx' : ∀ t rsp v, (st.enter others u).ctx t = .kernel rsp v →
      (t = st.current ∧ rsp = L.top st.current - 128 ∧ v = u) ∨
        (t ≠ st.current ∧ st.ctx t = .kernel rsp v) := by
    intro t rsp v hk
    simp only [CallState.enter, CallState.cpu, hkgs] at hk
    rcases update_eq_cases hk with ⟨ht, hk⟩ | ⟨ht, hk⟩
    · obtain ⟨hk, hv⟩ := Context.kernel.inj hk
      exact .inl ⟨ht, hk.symm.trans hrsp, hv.symm⟩
    · exact .inr ⟨ht, hk⟩
  refine ⟨h.right, fun t rsp v hk => ?_, fun _ _ _ _ => cons_ne_nil _ _, fun e he => ?_,
    fun _ => ?_, fun _ _ _ => hkgs, fun v _ hk => ?_, fun t rsp v ht hk => ?_⟩
  · rw [hmem]
    rcases hctx' t rsp v hk with ⟨ht, hrsp, hv⟩ | ⟨ht, hk⟩
    · rw [ht, hrsp, hv]
      exact ⟨huser, rfl, hip.trans (atSyscall_rcx others u), hflags.trans (atSyscall_r11 others u)⟩
    · have hs := h.saved t rsp v hk
      refine hs.of_eq hL fun a ha ha' => hframe a ?_ ?_
      · have := hL.record t hs.isUser
        omega
      · have := hL.apart t st.current hs.isUser huser ht
        omega
  · rw [hmem, hstack]
    cases he
    rfl
  · rw [hmem, hframe _ (by omega) (by omega)]
    exact h.kernelRsp huser
  · have hself : (st.enter others u).ctx (st.enter others u).current = .kernel _ u :=
      update_self _ _ _
    rw [hself] at hk
    cases hk
  · rcases hctx' t rsp v hk with ⟨heq, -, -⟩ | ⟨-, hk⟩
    · exact absurd heq ht
    · exact ⟨hkgs, fun _ => (h.others t rsp v ht hk).1⟩

lemma CallInv.leave_regs (hctx : st.ctx st.current = .kernel rsp saved) (others : Reg → Nat) :
    (syscallExit (st.cpu others rsp)).2 = ⟨st.mem L.sstacks, saved.rip, saved.rflags⟩ := by
  have hs := h.saved _ rsp saved hctx
  have hroom := hL.room _ hs.isUser
  have hrec := hL.record _ hs.isUser
  have hgs := h.gs rsp saved hctx
  rw [syscallExit_user]
  · simp only [CallState.cpu, hgs, hs.rsp]
    rw [show L.top st.current - 128 + 112 = L.top st.current - 16 by omega, hs.rip,
      show L.top st.current - 128 + 120 = L.top st.current - 8 by omega, hs.rflags]
  · simp only [CallState.cpu, hgs, hs.rsp]
    omega

lemma CallInv.leave (hctx : st.ctx st.current = .kernel rsp saved) (others : Reg → Nat)
    (hgood : LastEntered st (.leave others)) : CallInv L (st.leave others rsp saved) := by
  have hs := h.saved _ rsp saved hctx
  have hroom := hL.room _ hs.isUser
  have hrec := hL.record _ hs.isUser
  have hgs := h.gs rsp saved hctx
  have hregs := h.leave_regs hL hctx others
  obtain ⟨-, -, hgs', hkgs'⟩ := syscallExit_cpu (st.cpu others rsp)
  have hframe : ∀ a, (a < L.top st.current - 48 ∨ L.top st.current ≤ a) →
      (st.leave others rsp saved).mem a = st.mem a := by
    intro a ha
    refine syscallExit_mem (c := st.cpu others rsp) ?_
    simp only [CallState.cpu, hs.rsp]
    omega
  have hkernel : ∀ t rsp' v, (st.leave others rsp saved).ctx t = .kernel rsp' v →
      t ≠ st.current ∧ st.ctx t = .kernel rsp' v := by
    intro t rsp' v hk
    rcases update_eq_cases hk with ⟨-, hk⟩ | ⟨ht, hk⟩
    · exact Context.noConfusion hk
    · exact ⟨ht, hk⟩
  refine ⟨fun r hr => ?_, fun t rsp' v hk => ?_,
    fun t rsp' v hk => h.entered t rsp' v (hkernel t rsp' v hk).2,
    fun e he => ?_, fun hc => ?_, fun rsp' v hk => absurd rfl (hkernel _ rsp' v hk).1,
    fun _ _ _ => hkgs'.trans hgs, fun t rsp' v ht hk => ?_⟩
  · rcases mem_cons.mp hr with rfl | hr
    · obtain ⟨e, he⟩ : ∃ e, st.entries.head? = some e := by
        cases hl : st.entries with
        | nil => exact absurd hl (h.entered _ rsp saved hctx)
        | cons e es => exact ⟨e, rfl⟩
      have hsp : st.mem L.sstacks = saved.rsp :=
        (h.last e he).trans (hgood rsp saved hctx e he)
      exact hregs.trans (by rw [hsp])
    · exact h.right r hr
  · obtain ⟨ht, hk⟩ := hkernel t rsp' v hk
    have hs' := h.saved t rsp' v hk
    refine hs'.of_eq hL fun a ha ha' => hframe a ?_
    have := hL.apart t st.current hs'.isUser hs.isUser ht
    omega
  · exact (hframe _ (by omega)).trans (h.last e he)
  · exact (hframe _ (by omega)).trans (h.kernelRsp hc)
  · obtain ⟨-, hk⟩ := hkernel t rsp' v hk
    have hboth := h.others t rsp' v ht hk
    exact ⟨hgs'.trans (hboth.2 (hL.process _ hs.isUser)), fun _ => hkgs'.trans hgs⟩

lemma CallInv.step {a : CallAction} (hgood : LastEntered st a) (hstep : CallStep L st a st') :
    CallInv L st' := by
  cases hstep with
  | run huser hctx => exact h.run huser hctx _
  | enter huser hctx => exact h.enter hL huser hctx _
  | work hkeeps => exact h.work hL hkeeps
  | switch hkeeps => exact (h.work hL hkeeps).switch hL _
  | leave huser hctx => exact h.leave hL hctx _ hgood

/-- A thread that leaves after another one entered gets that one's stack pointer. -/
lemma CallInv.not_returnsRight {a : CallAction} (hstep : CallStep L st a st')
    (hbad : ¬ LastEntered st a) : ¬ ReturnsRight st' := by
  cases hstep with
  | run _ _ => exact absurd trivial hbad
  | enter _ _ => exact absurd trivial hbad
  | work _ => exact absurd trivial hbad
  | switch _ => exact absurd trivial hbad
  | @leave rsp saved others huser hctx =>
    intro hright
    apply hbad
    intro rsp' saved' hctx' e he
    obtain ⟨-, rfl⟩ := Context.kernel.inj (hctx.symm.trans hctx')
    have hback := hright _ mem_cons_self
    rw [h.leave_regs hL hctx others] at hback
    exact (h.last e he).symm.trans (congrArg UserRegs.rsp hback)

end

end

/-- A system call returns to its own registers exactly as long as every thread that
leaves has the stack pointer of the last thread that entered, in particular when that
is the thread itself. -/
theorem syscall_returns_right_iff (hL : L.Valid) (run : (callMachine L).Reached LastEntered st) :
    (callMachine L).SafeExactlyWhen ReturnsRight LastEntered st :=
  run.safeExactlyWhen (fun _ h => CallInv.start h)
    (fun _ _ _ h hgood hstep => h.step hL hgood hstep)
    (fun _ h => h.right) (fun _ _ _ h hstep hbad => h.not_returnsRight hL hstep hbad)

/-! ## Two threads -/

/-- Threads 1 and 2 have a user stack. -/
def twoThreads : Layout :=
  ⟨0x1000, fun t => 0x2000 * t, fun t => t = 1 ∨ t = 2, fun t => t == 1 || t == 2⟩

lemma twoThreads_valid : twoThreads.Valid := by
  refine ⟨?_, ?_, ?_, ?_⟩
  · rintro t (rfl | rfl) <;> decide
  · rintro t (rfl | rfl) <;> decide
  · rintro t u (rfl | rfl) (rfl | rfl) hne
    · exact absurd rfl hne
    · decide
    · decide
    · exact absurd rfl hne
  · rintro t (rfl | rfl) <;> rfl

/-- The registers of thread `t` at its system call. -/
def userRegs (t : Nat) : UserRegs := ⟨0x10000 * t, 0x400000, 0x202⟩

def beforeCalls : CallState :=
  ⟨fun _ => 0, 0, 0x1000, 0, fun t => .user (userRegs t), [], []⟩

/-- Thread `t` is switched to and enters a system call. -/
def nextEnters (st : CallState) (t : Nat) : CallState :=
  (CallState.switch twoThreads st t).enter (fun _ => 0) (userRegs t)

lemma Keeps.refl (L : Layout) (st : CallState) : Keeps L st st.mem :=
  ⟨rfl, rfl, fun _ _ _ _ => ⟨rfl, rfl⟩⟩

lemma nextEnters_ctx_of_ne {t' : Nat} (st : CallState) (hne : t' ≠ t) :
    (nextEnters st t).ctx t' = st.ctx t' := by exact update_of_ne hne _ _

lemma nextEnters_ctx_self (st : CallState) (t : Nat) :
    ∃ rsp, (nextEnters st t).ctx t = .kernel rsp (userRegs t) := by exact ⟨_, update_self _ _ _⟩

lemma nextEnters_reached (h : (callMachine twoThreads).Reached LastEntered st)
    (ht : t = 1 ∨ t = 2) (hctx : st.ctx t = .user (userRegs t)) :
    (callMachine twoThreads).Reached LastEntered (nextEnters st t) := by
  have hswitch : (callMachine twoThreads).Reached LastEntered (CallState.switch twoThreads st t) :=
    .step h (show LastEntered st (.switch t st.mem) from trivial) (.switch (Keeps.refl _ _))
  exact .step hswitch (show LastEntered _ (.enter fun _ => 0) from trivial) (.enter ht hctx)

/-- Both are inside a system call, and thread 1 is switched to. -/
def bothInside : CallState :=
  CallState.switch twoThreads (nextEnters (nextEnters beforeCalls 1) 2) 1

lemma bothInside_reached : (callMachine twoThreads).Reached LastEntered bothInside := by
  have h0 : (callMachine twoThreads).Reached LastEntered beforeCalls := by
    refine .start ⟨?_, fun t => ⟨userRegs t, rfl⟩, rfl, rfl⟩
    rintro (h | h) <;> cases h
  have h1 := nextEnters_reached h0 (.inl rfl) rfl
  have h2 : (callMachine twoThreads).Reached LastEntered
      (nextEnters (nextEnters beforeCalls 1) 2) := by
    refine nextEnters_reached h1 (.inr rfl) ?_
    exact nextEnters_ctx_of_ne beforeCalls (by decide)
  exact .step h2 (show LastEntered _ (.switch 1 _) from trivial) (.switch (Keeps.refl _ _))

lemma bothInside_ctx : ∃ rsp, bothInside.ctx 1 = .kernel rsp (userRegs 1) := by
  obtain ⟨rsp, hctx⟩ := nextEnters_ctx_self beforeCalls 1
  refine ⟨rsp, ?_⟩
  simp only [bothInside, CallState.switch]
  rw [nextEnters_ctx_of_ne _ (by decide), hctx]

theorem syscall_returns_right_bothInside :
    (callMachine twoThreads).SafeExactlyWhen ReturnsRight LastEntered bothInside :=
  syscall_returns_right_iff twoThreads_valid bothInside_reached

/-- Thread 1 leaves with the stack pointer of thread 2. -/
theorem syscall_returns_to_other_stack : (callMachine twoThreads).Reached LastEntered bothInside ∧
      ∃ st, CallStep twoThreads bothInside (.leave fun _ => 0) st ∧ ¬ ReturnsRight st := by
  obtain ⟨rsp, hctx⟩ := bothInside_ctx
  have hstep : CallStep twoThreads bothInside (.leave fun _ => 0)
      (bothInside.leave (fun _ => 0) rsp (userRegs 1)) := .leave (.inl rfl) hctx
  refine ⟨bothInside_reached, _, hstep, ?_⟩
  have hinv : CallInv twoThreads bothInside := bothInside_reached.invariant
    (fun _ h => CallInv.start h) (fun _ _ _ h hgood hstep => h.step twoThreads_valid hgood hstep)
  apply hinv.not_returnsRight twoThreads_valid hstep
  intro hlast
  have := hlast rsp (userRegs 1) hctx (2, 0x20000) rfl
  exact absurd this (by decide)

end DestinX.Syscall
