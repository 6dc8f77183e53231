import DestinX.Base.Runs

/-!
# Lazy switching of the vector registers

A context switch sets `CR0.TS`. The first vector instruction afterwards enters
`vector_ctx_switch`, which saves the registers in the buffer of `ctx_thread` and loads those of
the running thread. The abstract model is a register file for each thread.

While the thread that `ctx_thread` points to exists, the lazy scheme is the abstract one.
`destroy_thread` frees the thread and leaves the pointer: the next switch saves into the buffer
of a thread that is gone, and a new thread at the same address is taken for the owner.
-/

namespace DestinX.Sched

open Base Function Option

/-- The processor and the threads as `vector_ctx_switch` sees them. Freeing a `thread_t`
leaves the field `sse_avx_buffer` in memory: `slab_free` writes the first word only. -/
structure VectorState (V : Type) where
  sseAvx : Nat
  ts : Bool
  regs : V
  ctxThread : Option Nat
  currentThread : Nat
  /-- The field `sse_avx_buffer` of the thread at an address. -/
  sseAvxBuffer : Nat → Nat
  /-- The contents of the save buffers. -/
  saved : Nat → V
  /-- The addresses at which a thread exists. -/
  live : Nat → Prop

variable {V : Type}

/-- `save_sse_ctx` and `save_avx_ctx` -/
def VectorState.saveCtx (st : VectorState V) (buffer : Nat) : VectorState V :=
  { st with saved := update st.saved buffer st.regs }

/-- `restore_sse_ctx` and `restore_avx_ctx` -/
def VectorState.restoreCtx (st : VectorState V) (buffer : Nat) : VectorState V :=
  { st with regs := st.saved buffer }

/-- Vector instructions have been executed. -/
def VectorState.withRegs (st : VectorState V) (v : V) : VectorState V := { st with regs := v }

/-- The two branches are the same, each with its own instructions. -/
def VectorState.exchange (st : VectorState V) : VectorState V × List Nat :=
  match st.ctxThread with
  | some t =>
    ({ st.saveCtx (st.sseAvxBuffer t) with ctxThread := some st.currentThread }.restoreCtx
      (st.sseAvxBuffer st.currentThread),
      [st.sseAvxBuffer t, st.sseAvxBuffer st.currentThread])
  | none =>
    ({ st with ctxThread := some st.currentThread }.restoreCtx
      (st.sseAvxBuffer st.currentThread), [st.sseAvxBuffer st.currentThread])

/-- The handler, with the buffers that it saves to and restores from. -/
def VectorState.vectorCtxSwitch (st : VectorState V) : VectorState V × List Nat :=
  let st := { st with ts := false }
  if st.ctxThread = some st.currentThread then (st, [])
  else if st.sseAvx = 1 then st.exchange
  else if st.sseAvx = 2 then st.exchange
  else (st, [])

/-- What a context switch does that concerns the registers. -/
def VectorState.switchTo (st : VectorState V) (u : Nat) : VectorState V :=
  { st with ts := true, currentThread := u }

/-! ## Runs -/

/-- With the lazy scheme runs the abstract one: `left` is what each thread has left in
its registers. -/
structure VectorRun (V : Type) where
  cpu : VectorState V
  left : Nat → V

inductive VectorAction (V : Type) where
  | switch (u : Nat)
  | use (v : V)
  | create (t buffer : Nat)
  | destroy (t : Nat)

/-- The running thread has vector instructions executed, which leave `v`. -/
def VectorRun.use (st : VectorRun V) (v : V) : VectorRun V where
  cpu := (if st.cpu.ts then st.cpu.vectorCtxSwitch.1 else st.cpu).withRegs v
  left := update st.left st.cpu.currentThread v

/-- The save buffer of a new thread is cleared. -/
def VectorRun.create (st : VectorRun V) (zero : V) (t buffer : Nat) : VectorRun V where
  cpu := { st.cpu with
    sseAvxBuffer := update st.cpu.sseAvxBuffer t buffer
    saved := update st.cpu.saved buffer zero
    live := fun u => st.cpu.live u ∨ u = t }
  left := update st.left t zero

def VectorRun.destroy (st : VectorRun V) (t : Nat) : VectorRun V :=
  { st with cpu.live := fun u => st.cpu.live u ∧ u ≠ t }

/-- A new thread gets an address where no thread is, perhaps that of one that has been
destroyed, and a buffer that no thread uses. The thread that runs is not destroyed. -/
inductive VectorStep (zero : V) : VectorRun V → VectorAction V → VectorRun V → Prop
  | switch {st : VectorRun V} {u : Nat} (hu : st.cpu.live u) :
      VectorStep zero st (.switch u) { st with cpu := st.cpu.switchTo u }
  | use {st : VectorRun V} {v : V} : VectorStep zero st (.use v) (st.use v)
  | create {st : VectorRun V} {t buffer : Nat} (ht : ¬ st.cpu.live t)
      (hb : ∀ u, st.cpu.live u → st.cpu.sseAvxBuffer u ≠ buffer) :
      VectorStep zero st (.create t buffer) (st.create zero t buffer)
  | destroy {st : VectorRun V} {t : Nat} (ht : st.cpu.live t) (hrun : st.cpu.currentThread ≠ t) :
      VectorStep zero st (.destroy t) (st.destroy t)

/-- Threads have different buffers. -/
def Separate (st : VectorState V) : Prop :=
  ∀ u w, st.live u → st.live w → st.sseAvxBuffer u = st.sseAvxBuffer w → u = w

/-- With vector instructions enabled, before any of them has been executed by a thread.
What a thread has left is what is in its buffer. -/
def vectorMachine (zero : V) : Machine (VectorRun V) (VectorAction V) where
  start st :=
    (st.cpu.sseAvx = 1 ∨ st.cpu.sseAvx = 2) ∧ st.cpu.ctxThread = none ∧
      st.cpu.live st.cpu.currentThread ∧ Separate st.cpu ∧
      ∀ u, st.cpu.live u → st.left u = st.cpu.saved (st.cpu.sseAvxBuffer u)
  step := VectorStep zero

/-- The lazy scheme is that of private registers. The thread that owns the registers
while they are enabled finds in them what it has left. Every other use comes after a
switch: whichever thread it is, it finds what it has left, and only buffers of threads
that exist are used for that. -/
def PrivateRegisters (st : VectorRun V) : Prop :=
  (st.cpu.ts = false → st.cpu.ctxThread = some st.cpu.currentThread →
    st.cpu.regs = st.left st.cpu.currentThread) ∧
  ∀ u, st.cpu.live u → (st.cpu.switchTo u).vectorCtxSwitch.1.regs = st.left u ∧
    ∀ b ∈ (st.cpu.switchTo u).vectorCtxSwitch.2, ∃ w, st.cpu.live w ∧ st.cpu.sseAvxBuffer w = b

/-- The thread that owns the registers is not destroyed. Before the first switch there is
no owner, and the running thread leaves in the registers what its buffer holds. -/
def OwnerKept (st : VectorRun V) : VectorAction V → Prop
  | .destroy t => st.cpu.ctxThread ≠ some t
  | .use v => st.cpu.ts = true ∨ st.cpu.ctxThread = some st.cpu.currentThread ∨
      v = st.cpu.saved (st.cpu.sseAvxBuffer st.cpu.currentThread)
  | _ => True

/-! ## The invariant -/

/-- The registers belong to `ctx_thread`, the buffers to the other threads. -/
structure VectorKept (st : VectorRun V) : Prop where
  mode : st.cpu.sseAvx = 1 ∨ st.cpu.sseAvx = 2
  current : st.cpu.live st.cpu.currentThread
  separate : Separate st.cpu
  enabled : st.cpu.ts = false →
    st.cpu.ctxThread = none ∨ st.cpu.ctxThread = some st.cpu.currentThread
  owner : ∀ t, st.cpu.ctxThread = some t → st.cpu.live t ∧ st.cpu.regs = st.left t
  others : ∀ u, st.cpu.live u → st.cpu.ctxThread ≠ some u →
    st.cpu.saved (st.cpu.sseAvxBuffer u) = st.left u

variable {zero v : V} {st st' : VectorRun V} {act : VectorAction V} {cpu : VectorState V}
  {t u b : Nat}

/-- The handler in the two modes, for a thread that does not own the registers. -/
lemma vectorCtxSwitch_eq (cpu : VectorState V) (hmode : cpu.sseAvx = 1 ∨ cpu.sseAvx = 2)
    (hne : cpu.ctxThread ≠ some cpu.currentThread) :
    cpu.vectorCtxSwitch = { cpu with ts := false }.exchange := by
  rw [VectorState.vectorCtxSwitch]
  rw [if_neg hne]
  rcases hmode with h | h
  · rw [if_pos h]
  · rw [h, if_neg (by decide), if_pos rfl]

lemma vectorCtxSwitch_self (h : cpu.ctxThread = some cpu.currentThread) :
    cpu.vectorCtxSwitch = ({ cpu with ts := false }, []) := if_pos h

section

variable (h : VectorKept st)
include h

/-- After the handler has run, the running thread owns the registers. -/
lemma VectorKept.switched : VectorKept { st with cpu := st.cpu.vectorCtxSwitch.1 } ∧
      st.cpu.vectorCtxSwitch.1.ctxThread = some st.cpu.currentThread ∧
      st.cpu.vectorCtxSwitch.1.currentThread = st.cpu.currentThread ∧
      ∀ b ∈ st.cpu.vectorCtxSwitch.2, ∃ w, st.cpu.live w ∧ st.cpu.sseAvxBuffer w = b := by
  by_cases hself : st.cpu.ctxThread = some st.cpu.currentThread
  · rw [vectorCtxSwitch_self hself]
    exact ⟨⟨h.mode, h.current, h.separate, fun _ => .inr hself, h.owner, h.others⟩, hself, rfl,
      by simp⟩
  rw [vectorCtxSwitch_eq _ h.mode hself]
  have hcur := h.others _ h.current hself
  cases hctx : st.cpu.ctxThread with
  | none =>
    refine ⟨⟨h.mode, h.current, h.separate, fun _ => .inr rfl, ?_, ?_⟩, rfl, rfl, ?_⟩
    · intro t ht
      cases ht
      exact ⟨h.current, hcur⟩
    · intro u hu _
      exact h.others u hu (by simp [hctx])
    · intro b hb
      exact ⟨st.cpu.currentThread, h.current, (List.mem_singleton.mp hb).symm⟩
  | some t =>
    obtain ⟨ht, hregs⟩ := h.owner t hctx
    have htc : t ≠ st.cpu.currentThread := fun heq => hself (heq ▸ hctx)
    have hbuffer : ∀ u, st.cpu.live u → u ≠ t → st.cpu.sseAvxBuffer u ≠ st.cpu.sseAvxBuffer t :=
      fun u hu hne heq => hne (h.separate u t hu ht heq)
    refine ⟨⟨h.mode, h.current, h.separate, fun _ => .inr rfl, ?_, ?_⟩, rfl, rfl, ?_⟩
    · intro w hw
      cases hw
      exact ⟨h.current, (update_of_ne (hbuffer _ h.current htc.symm) _ _).trans hcur⟩
    · intro u hu hne
      by_cases hut : u = t
      · subst hut
        exact (update_self _ _ _).trans hregs
      · refine (update_of_ne (hbuffer u hu hut) _ _).trans (h.others u hu ?_)
        rw [hctx]
        exact fun heq => hut (some.inj heq).symm
    · intro b hb
      rcases List.mem_cons.mp hb with rfl | hb
      · exact ⟨t, ht, rfl⟩
      · exact ⟨_, h.current, (List.mem_singleton.mp hb).symm⟩

lemma VectorKept.switchTo (hu : st.cpu.live u) :
    VectorKept { st with cpu := st.cpu.switchTo u } :=
  ⟨h.mode, hu, h.separate, fun hts => (nomatch hts), h.owner, h.others⟩

lemma VectorKept.privateRegisters : PrivateRegisters st := by
  refine ⟨fun _ hctx => (h.owner _ hctx).2, fun u hu => ?_⟩
  obtain ⟨hkept, howner, -, hlive⟩ := (h.switchTo hu).switched
  exact ⟨(hkept.owner u howner).2, hlive⟩

/-- The running thread leaves something else in the registers: it owns them, or nobody
does and its buffer holds the same. -/
lemma VectorKept.leave
    (hv : st.cpu.ctxThread = some st.cpu.currentThread ∨ st.cpu.ctxThread = none ∧
      v = st.cpu.saved (st.cpu.sseAvxBuffer st.cpu.currentThread)) :
    VectorKept ⟨st.cpu.withRegs v, update st.left st.cpu.currentThread v⟩ := by
  refine ⟨h.mode, h.current, h.separate, h.enabled, fun t ht => ?_, fun u hu hne => ?_⟩
  · rcases hv with howner | ⟨hnone, -⟩
    · have htc : t = st.cpu.currentThread := some.inj (ht.symm.trans howner)
      subst htc
      refine ⟨h.current, ?_⟩
      dsimp only
      rw [update_self, VectorState.withRegs]
    · have hsome : st.cpu.ctxThread = some t := ht
      rw [hnone] at hsome
      cases hsome
  · refine (h.others u hu hne).trans ?_
    dsimp only
    by_cases huc : u = st.cpu.currentThread
    · subst huc
      rcases hv with howner | ⟨-, rfl⟩
      · exact absurd howner hne
      · rw [update_self, h.others _ hu hne]
    · rw [update_of_ne huc]

lemma VectorKept.use (hgood : OwnerKept st (.use v)) : VectorKept (st.use v) := by
  rw [VectorRun.use]
  cases hts : st.cpu.ts with
  | true =>
    obtain ⟨hkept, howner, hcur, -⟩ := h.switched
    have hleave := hkept.leave (v := v) (.inl (howner.trans (congrArg some hcur.symm)))
    rw [hcur] at hleave
    exact hleave
  | false =>
    have hv : st.cpu.ctxThread = some st.cpu.currentThread ∨ st.cpu.ctxThread = none ∧
        v = st.cpu.saved (st.cpu.sseAvxBuffer st.cpu.currentThread) := by
      rcases h.enabled hts with hnone | howner
      · rcases hgood with hon | howner | hv
        · rw [hts] at hon
          cases hon
        · exact .inl howner
        · exact .inr ⟨hnone, hv⟩
      · exact .inl howner
    exact h.leave hv

lemma VectorKept.create (ht : ¬ st.cpu.live t)
    (hb : ∀ u, st.cpu.live u → st.cpu.sseAvxBuffer u ≠ b) : VectorKept (st.create zero t b) := by
  have hne : ∀ u, st.cpu.live u → u ≠ t := fun u hu heq => ht (heq ▸ hu)
  have hold : ∀ u, st.cpu.live u →
      (st.create zero t b).cpu.sseAvxBuffer u = st.cpu.sseAvxBuffer u := fun u hu =>
    update_of_ne (hne u hu) _ _
  have hnew : (st.create zero t b).cpu.sseAvxBuffer t = b := update_self _ _ _
  refine ⟨h.mode, .inl h.current, fun u w hu hw heq => ?_, h.enabled, fun w hw => ?_,
    fun u hu hctx => ?_⟩
  · rcases hu with hu | rfl <;> rcases hw with hw | rfl
    · rw [hold u hu, hold w hw] at heq
      exact h.separate u w hu hw heq
    · rw [hold u hu, hnew] at heq
      exact absurd heq (hb u hu)
    · rw [hold w hw, hnew] at heq
      exact absurd heq.symm (hb w hw)
    · rfl
  · obtain ⟨hlive, hregs⟩ := h.owner w hw
    exact ⟨.inl hlive, hregs.trans (update_of_ne (hne w hlive) _ _).symm⟩
  · rcases hu with hu | rfl
    · rw [hold u hu]
      refine (update_of_ne (hb u hu) _ _).trans ((h.others u hu hctx).trans ?_)
      exact (update_of_ne (hne u hu) _ _).symm
    · rw [hnew]
      dsimp only [VectorRun.create]
      rw [update_self, update_self]

lemma VectorKept.step (hgood : OwnerKept st act) (hstep : VectorStep zero st act st') :
    VectorKept st' := by
  cases hstep with
  | switch hu => exact h.switchTo hu
  | use => exact h.use hgood
  | create ht hb => exact h.create ht hb
  | destroy ht hrun =>
    refine ⟨h.mode, ⟨h.current, hrun⟩, fun u w hu hw => h.separate u w hu.1 hw.1, h.enabled,
      fun w hw => ?_, fun u hu => h.others u hu.1⟩
    obtain ⟨hlive, hregs⟩ := h.owner w hw
    exact ⟨⟨hlive, fun heq => hgood (heq ▸ hw)⟩, hregs⟩

/-! ## A dangling owner -/

/-- The next thread to use the registers saves into the buffer of the destroyed thread. -/
lemma not_private_destroy (ht : st.cpu.live t) (hrun : st.cpu.currentThread ≠ t)
    (howner : st.cpu.ctxThread = some t) : ¬ PrivateRegisters (st.destroy t) := by
  intro hsafe
  obtain ⟨-, htouch⟩ := hsafe.2 st.cpu.currentThread ⟨h.current, hrun⟩
  have hself : st.cpu.ctxThread ≠ some st.cpu.currentThread := by
    rw [howner]
    exact fun heq => hrun (some.inj heq).symm
  have hmem : st.cpu.sseAvxBuffer t ∈
      ((st.destroy t).cpu.switchTo st.cpu.currentThread).vectorCtxSwitch.2 := by
    rw [vectorCtxSwitch_eq ((st.destroy t).cpu.switchTo st.cpu.currentThread) h.mode hself,
      VectorState.exchange]
    simp [VectorState.switchTo, VectorRun.destroy, howner]
  obtain ⟨w, ⟨hw, hne⟩, hb⟩ := htouch _ hmem
  exact hne (h.separate w t hw ht hb)

/-- Before the first switch the running thread changes the registers, and nobody will
save them. -/
lemma not_private_use (hbad : ¬ OwnerKept st (.use v)) : ¬ PrivateRegisters (st.use v) := by
  simp only [OwnerKept, not_or, Bool.not_eq_true] at hbad
  obtain ⟨hts, hself, hv⟩ := hbad
  have hnone := (h.enabled hts).resolve_right hself
  intro hsafe
  have hcpu : (st.use v).cpu = st.cpu.withRegs v := by
    rw [VectorRun.use, hts]
    rfl
  have hlive : (st.use v).cpu.live st.cpu.currentThread := by
    rw [hcpu]
    exact h.current
  have hregs := (hsafe.2 st.cpu.currentThread hlive).1
  rw [hcpu, vectorCtxSwitch_eq ((st.cpu.withRegs v).switchTo st.cpu.currentThread) h.mode hself,
    VectorState.exchange] at hregs
  simp only [VectorState.switchTo, VectorState.withRegs, hnone, VectorState.restoreCtx,
    VectorRun.use, update_self] at hregs
  exact hv hregs.symm

end

/-- Thread 0 runs, thread 1 has been created; each has its buffer. -/
def twoVectors : VectorRun Nat where
  cpu := ⟨1, true, 0, none, 0, fun t => t, fun _ => 0, fun t => t < 2⟩
  left := fun _ => 0

lemma twoVectors_start : (vectorMachine 0).start twoVectors :=
  ⟨.inl rfl, rfl, Nat.zero_lt_two, fun _ _ _ _ heq => heq, fun _ _ => rfl⟩

/-- Thread 1 uses the registers and thread 0 runs again. -/
def secondOwns : VectorRun Nat :=
  let st := ({ twoVectors with cpu := twoVectors.cpu.switchTo 1 } : VectorRun Nat).use 7
  { st with cpu := st.cpu.switchTo 0 }

lemma secondOwns_reached : (vectorMachine 0).Reached OwnerKept secondOwns := by
  have run1 : (vectorMachine 0).Reached OwnerKept
      { twoVectors with cpu := twoVectors.cpu.switchTo 1 } :=
    .step (.start twoVectors_start) (show OwnerKept _ (.switch 1) from trivial)
      (.switch Nat.one_lt_two)
  have run2 := run1.step (show OwnerKept _ (.use 7) from .inl rfl) .use
  exact run2.step (show OwnerKept _ (.switch 0) from trivial) (.switch Nat.zero_lt_two)

end DestinX.Sched
