import DestinX.Base.Runs
import DestinX.Drivers.Ahci
import DestinX.Sched.Boot

/-!
# Runs with disk interrupts

Threads call `ahci_read` and `ahci_write`, with the timer and the disk interrupt at any point
where interrupts are on. Between the write of `rflags` that turns them on again and the switch
in `yield`, a thread is marked blocked and recorded but still in the ring. A disk interrupt that
wakes it there enters it a second time. This is the only way in which the ring breaks.
-/

namespace DestinX.Ahci

open Base Sched Function Option

/-- Where a thread is: outside, on its way to `yield`, or past it. -/
inductive DiskPc where
  | outside
  | blocked (slot : Slot)
  | yielded (slot : Slot)
  deriving DecidableEq, Repr

structure DiskState where
  sched : Scheduler
  ctl : Controller
  pc : Nat → DiskPc

inductive DiskAction where
  | block (slot : Slot)
  | yield (rsp : Nat)
  | tick (rsp : Nat)
  | finish
  | device (hbaIs portIs ci : BitVec 32)
  | interrupt

/-- One step. The thread `idle` never uses the disk. Of `ci` the device only clears
bits; the other registers may change in any way, which covers the write to `is` with
which `ahci_read` and `ahci_write` begin. -/
inductive DiskStep (idle : Nat) : DiskState → DiskAction → DiskState → Prop
  | block {st : DiskState} {c : Nat} {slot : Slot} {s' : Scheduler} {ctl : Controller}
      (hc : st.sched.currentThread = some c) (hpc : st.pc c = .outside) (hidle : c ≠ idle)
      (hfree : ∀ t, st.pc t ≠ .blocked slot ∧ st.pc t ≠ .yielded slot)
      (he : Ahci.block slot st.sched st.ctl = some (s', ctl)) :
      DiskStep idle st (.block slot) ⟨s', ctl, update st.pc c (.blocked slot)⟩
  | yield {st : DiskState} {c rsp r : Nat} {slot : Slot} {s' : Scheduler}
      (hc : st.sched.currentThread = some c) (hpc : st.pc c = .blocked slot)
      (he : schedulerHandler st.sched rsp = some (s', r)) :
      DiskStep idle st (.yield rsp) { st with sched := s', pc := update st.pc c (.yielded slot) }
  | tick {st : DiskState} {rsp r : Nat} {s' : Scheduler}
      (he : schedulerHandler st.sched rsp = some (s', r)) :
      DiskStep idle st (.tick rsp) { st with sched := s' }
  | finish {st : DiskState} {c : Nat} {slot : Slot}
      (hc : st.sched.currentThread = some c) (hpc : st.pc c = .yielded slot) :
      DiskStep idle st .finish { st with pc := update st.pc c .outside }
  | device {st : DiskState} {hbaIs portIs ci : BitVec 32} (hci : ci &&& ~~~st.ctl.ci = 0) :
      DiskStep idle st (.device hbaIs portIs ci)
        { st with ctl := { st.ctl with hbaIs := hbaIs, portIs := portIs, ci := ci } }
  | interrupt {st : DiskState} : DiskStep idle st .interrupt { st with
        sched := (ahciHandler st.sched st.ctl).1
        ctl := (ahciHandler st.sched st.ctl).2 }

/-- No thread that the interrupt would wake is the current one. -/
def DiskAction.Settled (st : DiskState) : DiskAction → Prop
  | .interrupt => ∀ slot t, st.ctl.Wakes slot t → st.sched.currentThread ≠ some t
  | _ => True

def diskMachine (start : DiskState) (idle : Nat) : Machine DiskState DiskAction where
  start st := st = start
  step := DiskStep idle

/-- The ready list is a circle without repetition that holds every thread which is
ready or running. -/
def RingHolds (s : Scheduler) : Prop :=
  ∃ l, ReadyRing s l ∧ ∀ u ∈ s.live,
    (s.threads u).state = .ready ∨ (s.threads u).state = .running → u ∈ l

/-- `ahci_handler` calls `enqueue_thread` only for threads outside the ring. The
second call sees the ring that the first one left. -/
def WakesOutside (st : DiskState) : Prop :=
  ∀ t, (st.ctl.Wakes .read t → ¬ InRing st.sched t) ∧ (st.ctl.Wakes .write t →
      ¬ InRing (wakeSlot .read st.ctl.portIs st.sched st.ctl.acknowledge).1 t)

/-- What a step has to keep. -/
def DiskAction.Sound (st st' : DiskState) (act : DiskAction) : Prop :=
  (act = .interrupt → WakesOutside st) ∧ RingHolds st'.sched

/-- All threads are in the ring and outside the functions of the disk. -/
structure DiskStart (st : DiskState) (l : List Nat) (idle : Nat) : Prop where
  ring : RingStart st.sched l
  idle : idle ∈ l
  outside : ∀ t, st.pc t = .outside
  nobody : ∀ slot, st.ctl.blockedThread slot = none

/-! ## The invariant -/

/-- A recorded thread is blocked and waits in the function of its slot. The current
thread runs, or is recorded and on its way to `yield`; no other thread is running. -/
structure DiskInv (idle : Nat) (st : DiskState) (l : List Nat) : Prop where
  core : RingCore [idle] ⟨st.sched, fun _ => mutexInit, [], []⟩ l [] fun _ => []
  recorded : ∀ slot t, st.ctl.blockedThread slot = some t →
    t ∈ st.sched.live ∧ (st.sched.threads t).state = .blocked ∧
      (st.pc t = .blocked slot ∨ st.pc t = .yielded slot)
  current : ∀ c, st.sched.currentThread = some c → (st.sched.threads c).state = .running ∨
    ∃ slot, st.pc c = .blocked slot ∧ st.ctl.blockedThread slot = some c
  running : ∀ u ∈ st.sched.live, (st.sched.threads u).state = .running →
    st.sched.currentThread = some u

variable {idle : Nat} {st st' : DiskState} {act : DiskAction} {l : List Nat} {c t rsp : Nat}
  {slot slot' : Slot} {s' : Scheduler} {ctl : Controller}

section

variable (h : DiskInv idle st l)
include h

lemma DiskInv.ring : ReadyRing st.sched l := h.core.ring

lemma DiskInv.holds : RingHolds st.sched := by
  refine ⟨l, h.ring, fun u hu hs => (h.core.inRing u).mpr ?_⟩
  rcases hs with hs | hs
  · exact .inr ⟨hu, hs⟩
  · exact .inl (h.running u hu hs)

/-- A recorded thread that was switched out is not in the ring. -/
lemma DiskInv.outside (ht : st.ctl.blockedThread slot = some t)
    (hc : st.sched.currentThread ≠ some t) : t ∉ l := by
  intro htl
  rcases (h.core.inRing t).mp htl with hcur | ⟨-, hready⟩
  · exact hc hcur
  · have hblocked : (st.sched.threads t).state = .blocked := (h.recorded slot t ht).2.1
    rw [show (st.sched.threads t).state = .ready from hready] at hblocked
    cases hblocked

lemma DiskInv.registers {ctl : Controller} (hb : ctl.blockedThread = st.ctl.blockedThread) :
    DiskInv idle { st with ctl := ctl } l := by
  refine ⟨h.core, ?_, ?_, h.running⟩
  · intro slot t ht
    exact h.recorded slot t (hb ▸ ht)
  · intro c hc
    rw [hb]
    exact h.current c hc

/-! ## Steps keep the invariant -/

lemma DiskInv.block (hc : st.sched.currentThread = some c) (hpc : st.pc c = .outside)
    (hidle : c ≠ idle) (he : Ahci.block slot st.sched st.ctl = some (s', ctl)) :
    DiskInv idle ⟨s', ctl, update st.pc c (.blocked slot)⟩ l := by
  have hrun : (st.sched.threads c).state = .running := by
    refine (h.current c hc).resolve_right ?_
    rintro ⟨slot', hpc', -⟩
    rw [hpc] at hpc'
    cases hpc'
  have hcl : c ∈ st.sched.live := h.core.mem_live (h.core.current_mem hc)
  rw [Ahci.block, hc] at he
  cases he
  refine ⟨h.core.mark_state hc hrun (by simpa using hidle) .blocked (by decide), ?_, ?_, ?_⟩
  · intro slot' t ht
    by_cases hs : slot' = slot
    · subst hs
      obtain rfl : c = t := by simpa using ht
      exact ⟨hcl, by simp, by simp⟩
    · have ht : st.ctl.blockedThread slot' = some t := by simpa [hs] using ht
      obtain ⟨htl, htb, htp⟩ := h.recorded slot' t ht
      have htc : t ≠ c := by
        rintro rfl
        rw [hrun] at htb
        cases htb
      exact ⟨htl, by simpa [htc] using htb, by simpa [htc] using htp⟩
  · intro c' hc'
    obtain rfl : c = c' := some.inj (hc.symm.trans hc')
    exact .inr ⟨slot, by simp, by simp⟩
  · intro u hu hs
    have huc : u ≠ c := by
      rintro rfl
      simp at hs
    exact h.running u hu (by simpa [huc] using hs)

/-- The handler returns, and the thread that runs then is running. -/
lemma DiskInv.handler (rsp : Nat) : ∃ s' r l', schedulerHandler st.sched rsp = some (s', r) ∧
      DiskInv idle { st with sched := s' } l' ∧
      ∀ c, s'.currentThread = some c → (s'.threads c).state = .running := by
  obtain ⟨c, hc, -, -⟩ := h.core.current
  have hnd : (st.sched.threads c).state ≠ .dead := by
    rcases h.current c hc with hs | ⟨slot, -, hb⟩
    · rw [hs]
      decide
    · rw [(h.recorded slot c hb).2.1]
      decide
  have hone : Stopped st.sched c → l ≠ [c] := by
    rintro hs rfl
    obtain ⟨hmem, hns⟩ := h.core.keep idle (by simp)
    exact hns (List.mem_singleton.mp hmem ▸ hs)
  obtain ⟨s', r, l', n, he, hcore, hn, -⟩ := h.core.handler hc hnd hone rsp
  have hcur : ∀ c, s'.currentThread = some c → (s'.threads c).state = .running := by
    intro c' hc'
    exact some.inj (hn.current.symm.trans hc') ▸ hn.running
  refine ⟨s', r, l', he, ⟨hcore, ?_, fun c' hc' => .inl (hcur c' hc'), ?_⟩, hcur⟩
  · intro slot t ht
    obtain ⟨htl, htb, htp⟩ := h.recorded slot t ht
    exact ⟨hn.live.symm ▸ htl, hn.blocked t htb, htp⟩
  · intro u hu hs
    by_cases hun : u = n
    · exact hun ▸ hn.current
    · obtain ⟨huc, hrun⟩ := hn.others u hun hs
      have hu : u ∈ st.sched.live := hn.live ▸ hu
      exact absurd (some.inj ((h.running u hu hrun).symm.trans hc)) huc

lemma DiskInv.yield (hpc : st.pc t = .blocked slot)
    (hrun : ∀ c, st.sched.currentThread = some c → (st.sched.threads c).state = .running) :
    DiskInv idle { st with pc := update st.pc t (.yielded slot) } l := by
  refine ⟨h.core, ?_, fun c hc => .inl (hrun c hc), h.running⟩
  intro slot' u hu
  obtain ⟨hul, hub, hup⟩ := h.recorded slot' u hu
  refine ⟨hul, hub, ?_⟩
  by_cases hut : u = t
  · subst hut
    rw [hpc] at hup
    obtain rfl : slot = slot' := by simpa using hup
    simp
  · simpa [hut] using hup

lemma DiskInv.finish (hc : st.sched.currentThread = some c) (hpc : st.pc c = .yielded slot) :
    DiskInv idle { st with pc := update st.pc c .outside } l := by
  have hrun : (st.sched.threads c).state = .running := by
    refine (h.current c hc).resolve_right ?_
    rintro ⟨slot', hpc', -⟩
    rw [hpc] at hpc'
    cases hpc'
  refine ⟨h.core, ?_, ?_, h.running⟩
  · intro slot' t ht
    obtain ⟨htl, htb, htp⟩ := h.recorded slot' t ht
    have htc : t ≠ c := by
      rintro rfl
      rw [hrun] at htb
      cases htb
    exact ⟨htl, htb, by simpa [htc] using htp⟩
  · intro c' hc'
    obtain rfl : c = c' := some.inj (hc.symm.trans hc')
    exact .inl hrun

/-! ## The disk interrupt -/

/-- A recorded thread outside the ring becomes ready and enters it. -/
lemma DiskInv.wake (hb : st.ctl.blockedThread slot = some t) (htl : t ∉ l)
    (hctl : ctl.blockedThread = update st.ctl.blockedThread slot none) : DiskInv idle { st with
      sched := enqueueThread (st.sched.modify t (Thread.setState .ready)) t
      ctl := ctl } (l ++ [t]) := by
  obtain ⟨htlive, htb, htp⟩ := h.recorded slot t hb
  have hw := h.ring.enter htl (a := st.sched.modify t (Thread.setState .ready))
    (fun u hu => by simp [hu]) (by simp) rfl
  obtain ⟨hlive, hcur, hdead⟩ := globals_eq (enqueueThread_globals
    (s := st.sched.modify t (Thread.setState .ready)) (t := t))
  have hlive : (enqueueThread (st.sched.modify t (Thread.setState .ready)) t).live =
    st.sched.live := hlive
  have hcur : (enqueueThread (st.sched.modify t (Thread.setState .ready)) t).currentThread =
    st.sched.currentThread := hcur
  refine ⟨h.core.enter hw htl List.not_mem_nil ?_ ?_ hcur hdead
    (fun m => waitQueue_init _) (by simp), ?_, ?_, ?_⟩
  · rw [hlive]
    exact h.core.liveNodup
  · intro u
    rw [hlive]
    exact ⟨Or.inr, fun hu => hu.elim (fun he => he ▸ htlive) id⟩
  · intro slot' u hu
    rw [hctl] at hu
    by_cases hs : slot' = slot
    · simp [hs] at hu
    · rw [update_of_ne hs] at hu
      obtain ⟨hul, hub, hup⟩ := h.recorded slot' u hu
      have hut : u ≠ t := by
        rintro rfl
        rcases htp with he | he <;> rw [he] at hup <;> simp [Ne.symm hs] at hup
      refine ⟨hlive.symm ▸ hul, ?_, hup⟩
      rw [hw.state, if_neg hut]
      exact hub
  · intro c hc
    have hc : st.sched.currentThread = some c := hcur ▸ hc
    have hct : c ≠ t := fun he => htl (he ▸ h.core.current_mem hc)
    rw [hw.state, if_neg hct, hctl]
    refine (h.current c hc).imp_right ?_
    rintro ⟨slot', hpc, hb'⟩
    have hs : slot' ≠ slot := by
      rintro rfl
      exact hct (some.inj (hb'.symm.trans hb))
    exact ⟨slot', hpc, by rwa [update_of_ne hs]⟩
  · intro u hu hs
    rw [hlive] at hu
    rw [hcur]
    rw [hw.state] at hs
    split_ifs at hs
    exact h.running u hu hs

lemma DiskInv.wakeSlot (slot : Slot) (portIs : BitVec 32)
    (hsettled : ∀ t, Finished st.ctl portIs slot → st.ctl.blockedThread slot = some t → t ∉ l) :
    ∃ l', DiskInv idle { st with
      sched := (wakeSlot slot portIs st.sched st.ctl).1
      ctl := (wakeSlot slot portIs st.sched st.ctl).2 } l' := by
  by_cases hw : Finished st.ctl portIs slot ∧ ∃ t, st.ctl.blockedThread slot = some t
  · obtain ⟨hf, t, hb⟩ := hw
    obtain ⟨hs, hctl⟩ := wakeSlot_some (s := st.sched) hf hb
    rw [hs]
    exact ⟨l ++ [t], h.wake hb (hsettled t hf hb) hctl⟩
  · obtain ⟨hs, hctl⟩ := wakeSlot_none (s := st.sched) hw
    rw [hs]
    exact ⟨l, h.registers hctl⟩

end

/-- The state between the two branches of `ahci_handler`. -/
def DiskState.readWoken (st : DiskState) : DiskState :=
  { st with
    sched := (Ahci.wakeSlot .read st.ctl.portIs st.sched st.ctl.acknowledge).1
    ctl := (Ahci.wakeSlot .read st.ctl.portIs st.sched st.ctl.acknowledge).2 }

lemma readWoken_frame (st : DiskState) :
    st.readWoken.sched.currentThread = st.sched.currentThread ∧ st.readWoken.ctl.ci = st.ctl.ci ∧
      st.readWoken.ctl.blockedThread .write = st.ctl.blockedThread .write := by
  obtain ⟨hg, hci, hb⟩ := wakeSlot_frame .read st.ctl.portIs st.sched st.ctl.acknowledge
  exact ⟨(globals_eq hg).2.1, hci, hb .write (by decide)⟩

/-- When no thread to be woken is the current one, each enters the ring from outside. -/
lemma DiskInv.interrupt (h : DiskInv idle st l) (hok : DiskAction.interrupt.Settled st) :
    WakesOutside st ∧ ∃ l', DiskInv idle { st with
      sched := (ahciHandler st.sched st.ctl).1
      ctl := (ahciHandler st.sched st.ctl).2 } l' := by
  obtain ⟨hcur, hci, hwrite⟩ := readWoken_frame st
  by_cases hbit : st.ctl.hbaIs.getLsbD 0 = true
  · have hread : ∀ t, Finished st.ctl st.ctl.portIs .read →
        st.ctl.blockedThread .read = some t → t ∉ l := fun t hf hb =>
      h.outside hb (hok .read t ⟨hbit, hf, hb⟩)
    obtain ⟨l1, h1⟩ : ∃ l1, DiskInv idle st.readWoken l1 :=
      (h.registers (show st.ctl.acknowledge.blockedThread = _ from rfl)).wakeSlot .read
        st.ctl.portIs hread
    have hlast : ∀ t, Finished st.ctl st.ctl.portIs .write →
        st.ctl.blockedThread .write = some t → t ∉ l1 := fun t hf hb =>
      h1.outside (hwrite.trans hb) (hcur ▸ hok .write t ⟨hbit, hf, hb⟩)
    refine ⟨fun t => ⟨?_, ?_⟩, ?_⟩
    · rintro ⟨-, hf, hb⟩
      exact fun hr => hread t hf hb (h.ring.inRing_iff.mp hr)
    · rintro ⟨-, hf, hb⟩
      exact fun hr => hlast t hf hb (h1.ring.inRing_iff.mp hr)
    · obtain ⟨l2, h2⟩ := h1.wakeSlot .write st.ctl.portIs fun t hf hb => by
        rw [Finished, hci] at hf
        exact hlast t hf (hwrite ▸ hb)
      refine ⟨l2, ?_⟩
      simp only [ahciHandler, hbit, if_true]
      exact h2.registers rfl
  · refine ⟨fun t => ⟨fun hw => absurd hw.1 hbit, fun hw => absurd hw.1 hbit⟩, l, ?_⟩
    simp only [ahciHandler, hbit]
    exact h.registers rfl

lemma DiskInv.settled (h : DiskInv idle st l) (hout : WakesOutside st) :
    DiskAction.interrupt.Settled st := by
  rintro slot t hw hc
  have htl : t ∈ l := h.core.current_mem hc
  cases slot with
  | read => exact (hout t).1 hw (h.ring.inRing_iff.mpr htl)
  | write =>
    refine (hout t).2 hw ?_
    by_cases hr : Finished st.ctl st.ctl.portIs .read ∧ ∃ u, st.ctl.blockedThread .read = some u
    · obtain ⟨hf, u, hb⟩ := hr
      have hul : u ∉ l := fun hm => (hout u).1 ⟨hw.1, hf, hb⟩ (h.ring.inRing_iff.mpr hm)
      rw [(wakeSlot_some (a := st.ctl.acknowledge) hf hb).1]
      have hwoken := h.ring.enter hul (a := st.sched.modify u (Thread.setState .ready))
        (fun v hv => by simp [hv]) (by simp) rfl
      exact hwoken.ring.inRing_iff.mpr (List.mem_append_left _ htl)
    · rw [(wakeSlot_none (a := st.ctl.acknowledge) hr).1]
      exact h.ring.inRing_iff.mpr htl

/-! ## Whole runs -/

lemma DiskInv.step (h : DiskInv idle st l) (hstep : DiskStep idle st act st')
    (hok : act.Settled st) : ∃ l', DiskInv idle st' l' := by
  cases hstep with
  | block hc hpc hidle _ he => exact ⟨l, h.block hc hpc hidle he⟩
  | yield hc hpc he =>
    obtain ⟨s1, r1, l', he1, h', hrun⟩ := h.handler _
    obtain ⟨rfl, -⟩ := Prod.mk.inj (some.inj (he1.symm.trans he))
    exact ⟨l', h'.yield hpc hrun⟩
  | tick he =>
    obtain ⟨s1, r1, l', he1, h', -⟩ := h.handler _
    obtain ⟨rfl, -⟩ := Prod.mk.inj (some.inj (he1.symm.trans he))
    exact ⟨l', h'⟩
  | finish hc hpc => exact ⟨l, h.finish hc hpc⟩
  | device _ => exact ⟨l, h.registers rfl⟩
  | interrupt => exact (h.interrupt hok).2

lemma DiskStart.inv (h : DiskStart st l idle) : DiskInv idle st l := by
  refine ⟨h.ring.core (by simpa using h.idle) fun _ => waitQueue_init st.sched, ?_,
    fun c hc => .inl (h.ring.running hc), ?_⟩
  · intro slot t ht
    rw [h.nobody slot] at ht
    cases ht
  · intro u hu hrun
    by_contra hne
    have hready := h.ring.ready u (h.ring.live.mem_iff.mp hu) hne
    rw [hrun] at hready
    cases hready

/-- In every run in which no disk interrupt wakes the current thread, the ring holds
all threads that can run and the scheduler returns. A further step keeps the ring
exactly when it is not such an interrupt. -/
theorem disk_wakeup_sound_iff {start : DiskState} (hstart : DiskStart start l idle)
    (run : (diskMachine start idle).Reached (fun st act => act.Settled st) st) :
    RingHolds st.sched ∧ (∀ rsp, ∃ s' r, schedulerHandler st.sched rsp = some (s', r)) ∧
      ∀ act st', DiskStep idle st act st' → (act.Sound st st' ↔ act.Settled st) := by
  have hinv : ∀ st, st = start → ∃ l, DiskInv idle st l := by
    rintro _ rfl
    exact ⟨l, hstart.inv⟩
  obtain ⟨l', h⟩ := run.invariant hinv fun _ _ _ ⟨_, h⟩ hok hstep => h.step hstep hok
  refine ⟨h.holds, fun rsp => ?_, fun act st' hstep => ⟨fun hsound => ?_, fun hok => ⟨?_, ?_⟩⟩⟩
  · obtain ⟨s', r, -, he, -⟩ := h.handler rsp
    exact ⟨s', r, he⟩
  · cases act with
    | interrupt => exact h.settled (hsound.1 rfl)
    | _ => trivial
  · rintro rfl
    exact (h.interrupt hok).1
  · obtain ⟨l'', h'⟩ := h.step hstep hok
    exact h'.holds

/-- The three threads of `init_scheduler` with an idle disk. -/
def idleDisk : DiskState :=
  ⟨initScheduler (blankScheduler zeroThread) 5 1 2 3 6 7, ⟨fun _ => none, fun _ => 0, 0, 0, 0⟩,
    fun _ => .outside⟩

/-- The main thread reads, is switched out, and then woken by the interrupt. -/
theorem disk_wakeup_sound_read :
    ∃ st : DiskState, RingHolds st.sched ∧ st.pc 1 = .yielded .read ∧
      (st.sched.threads 1).state = .ready := by
  have hboot : Boot (blankScheduler zeroThread) (fun _ => mutexInit) 1 2 3 :=
    ⟨rfl, rfl, rfl, by decide, fun _ => ⟨rfl, rfl⟩⟩
  have hstart : DiskStart idleDisk [1, 2, 3] 3 :=
    ⟨hboot.ringStart 5 6 7, by decide, fun _ => rfl, fun _ => rfl⟩
  refine ⟨_, (disk_wakeup_sound_iff hstart (.step (a := .interrupt) (.step (a := .device 1 1 0)
    (.step (a := .yield 0) (.step (a := .block .read) (.start rfl) trivial
    (.block (c := 1) rfl rfl (by decide) (fun _ => ⟨nofun, nofun⟩) rfl)) trivial
    (.yield (c := 1) rfl rfl (show schedulerHandler _ 0 = _ from rfl))) trivial (.device rfl)) ?_
    .interrupt)).1, rfl, rfl⟩
  rintro (_ | _) t ⟨-, -, hb⟩ hc
  · cases hb
    cases hc
  · cases hb

/-- The command completes before the main thread reaches `yield`, and the interrupt
loses the other two threads. -/
theorem disk_wakeup_loses_threads :
    ∃ st, (diskMachine idleDisk 3).Reached (fun _ _ => True) st ∧ ¬ RingHolds st.sched := by
  refine ⟨_, .step (a := .interrupt) (.step (a := .device 1 1 0) (.step (a := .block .read)
    (.start rfl) trivial (.block (c := 1) rfl rfl (by decide) (fun _ => ⟨nofun, nofun⟩) rfl))
    trivial (.device rfl)) trivial .interrupt, ?_⟩
  rintro ⟨l, hring, hmem⟩
  have h2 : 2 ∈ l := hmem 2 (by decide) (.inl rfl)
  have h1 : 1 ∈ l := hmem 1 (by decide) (.inl rfl)
  obtain ⟨b, -, hb, hone⟩ := hring.ring.next_mem h1
  obtain rfl : 1 = b := some.inj hb
  rw [hone.mp rfl] at h2
  simp at h2

end DestinX.Ahci
