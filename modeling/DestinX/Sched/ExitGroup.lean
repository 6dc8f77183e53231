import DestinX.Sched.ReadyRing

/-!
# `SYS_EXIT_GROUP`

The loop over the threads of the process marks each of them, pushes it onto the dead list and
takes it out of the ring. For the calling thread it skips the rest of the body with `continue`,
and with it the step to the next thread. So the loop does not end.
-/

namespace DestinX.Sched

open Base

def Scheduler.nextPthread (s : Scheduler) (t : Nat) : Option Nat := (s.threads t).nextPthread

/-- The first three statements of the loop body. -/
def bury (s : Scheduler) (t : Nat) : Scheduler :=
  let a := s.modify t (Thread.setState .dead)
  { a.modify t (Thread.setNext a.deadListHead) with deadListHead := some t }

/-- The loop, from thread `t` on. The first argument bounds the number of rounds. -/
def exitGroupLoop : Nat → Scheduler → Option Nat → Option Scheduler
  | _, s, none => some s
  | 0, _, some _ => none
  | fuel + 1, s, some t =>
    let a := bury s t
    if a.currentThread = some t then exitGroupLoop fuel a (some t)
    else
      let b := dequeueThread a t
      exitGroupLoop fuel b (b.nextPthread t)

/-- The system call of thread `c`, with the switch that follows. -/
def sysExitGroup (fuel : Nat) (s : Scheduler) (c rsp : Nat) : Option (Scheduler × Nat) :=
  (s.threads c).process.bind fun p =>
    (exitGroupLoop fuel s (s.processes p).threads).bind fun s' => schedulerHandler s' rsp

/-- The situation of the call: `l` are the threads of the process of `c`, and the ring
is `ring`. -/
structure Group (s : Scheduler) (c : Nat) (l ring : List Nat) : Prop where
  process : ∃ p, (s.threads c).process = some p ∧ Chain s.nextPthread (s.processes p).threads l
  caller : c ∈ l ∧ c ∈ ring ∧ s.currentThread = some c ∧ (s.threads c).state = .running
  others : ∀ t ∈ l, t ≠ c →
    (s.threads t).state = .ready ∧ t ∈ ring ∨ (s.threads t).state = .blocked ∧ t ∉ ring
  ring : ReadyRing s ring

/-- The call returns, and then the process is gone: its threads are dead, on the dead list
once, and the ring is made of the other threads that were in it. -/
def EndsGroup (s : Scheduler) (c rsp : Nat) (l ring : List Nat) : Prop :=
  ∃ fuel s' r, sysExitGroup fuel s c rsp = some (s', r) ∧ (∀ t ∈ l, (s'.threads t).state = .dead) ∧
    (∃ dead, Chain s'.next s'.deadListHead dead ∧ ∀ t ∈ l, dead.count t = 1) ∧
    ∃ ring', ReadyRing s' ring' ∧ ∀ t, t ∈ ring' ↔ t ∈ ring ∧ t ∉ l

variable {s : Scheduler} {h : Option Nat} {l ring : List Nat} {fuel t c rsp : Nat}

lemma bury_current (s : Scheduler) (t : Nat) : (bury s t).currentThread = s.currentThread := rfl

lemma bury_nextPthread (s : Scheduler) (t u : Nat) :
    (bury s t).nextPthread u = s.nextPthread u := by
  simp only [bury, Scheduler.nextPthread, modify_threads]
  by_cases hu : u = t
  · subst hu
    rw [if_pos rfl]
    rfl
  · rw [if_neg hu, if_neg hu]

lemma dequeue_nextPthread (s : Scheduler) (t u : Nat) :
    (dequeueThread s t).nextPthread u = s.nextPthread u :=
  (fields_of_body (body_of_unlinked dequeueThread_unlinked)).2.2.2

/-- Once the caller is among the threads that are left, the loop does not end. The links
of the process are not changed on the way. -/
lemma exitGroupLoop_none (hc : Chain s.nextPthread h l) (hcur : s.currentThread = some c)
    (hmem : c ∈ l) : exitGroupLoop fuel s h = none := by
  induction fuel generalizing s h l with
  | zero =>
    cases l with
    | nil => cases hmem
    | cons t l =>
      rw [hc.1]
      rfl
  | succ fuel ih =>
    cases l with
    | nil => cases hmem
    | cons t l =>
      obtain ⟨rfl, hc⟩ := hc
      rw [exitGroupLoop]
      dsimp only
      have hbury : Chain (bury s t).nextPthread (s.nextPthread t) l :=
        hc.congr fun u _ => bury_nextPthread s t u
      by_cases htc : t = c
      · subst htc
        rw [if_pos (show (bury s t).currentThread = some t from hcur)]
        exact ih (l := t :: l) ⟨rfl, (bury_nextPthread s t t).symm ▸ hbury⟩ hcur List.mem_cons_self
      · have hne : (bury s t).currentThread ≠ some t := by
          rw [bury_current, hcur]
          exact fun heq => htc (Option.some.inj heq).symm
        rw [if_neg hne, dequeue_nextPthread, bury_nextPthread]
        refine ih (hbury.congr fun u _ => dequeue_nextPthread _ t u) ?_
          ((List.mem_cons.mp hmem).resolve_left (Ne.symm htc))
        exact (globals_eq dequeueThread_globals).2.1.trans hcur

/-- For no process does the call return. -/
theorem exit_group_never_ends (hgroup : Group s c l ring) :
    (∀ fuel, sysExitGroup fuel s c rsp = none) ∧ ¬ EndsGroup s c rsp l ring := by
  obtain ⟨p, hp, hchain⟩ := hgroup.process
  have hnone : ∀ fuel, sysExitGroup fuel s c rsp = none := by
    intro fuel
    rw [sysExitGroup, hp, Option.bind_some,
      exitGroupLoop_none hchain hgroup.caller.2.2.1 hgroup.caller.1]
    rfl
  refine ⟨hnone, ?_⟩
  rintro ⟨fuel, s', r, hcall, -⟩
  rw [hnone fuel] at hcall
  cases hcall

/-! ## One thread -/

/-- A process with one thread, which runs, and a kernel thread in the ring. -/
def singleThread : Scheduler where
  threads := fun t => { zeroThread with
    state := if t = 0 then .running else .ready
    process := if t = 0 then some 0 else none
    userStackBottom := some 0x7FFFFFFFE000
    prev := if t = 0 then some 1 else some 0
    next := if t = 0 then some 1 else some 0 }
  processes := fun _ => ⟨0, some 0, none, none⟩
  live := [0, 1]
  readyListHead := some 0
  currentThread := some 0
  deadListHead := none
  usListHead := none
  mmapListHead := none
  cr3 := 0
  kernelRsp := 0

lemma singleThread_group : Group singleThread 0 [0] [0, 1] where
  process := ⟨0, rfl, rfl, rfl⟩
  caller := ⟨by decide, by decide, rfl, rfl⟩
  others := by simp
  ring := ⟨rfl, ring_cons.mpr ⟨by simp [Linked, Scheduler.next, Scheduler.prev, singleThread],
    by decide⟩⟩

theorem exit_group_never_ends_single :
    Group singleThread 0 [0] [0, 1] ∧ (∀ fuel, sysExitGroup fuel singleThread 0 0 = none) ∧
      ¬ EndsGroup singleThread 0 0 [0] [0, 1] :=
  ⟨singleThread_group, exit_group_never_ends singleThread_group⟩

/-- Also for a process with one thread the loop comes back to the caller in each round. -/
theorem exit_group_single_loops :
    Group singleThread 0 [0] [0, 1] ∧ ¬ EndsGroup singleThread 0 0 [0] [0, 1] ∧
      ∀ fuel, exitGroupLoop (fuel + 1) singleThread (some 0) =
        exitGroupLoop fuel (bury singleThread 0) (some 0) := by
  have hnone : ∀ fuel, sysExitGroup fuel singleThread 0 0 = none := by
    intro fuel
    have hloop : exitGroupLoop fuel singleThread (some 0) = none :=
      exitGroupLoop_none (l := [0]) ⟨rfl, rfl⟩ rfl List.mem_cons_self
    change (exitGroupLoop fuel singleThread (some 0)).bind _ = none
    rw [hloop]
    rfl
  refine ⟨singleThread_group, ?_, fun fuel => rfl⟩
  rintro ⟨fuel, s', r, hcall, -⟩
  rw [hnone fuel] at hcall
  cases hcall

end DestinX.Sched
