import Mathlib.Logic.Function.Basic

/-!
# Threads and the scheduler

The functions of `kernel/scheduler/thread.c` and `kernel/scheduler/scheduler.c` that link
threads into the ready ring and the dead list and switch between them. Threads and processes are
records in a store indexed by their addresses; `none` is `NULL`.

`live` lists the `thread_t` objects that are allocated. It bounds the loops of the source: one
that visits more threads than there are never returns. Stacks, area lists and page tables that
`destroy_thread` releases are not part of this model.
-/

namespace DestinX.Sched

open Function

inductive ThreadState where
  | ready
  | running
  | blocked
  | dead
  deriving DecidableEq, Repr

/-- The fields of `thread_t` that scheduling reads or writes. -/
structure Thread where
  rsp : Nat
  state : ThreadState
  kernelStackBottom : Option Nat
  kernelStackTop : Nat
  (userStackBottom process prev next nextBlocked nextPthread prevPthread : Option Nat)
  deriving DecidableEq, Repr

/-- The fields of `process_t` that a context switch reads or writes. -/
structure Process where
  cr3 : Nat
  (threads ustacksInfos mmapInfos : Option Nat)
  deriving DecidableEq, Repr

structure Scheduler where
  threads : Nat → Thread
  processes : Nat → Process
  live : List Nat
  (readyListHead currentThread deadListHead usListHead mmapListHead : Option Nat)
  cr3 : Nat
  /-- `tss.rsp0` and `sstacks.kernel_rsp`. -/
  kernelRsp : Nat

/-- `memset(t, 0, sizeof(thread_t))`: `READY` is zero. -/
def zeroThread : Thread where
  rsp := 0
  state := .ready
  kernelStackBottom := none
  kernelStackTop := 0
  userStackBottom := none
  process := none
  prev := none
  next := none
  nextBlocked := none
  nextPthread := none
  prevPthread := none

def Thread.setNext (p : Option Nat) (x : Thread) : Thread := { x with next := p }

def Thread.setPrev (p : Option Nat) (x : Thread) : Thread := { x with prev := p }

def Thread.setState (state : ThreadState) (x : Thread) : Thread := { x with state := state }

def Thread.setRsp (rsp : Nat) (x : Thread) : Thread := { x with rsp := rsp }

def Scheduler.modify (s : Scheduler) (t : Nat) (f : Thread → Thread) : Scheduler :=
  { s with threads := update s.threads t (f (s.threads t)) }

/-- A write through a pointer. -/
def Scheduler.modifyAt (s : Scheduler) : Option Nat → (Thread → Thread) → Scheduler
  | none, _ => s
  | some t, f => s.modify t f

/-! ## The ready ring -/

def enqueueThread (s : Scheduler) (t : Nat) : Scheduler :=
  match s.readyListHead with
  | none =>
    { s.modify t fun x => (x.setNext (some t)).setPrev (some t) with readyListHead := some t }
  | some head =>
    let tail := (s.threads head).prev
    let s₁ := s.modifyAt tail (Thread.setNext (some t))
    let s₂ := s₁.modify t fun x => (x.setPrev tail).setNext (some head)
    s₂.modify head (Thread.setPrev (some t))

def dequeueThread (s : Scheduler) (t : Nat) : Scheduler :=
  let s₁ :=
    if (s.threads t).next = some t then { s with readyListHead := none }
    else
      let a := s.modifyAt (s.threads t).prev (Thread.setNext (s.threads t).next)
      let b := a.modifyAt (a.threads t).next (Thread.setPrev (a.threads t).prev)
      if b.readyListHead = some t then { b with readyListHead := (b.threads t).next } else b
  s₁.modify t fun x => (x.setPrev none).setNext none

/-! ## Creation and destruction -/

/-- `create_thread`, with the memory `t` for the thread and `stack` for its stack of
`size` bytes already allocated. The initial frame on the stack is 21 words. -/
def createThread (s : Scheduler) (t stack size : Nat) : Scheduler :=
  let thread := { zeroThread with
    kernelStackBottom := some stack
    kernelStackTop := stack + size
    rsp := (stack + size) / 16 * 16 - 8 * 21 }
  enqueueThread { s.modify t fun _ => thread with live := t :: s.live } t

/-- `destroy_thread`, as far as threads are concerned: the stacks are left out, also the `kfree` of
the kernel stack, which is an area of `vmalloc`. The comparison `t->process->threads == t->next` of
the source has no effect. -/
def destroyThread (s : Scheduler) (t : Nat) : Scheduler :=
  let x := s.threads t
  let s₁ :=
    if x.userStackBottom ≠ none ∧ x.process ≠ none then
      let a := s.modifyAt x.nextPthread (Thread.setPrev x.prev)
      a.modifyAt (a.threads t).prevPthread (Thread.setNext (a.threads t).next)
    else s
  { s₁ with live := s₁.live.erase t }

/-- The loop of `cleanup_dead_threads`, with the threads it destroys. -/
def destroyAll : Nat → Scheduler → Option Nat → Option (Scheduler × List Nat)
  | _, s, none => some (s, [])
  | 0, _, some _ => none
  | fuel + 1, s, some t =>
    let nextDead := (s.threads t).next
    (destroyAll fuel (destroyThread s t) nextDead).map fun r => (r.1, t :: r.2)

def cleanupDeadThreads (s : Scheduler) : Option (Scheduler × List Nat) :=
  destroyAll s.live.length { s with deadListHead := none } s.deadListHead

/-! ## The scheduler -/

/-- What happens to the thread that stops running. -/
def suspend (s : Scheduler) (old oldRsp : Nat) : Scheduler :=
  if (s.threads old).state = .dead then
    let a := dequeueThread s old
    { a.modify old (Thread.setNext a.deadListHead) with deadListHead := some old }
  else if (s.threads old).state = .blocked then
    dequeueThread (s.modify old (Thread.setRsp oldRsp)) old
  else s.modify old fun x => (x.setRsp oldRsp).setState .ready

/-- The loop that looks for a thread to run: `some none` when it comes back to
where it started, no result when it does not end. -/
def search (s : Scheduler) (start : Nat) : Nat → Nat → Option (Option Nat)
  | 0, _ => none
  | fuel + 1, t =>
    if (s.threads t).state = .ready ∨ (s.threads t).state = .running then some (some t)
    else
      match (s.threads t).next with
      | none => none
      | some u => if u = start then some none else search s start fuel u

/-- The area lists and the page tables follow the process of the thread. -/
def switchProcess (s : Scheduler) (old next : Nat) : Scheduler :=
  if (s.threads old).process = (s.threads next).process then s
  else
    let s₁ :=
      match (s.threads old).process with
      | none => s
      | some p =>
        { s with processes := update s.processes p { s.processes p with
            ustacksInfos := s.usListHead, mmapInfos := s.mmapListHead } }
    match (s.threads next).process with
    | none => { s₁ with usListHead := none, mmapListHead := none }
    | some q =>
      { s₁ with
        usListHead := (s₁.processes q).ustacksInfos
        mmapListHead := (s₁.processes q).mmapInfos
        cr3 := (s₁.processes q).cr3 }

def switchTo (s : Scheduler) (old next : Nat) : Scheduler × Nat :=
  let a := { s.modify next (Thread.setState .running) with currentThread := some next }
  let b := switchProcess a old next
  ({ b with kernelRsp := (b.threads next).kernelStackTop }, (b.threads next).rsp)

/-- `scheduler_handler`: the state afterwards and the stack pointer to return to, or
no result when the call does not return. -/
def schedulerHandler (s : Scheduler) (oldRsp : Nat) : Option (Scheduler × Nat) :=
  match s.readyListHead with
  | none => some (s, oldRsp)
  | some head =>
    if (s.threads head).next = some head then some (s, oldRsp)
    else
      match s.currentThread with
      | none => none
      | some old =>
        let stopped := (s.threads old).state = .dead ∨ (s.threads old).state = .blocked
        let s₁ := suspend s old oldRsp
        match if stopped then s₁.readyListHead else (s.threads old).next with
        | none => some (s₁, oldRsp)
        | some start =>
          match search s₁ start (s.live.length + 1) start with
          | none => none
          | some (some next) => some (switchTo s₁ old next)
          | some none =>
            if stopped then none
            else some (s₁.modify old (Thread.setState .running), oldRsp)

/-- `thread_exit`: interrupts are off from the mark to the switch. -/
def threadExit (s : Scheduler) (rsp : Nat) : Option (Scheduler × Nat) :=
  match s.currentThread with
  | none => none
  | some t => schedulerHandler (s.modify t (Thread.setState .dead)) rsp

/-- The first half of `init_scheduler`: the kernel process and the main thread. Only
the fields named here are set; the memory of the main thread is not cleared. -/
def initMain (s : Scheduler) (kp main : Nat) : Scheduler :=
  let a := { s with processes := update s.processes kp ⟨s.cr3, none, none, none⟩ }
  let b := { a.modify main fun x => { x with
      state := .running, rsp := 0, kernelStackBottom := none, process := some kp }
    with live := main :: s.live }
  { enqueueThread b main with currentThread := some main }

def Thread.setNextPthread (p : Option Nat) (x : Thread) : Thread := { x with nextPthread := p }

/-- `init_scheduler`, with the memory of the process and of the three threads already
allocated. -/
def initScheduler (s : Scheduler) (kp main kr cln krStack clnStack : Nat) : Scheduler :=
  let a := createThread (createThread (initMain s kp main) kr krStack 4096) cln clnStack 4096
  let b := a.modify main (Thread.setNextPthread (some kr))
  let c := b.modify kr (Thread.setNextPthread (some cln))
  { c with processes := update c.processes kp { c.processes kp with threads := some main } }

/-- A scheduler before `init_scheduler`, over memory in which every record is `x`. -/
def blankScheduler (x : Thread) : Scheduler where
  threads := fun _ => x
  processes := fun _ => ⟨0, none, none, none⟩
  live := []
  readyListHead := none
  currentThread := none
  deadListHead := none
  usListHead := none
  mmapListHead := none
  cr3 := 0
  kernelRsp := 0

end DestinX.Sched
