import DestinX.Sched.ExitGroup
import DestinX.Base.Runs

/-!
# The threads of a process and the ready ring

A thread is on the ready ring (`next`, `prev`) and on the list of its process
(`next_pthread`, `prev_pthread`). `create_user_thread` sets `prev` where it means
`prev_pthread`, and leaves a thread on the list that it frees because there is no user
stack for it; `destroy_thread` sets `prev` and `next` of the neighbours in the process and
leaves `process->threads` as it is.
-/

namespace DestinX.Sched

open Base Function List

def Scheduler.prevPthread (s : Scheduler) (t : Nat) : Option Nat := (s.threads t).prevPthread

/-- The new thread becomes the first one of its process. The old first one gets it as its
`prev`. -/
def linkProcess (s : Scheduler) (p t : Nat) : Scheduler :=
  let head := (s.processes p).threads
  let a := { s.modify t fun _ => { zeroThread with process := some p, nextPthread := head } with
    live := t :: s.live }
  let b := a.modifyAt head (Thread.setPrev (some t))
  { b with processes := update b.processes p { b.processes p with threads := some t } }

def Thread.setUp (kstack ksize top usize : Nat) (x : Thread) : Thread :=
  { x with
    kernelStackBottom := some kstack
    kernelStackTop := kstack + ksize
    userStackBottom := some (top - usize)
    rsp := top / 16 * 16 - 8 * 21
    state := .ready
    next := none
    prev := none }

/-- `create_user_thread` for process `p`. `block` is the memory for the thread together with its
kernel stack, if these were allocated, and `top` the result of `user_alloc_stack`. Without a user
stack the memory is given back, and the list of the process stays as it is by then. The initial
frame is 21 words. -/
def createUserThread (s : Scheduler) (p : Nat) (block : Option (Nat × Nat)) (ksize : Nat)
    (top : Option Nat) (usize : Nat) : Scheduler :=
  match block, top with
  | none, _ => s
  | some (t, _), none => { linkProcess s p t with live := (linkProcess s p t).live.erase t }
  | some (t, kstack), some top =>
    enqueueThread ((linkProcess s p t).modify t (Thread.setUp kstack ksize top usize)) t

/-! ## Runs -/

/-- With the scheduler, what the lists should be: the ring, and the threads of each
process that have been created and not destroyed. -/
structure ThreadLists where
  sched : Scheduler
  ring : List Nat
  members : Nat → List Nat

inductive ThreadAction where
  | create (p : Nat) (block : Option (Nat × Nat)) (ksize : Nat) (top : Option Nat) (usize : Nat)
  | destroy (p t : Nat)

/-- A new thread is at the tail of the ring and at the head of its process. -/
def ThreadLists.created (st : ThreadLists) (p t kstack ksize top usize : Nat) : ThreadLists :=
  ⟨createUserThread st.sched p (some (t, kstack)) ksize (some top) usize, st.ring ++ [t],
    update st.members p (t :: st.members p)⟩

/-- A call that returns
null creates none; there is no user stack of size 0. A dead thread leaves its process, and the ring
does not have it any more. -/
inductive ThreadStep : ThreadLists → ThreadAction → ThreadLists → Prop
  | create {st : ThreadLists} {p t kstack ksize top usize : Nat} (ht : t ∉ st.sched.live)
      (hsize : 0 < usize) :
      ThreadStep st (.create p (some (t, kstack)) ksize (some top) usize)
        (st.created p t kstack ksize top usize)
  | noStack {st : ThreadLists} {p t kstack ksize usize : Nat} (ht : t ∉ st.sched.live) :
      ThreadStep st (.create p (some (t, kstack)) ksize none usize)
        { st with sched := createUserThread st.sched p (some (t, kstack)) ksize none usize }
  | noBlock {st : ThreadLists} {p ksize usize : Nat} {top : Option Nat} :
      ThreadStep st (.create p none ksize top usize)
        { st with sched := createUserThread st.sched p none ksize top usize }
  | destroy {st : ThreadLists} {p t : Nat} (ht : t ∈ st.members p)
      (hdead : (st.sched.threads t).state = .dead) (hring : t ∉ st.ring) :
      ThreadStep st (.destroy p t) ⟨destroyThread st.sched t, st.ring,
          update st.members p ((st.members p).erase t)⟩

/-- Both kinds of list are what they should be. -/
structure ListsApart (st : ThreadLists) : Prop where
  ring : ReadyRing st.sched st.ring
  process : ∀ p, DList st.sched.nextPthread st.sched.prevPthread (st.sched.processes p).threads
    (st.members p)

structure ListsKept (st : ThreadLists) : Prop where
  apart : ListsApart st
  live : ∀ t, (t ∈ st.ring ∨ ∃ p, t ∈ st.members p) → t ∈ st.sched.live

/-- Any processes with any number of threads in well-formed lists, and any well-formed
ring. -/
def threadMachine : Machine ThreadLists ThreadAction where
  start := ListsKept
  step := ThreadStep

/-- The first thread of a process is created, with a user stack, or there is no memory for the
thread or its kernel stack. No thread is destroyed. -/
def FirstThread (st : ThreadLists) : ThreadAction → Prop
  | .create p block _ top _ =>
    block = none ∨ (top ≠ none ∧ (st.sched.processes p).threads = none)
  | .destroy _ _ => False

variable {st st' : ThreadLists} {act : ThreadAction} {s : Scheduler}
  {p t u kstack ksize top usize : Nat}

/-! ## What the functions do to the lists of the processes -/

lemma create_threads (s : Scheduler) (p t kstack ksize top usize q : Nat) :
    ((createUserThread s p (some (t, kstack)) ksize (some top) usize).processes q).threads =
      if q = p then some t else (s.processes q).threads := by
  have hprocesses : ∀ a u, (enqueueThread a u).processes = a.processes := by
    intro a u
    rw [enqueueThread]
    cases a.readyListHead with
    | none => rfl
    | some head =>
      dsimp only
      cases (a.threads head).prev <;> rfl
  rw [createUserThread, hprocesses]
  by_cases hq : q = p
  · subst hq
    simp [linkProcess, Scheduler.modify]
  · cases hh : (s.processes p).threads <;>
      simp [linkProcess, Scheduler.modify, Scheduler.modifyAt, hq, hh]

/-- The links of the new thread, and those of the others as before. -/
lemma create_pthreads (s : Scheduler) (p t kstack ksize top usize u : Nat) :
    (createUserThread s p (some (t, kstack)) ksize (some top) usize).nextPthread u =
        (if u = t then (s.processes p).threads else s.nextPthread u) ∧
      (createUserThread s p (some (t, kstack)) ksize (some top) usize).prevPthread u =
        if u = t then none else s.prevPthread u := by
  have hun : ∀ a, ((enqueueThread a t).threads u).nextPthread = (a.threads u).nextPthread ∧
      ((enqueueThread a t).threads u).prevPthread = (a.threads u).prevPthread := by
    intro a
    have heq : ((enqueueThread a t).threads u).unlinked = (a.threads u).unlinked :=
      enqueueThread_unlinked
    exact ⟨show ((enqueueThread a t).threads u).unlinked.nextPthread = _ by rw [heq]; rfl,
      show ((enqueueThread a t).threads u).unlinked.prevPthread = _ by rw [heq]; rfl⟩
  rw [Scheduler.nextPthread, Scheduler.prevPthread, createUserThread, (hun _).1, (hun _).2]
  simp only [linkProcess, modify_threads, modifyAt_threads]
  by_cases hu : u = t
  · split_ifs <;> exact ⟨rfl, rfl⟩
  · split_ifs <;> exact ⟨rfl, rfl⟩

/-- `destroy_thread` leaves the lists of the processes as they are. -/
lemma destroy_pthreads (s : Scheduler) (t u : Nat) :
    (destroyThread s t).nextPthread u = s.nextPthread u ∧
      (destroyThread s t).processes = s.processes := by
  have hlink : ∀ (a : Scheduler) q f, (∀ x : Thread, (f x).nextPthread = x.nextPthread) →
      ((a.modifyAt q f).threads u).nextPthread = (a.threads u).nextPthread ∧
        (a.modifyAt q f).processes = a.processes := by
    intro a q f hf
    cases q with
    | none => exact ⟨rfl, rfl⟩
    | some q =>
      refine ⟨?_, rfl⟩
      simp only [Scheduler.modifyAt, modify_threads]
      split_ifs with huq
      · rw [hf, huq]
      · rfl
  rw [destroyThread]
  split_ifs
  · have h1 := hlink s (s.threads t).nextPthread (Thread.setPrev (s.threads t).prev) fun _ => rfl
    generalize s.modifyAt (s.threads t).nextPthread (Thread.setPrev (s.threads t).prev) = a at *
    have h2 := hlink a (a.threads t).prevPthread (Thread.setNext (a.threads t).next) fun _ => rfl
    exact ⟨h2.1.trans h1.1, h2.2.trans h1.2⟩
  · exact ⟨rfl, rfl⟩

/-! ## The first thread -/

lemma ListsKept.create (h : ListsKept st) (ht : t ∉ st.sched.live)
    (hnone : (st.sched.processes p).threads = none) :
    ListsKept (st.created p t kstack ksize top usize) := by
  have hring : t ∉ st.ring := fun hm => ht (h.live t (.inl hm))
  have hmember : ∀ q, t ∉ st.members q := fun q hm => ht (h.live t (.inr ⟨q, hm⟩))
  have hempty : st.members p = [] := by
    have hchain := (h.apart.process p).chain
    rw [hnone] at hchain
    exact hchain.unique rfl
  have hlive : (st.created p t kstack ksize top usize).sched.live = t :: st.sched.live := by
    refine (globals_eq enqueueThread_globals).1.trans ?_
    simp [linkProcess, hnone, Scheduler.modify, Scheduler.modifyAt]
  refine ⟨⟨?_, fun q => ?_⟩, fun u hu => ?_⟩
  · have hw := h.apart.ring.enter hring
      (a := (linkProcess st.sched p t).modify t (Thread.setUp kstack ksize top usize))
      (fun u hu => by simp [linkProcess, hnone, hu]) (by rw [modify_threads, if_pos rfl]; rfl)
      (by simp [linkProcess, hnone])
    exact hw.ring
  · dsimp only [ThreadLists.created]
    rw [create_threads]
    by_cases hq : q = p
    · subst hq
      rw [if_pos rfl, update_self, hempty]
      refine ⟨⟨rfl, ?_⟩, ?_, trivial⟩
      · rw [(create_pthreads ..).1, if_pos rfl, hnone]
        rfl
      · rw [(create_pthreads ..).2, if_pos rfl]
    · rw [if_neg hq, update_of_ne hq]
      refine (h.apart.process q).congr (fun u hu => ?_) fun u hu => ?_
      · have hut : u ≠ t := fun heq => hmember q (heq ▸ hu)
        rw [(create_pthreads ..).1, if_neg hut]
      · have hut : u ≠ t := fun heq => hmember q (heq ▸ hu)
        rw [(create_pthreads ..).2, if_neg hut]
  · rw [hlive, mem_cons]
    rcases hu with hu | ⟨q, hu⟩
    · rcases mem_append.mp hu with hu | hu
      · exact .inr (h.live u (.inl hu))
      · exact .inl (mem_singleton.mp hu)
    · dsimp only [ThreadLists.created] at hu
      by_cases hq : q = p
      · subst hq
        rw [update_self, hempty] at hu
        exact .inl (mem_singleton.mp hu)
      · rw [update_of_ne hq] at hu
        exact .inr (h.live u (.inr ⟨q, hu⟩))

/-! ## The others -/

/-- The thread that was the first one does not point back to the new one. -/
lemma not_apart_create (h : ListsKept st) (ht : t ∉ st.sched.live)
    (hsome : (st.sched.processes p).threads ≠ none) :
    ¬ ListsApart (st.created p t kstack ksize top usize) := by
  intro hapart
  have hold := h.apart.process p
  have hnew := hapart.process p
  dsimp only [ThreadLists.created] at hnew
  rw [update_self] at hnew
  cases hm : st.members p with
  | nil =>
    rw [hm] at hold
    exact hsome hold.chain
  | cons u l =>
    rw [hm] at hold hnew
    have hut : u ≠ t := by
      rintro rfl
      exact ht (h.live u (.inr ⟨p, hm ▸ mem_cons_self⟩))
    have hback := hnew.backed.2.1
    rw [(create_pthreads ..).2, if_neg hut, hold.backed.1] at hback
    cases hback

lemma not_apart_destroy (h : ListsKept st) (ht : t ∈ st.members p) :
    ¬ ListsApart ⟨destroyThread st.sched t, st.ring,
      update st.members p ((st.members p).erase t)⟩ := by
  intro hapart
  have hold := h.apart.process p
  have hnew := (hapart.process p).chain
  dsimp only at hnew
  rw [update_self, (destroy_pthreads st.sched t 0).2] at hnew
  have hsame : Chain (destroyThread st.sched t).nextPthread (st.sched.processes p).threads
      (st.members p) := hold.chain.congr fun u _ => (destroy_pthreads st.sched t u).1
  have heq := hsame.unique hnew
  have hnot : t ∉ (st.members p).erase t := hold.nodup.not_mem_erase
  rw [← heq] at hnot
  exact hnot ht

/-- The list begins with the memory that was given back. -/
lemma not_apart_noStack (h : ListsKept st) (ht : t ∉ st.sched.live) :
    ¬ ListsApart { st with
      sched := createUserThread st.sched p (some (t, kstack)) ksize none usize } := by
  intro hapart
  have hchain := (hapart.process p).chain
  have hhead : ((createUserThread st.sched p (some (t, kstack)) ksize none usize).processes
      p).threads = some t := by simp [createUserThread, linkProcess]
  dsimp only at hchain
  rw [hhead] at hchain
  cases hm : st.members p with
  | nil =>
    rw [hm] at hchain
    cases hchain
  | cons u l =>
    rw [hm] at hchain
    cases hchain.1
    exact ht (h.live t (.inr ⟨p, hm ▸ mem_cons_self⟩))

/-- In every run that creates only first threads and destroys none, the ring and the lists
of the processes are what they should be. The next step keeps that exactly when it is
of this kind. -/
theorem thread_lists_apart_iff (run : threadMachine.Reached FirstThread st) :
    threadMachine.SafeExactlyWhen ListsApart FirstThread st := by
  refine run.safeExactlyWhen (fun _ h => h) (fun st act st' h hgood hstep => ?_)
    (fun st h => h.apart) fun st act st' h hstep hbad => ?_
  · cases hstep with
    | create ht => exact h.create ht (hgood.resolve_left (by simp)).2
    | noStack => exact absurd rfl (hgood.resolve_left (by simp)).1
    | noBlock => exact h
    | destroy ht hdead hring => exact hgood.elim
  · cases hstep with
    | create ht => exact not_apart_create h ht fun hnone => hbad (.inr ⟨by simp, hnone⟩)
    | noStack ht => exact not_apart_noStack h ht
    | noBlock => exact absurd (.inl rfl) hbad
    | destroy ht hdead hring => exact not_apart_destroy h ht

/-! ## A process with one thread and then two -/

/-- No thread yet. -/
def noThreads : ThreadLists := ⟨blankScheduler zeroThread, [], fun _ => []⟩

def oneThread : ThreadLists :=
  ⟨createUserThread noThreads.sched 0 (some (1, 0x1000)) 0x1000 (some 0x7FFFFFFFF000) 0x1000, [1],
    update (fun _ => []) 0 [1]⟩

/-- The first thread of another process. -/
def twoProcesses : ThreadLists :=
  ⟨createUserThread oneThread.sched 5 (some (2, 0x3000)) 0x1000 (some 0x7FFFFFFFF000) 0x1000,
    [1, 2], update (update (fun _ => []) 0 [1]) 5 [2]⟩

lemma noThreads_kept : ListsKept noThreads :=
  ⟨⟨⟨rfl, ring_nil⟩, fun _ => ⟨rfl, trivial⟩⟩, by simp [noThreads]⟩

theorem thread_lists_apart_two : threadMachine.Reached FirstThread twoProcesses ∧
      threadMachine.SafeExactlyWhen ListsApart FirstThread twoProcesses := by
  have hfirst : ThreadStep noThreads
      (.create 0 (some (1, 0x1000)) 0x1000 (some 0x7FFFFFFFF000) 0x1000) oneThread :=
    .create not_mem_nil (by decide)
  have hsecond : ThreadStep oneThread
      (.create 5 (some (2, 0x3000)) 0x1000 (some 0x7FFFFFFFF000) 0x1000) twoProcesses :=
    .create (by decide) (by decide)
  have hone : FirstThread noThreads
      (.create 0 (some (1, 0x1000)) 0x1000 (some 0x7FFFFFFFF000) 0x1000) := .inr ⟨by simp, rfl⟩
  have htwo : FirstThread oneThread
      (.create 5 (some (2, 0x3000)) 0x1000 (some 0x7FFFFFFFF000) 0x1000) := .inr ⟨by simp, rfl⟩
  have run : threadMachine.Reached FirstThread twoProcesses :=
    .step (.step (.start noThreads_kept) hone hfirst) htwo hsecond
  exact ⟨run, thread_lists_apart_iff run⟩

/-- A second thread of the process: the ring has lost it, and going round from the first
thread leads back to that at once. A first thread with a user stack of size 0: it stays on the list
of its process after its memory was given back. -/
theorem second_thread_breaks_ring :
    (∃ st, ThreadStep oneThread
        (.create 0 (some (2, 0x3000)) 0x1000 (some 0x7FFFFFFFE000) 0x1000) st ∧
      st.ring = [1, 2] ∧ st.sched.next 1 = some 1 ∧ ¬ ListsApart st) ∧
    ∃ st, ThreadStep noThreads (.create 0 (some (1, 0x1000)) 0x1000 none 0) st ∧
      (st.sched.processes 0).threads = some 1 ∧ st.sched.live = [] ∧ ¬ ListsApart st := by
  have hkept : ListsKept oneThread := noThreads_kept.create not_mem_nil rfl
  have hsecond : ThreadStep oneThread
      (.create 0 (some (2, 0x3000)) 0x1000 (some 0x7FFFFFFFE000) 0x1000) _ :=
    .create (by decide) (by decide)
  have hzero : ThreadStep noThreads (.create 0 (some (1, 0x1000)) 0x1000 none 0) _ :=
    .noStack not_mem_nil
  exact ⟨⟨_, hsecond, rfl, rfl, not_apart_create hkept (by decide) (by decide)⟩,
    _, hzero, rfl, by decide, not_apart_noStack noThreads_kept not_mem_nil⟩

end DestinX.Sched
