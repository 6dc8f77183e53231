import DestinX.Sched.Switch

/-!
# Mutexes

`mutex_lock` and `mutex_unlock` of `kernel/sync/mutex.c`. The spinlock sections run
with interrupts off on one processor, so each is one step; the call of `yield` at
the end of a contended `mutex_lock` is a step of its own. `WaitQueue` says that
the mutex and the field `next_blocked` hold a queue.
-/

namespace DestinX.Sched

open Base List

structure Mutex where
  locked : Nat
  (blockedHead blockedTail : Option Nat)
  deriving DecidableEq, Repr

def mutexInit : Mutex := ⟨0, none, none⟩

def Thread.setNextBlocked (p : Option Nat) (x : Thread) : Thread := { x with nextBlocked := p }

/-- The contended part of the spinlock section of `mutex_lock`. -/
def queueThread (s : Scheduler) (mutex : Mutex) (t : Nat) : Scheduler × Mutex :=
  let a := s.modify t fun x => (x.setState .blocked).setNextBlocked none
  match mutex.blockedHead with
  | none => (a, { mutex with blockedHead := some t, blockedTail := some t })
  | some _ =>
    (a.modifyAt mutex.blockedTail (Thread.setNextBlocked (some t)),
      { mutex with blockedTail := some t })

/-- The spinlock section of `mutex_lock`. The caller has the mutex when it was free;
otherwise the caller is queued and goes on to `yield`. -/
def mutexLock (s : Scheduler) (mutex : Mutex) : Option (Scheduler × Mutex) :=
  if mutex.locked = 0 then some (s, { mutex with locked := 1 })
  else s.currentThread.map (queueThread s mutex)

def mutexUnlock (s : Scheduler) (mutex : Mutex) : Scheduler × Mutex :=
  match mutex.blockedHead with
  | none => (s, { mutex with locked := 0 })
  | some wake =>
    let head := (s.threads wake).nextBlocked
    let a := s.modify wake fun x => (x.setState .ready).setNextBlocked none
    (enqueueThread a wake,
      { mutex with
        blockedHead := head
        blockedTail := if head = none then none else mutex.blockedTail })

/-! ## The wait queue -/

def Scheduler.nextBlocked (s : Scheduler) (t : Nat) : Option Nat := (s.threads t).nextBlocked

structure WaitQueue (s : Scheduler) (mutex : Mutex) (q : List Nat) : Prop where
  chain : Chain s.nextBlocked mutex.blockedHead q
  tail : mutex.blockedTail = q.getLast?

variable {s s' : Scheduler} {mutex : Mutex} {l q : List Nat} {t u c : Nat} {p : Option Nat}
  {x : Thread}

@[simp] lemma setNextBlocked_next : (x.setNextBlocked p).next = x.next := rfl
@[simp] lemma setNextBlocked_prev : (x.setNextBlocked p).prev = x.prev := rfl
@[simp] lemma setNextBlocked_state : (x.setNextBlocked p).state = x.state := rfl
@[simp] lemma setNextBlocked_nextBlocked : (x.setNextBlocked p).nextBlocked = p := rfl
@[simp] lemma setState_nextBlocked {state : ThreadState} :
    (x.setState state).nextBlocked = x.nextBlocked := rfl

lemma WaitQueue.congr (h : WaitQueue s mutex q)
    (hn : ∀ u ∈ q, (s'.threads u).nextBlocked = (s.threads u).nextBlocked) : WaitQueue s' mutex q :=
  ⟨h.chain.congr hn, h.tail⟩

lemma waitQueue_init (s : Scheduler) : WaitQueue s mutexInit [] := ⟨rfl, rfl⟩

/-- The fields of a thread other than its link in a wait queue. -/
def Thread.unqueued (x : Thread) : Thread := { x with nextBlocked := none }

/-- The effect of queueing the running thread `c`: it is blocked, and only its link
and that of the last thread in the queue change. -/
structure Queued (s s' : Scheduler) (q : List Nat) (c : Nat) : Prop where
  unqueued : ∀ u, (s'.threads u).unqueued =
    ((s.threads u).setState (if u = c then .blocked else (s.threads u).state)).unqueued
  outside : ∀ u ∉ q, u ≠ c → s'.threads u = s.threads u
  globals : s'.globals = s.globals
  head : s'.readyListHead = s.readyListHead

lemma Queued.state (h : Queued s s' q c) (u : Nat) :
    (s'.threads u).state = if u = c then .blocked else (s.threads u).state :=
  congrArg Thread.state (h.unqueued u)

lemma Queued.ring (h : Queued s s' q c) (hr : ReadyRing s l) : ReadyRing s' l :=
  hr.congr h.head
    (fun u _ => show (s'.threads u).unqueued.next = (s.threads u).next by rw [h.unqueued u]; rfl)
    (fun u _ => show (s'.threads u).unqueued.prev = (s.threads u).prev by rw [h.unqueued u]; rfl)

lemma WaitQueue.queueThread (h : WaitQueue s mutex q) (hc : c ∉ q) :
    (queueThread s mutex c).2.locked = mutex.locked ∧
      WaitQueue (queueThread s mutex c).1 (queueThread s mutex c).2 (q ++ [c]) ∧
      Queued s (queueThread s mutex c).1 q c := by
  have hhead := h.chain.head_eq
  cases q with
  | nil =>
    have hnone : mutex.blockedHead = none := hhead
    simp only [Sched.queueThread, hnone]
    refine ⟨trivial, ⟨⟨rfl, by simp [Scheduler.nextBlocked]⟩, rfl⟩, ?_, ?_, rfl, rfl⟩
    · intro u
      by_cases hu : u = c <;> simp [hu, Thread.unqueued, Thread.setNextBlocked, Thread.setState]
    · intro u _ hu
      simp [hu]
  | cons a q =>
    have hsome : mutex.blockedHead = some a := hhead
    obtain ⟨z, hz⟩ := Option.ne_none_iff_exists'.mp (show (a :: q).getLast? ≠ none by simp)
    have hzm : z ∈ a :: q := mem_of_getLast? hz
    have hcz : c ≠ z := fun he => hc (he ▸ hzm)
    have htail : mutex.blockedTail = some z := h.tail.trans hz
    simp only [Sched.queueThread, hsome, htail, Scheduler.modifyAt]
    refine ⟨trivial, ⟨?_, getLast?_concat.symm⟩, ?_, ?_, rfl, rfl⟩
    · refine Chain.snoc (hsome ▸ h.chain) (cons_ne_nil a q) hc ?_ ?_ ?_
      · simp [Scheduler.nextBlocked, hcz]
      · intro b hb
        obtain rfl : z = b := Option.some.inj (hz.symm.trans hb)
        simp [Scheduler.nextBlocked]
      · intro b hb hbz
        have hbc : b ≠ c := fun he => hc (he ▸ hb)
        have hbz' : b ≠ z := fun he => hbz (he ▸ hz)
        simp [Scheduler.nextBlocked, hbc, hbz']
    · intro u
      by_cases hu : u = z
      · simp [hu, hcz.symm, Thread.unqueued, Thread.setNextBlocked, Thread.setState]
      · by_cases huc : u = c <;>
          simp [hu, huc, hcz, Thread.unqueued, Thread.setNextBlocked, Thread.setState]
    · intro u hu huc
      have huz : u ≠ z := fun he => hu (he ▸ hzm)
      simp [huz, huc]

lemma WaitQueue.unlock (h : WaitQueue s mutex (t :: q)) (hr : ReadyRing s l) (ht : t ∉ l) :
    (mutexUnlock s mutex).2.locked = mutex.locked ∧
      WaitQueue (mutexUnlock s mutex).1 (mutexUnlock s mutex).2 q ∧
      Woken s (mutexUnlock s mutex).1 l t ∧ (mutexUnlock s mutex).1.globals = s.globals := by
  have hhead : mutex.blockedHead = some t := h.chain.1
  have hnext : (s.threads t).nextBlocked = q.head? := h.chain.2.head_eq
  have htq : t ∉ q := (nodup_cons.mp h.chain.nodup).1
  have hw := hr.enter ht (a := s.modify t fun x => (x.setState .ready).setNextBlocked none)
    (fun u hu => by simp [hu]) (by simp) rfl
  simp only [mutexUnlock, hhead]
  refine ⟨trivial, ⟨?_, ?_⟩, hw, enqueueThread_globals⟩
  · exact h.chain.2.congr fun u hu => hw.nextBlocked u fun he => htq (he ▸ hu)
  · rw [hnext, h.tail]
    cases q with
    | nil => rfl
    | cons b q => simp

/-- `mutex_unlock` at most makes a thread ready. -/
lemma mutexUnlock_frame (s : Scheduler) (mutex : Mutex) :
    (mutexUnlock s mutex).1.globals = s.globals ∧
      ∀ u, (((mutexUnlock s mutex).1.threads u).state = (s.threads u).state ∨
          ((mutexUnlock s mutex).1.threads u).state = .ready) ∧
        ((mutexUnlock s mutex).1.threads u).process = (s.threads u).process ∧
        ((mutexUnlock s mutex).1.threads u).nextPthread = (s.threads u).nextPthread := by
  unfold mutexUnlock
  cases mutex.blockedHead with
  | none => exact ⟨rfl, fun u => ⟨.inl rfl, rfl, rfl⟩⟩
  | some t =>
    refine ⟨enqueueThread_globals, fun u => ?_⟩
    have hun := enqueueThread_unlinked (u := u) (t := t)
      (s := s.modify t fun x => (x.setState .ready).setNextBlocked none)
    obtain ⟨-, -, hproc, hnext⟩ := fields_of_body (body_of_unlinked hun)
    rw [state_of_unlinked hun, hproc, hnext]
    by_cases hu : u = t <;> simp [hu, Thread.setState, Thread.setNextBlocked]

end DestinX.Sched
