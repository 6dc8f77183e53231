import DestinX.Base.Runs
import DestinX.Sched.Boot

/-!
# Runs of threads that share a mutex

Any number of threads call `mutex_lock` and `mutex_unlock` on one mutex. The spinlock sections
are single steps; between them the timer may call `scheduler_handler`, also after a thread
marked itself blocked and before it reaches `yield`.

A step is taken by the current thread, whatever its state says: that a thread past `yield` is
running again is part of what is proved. Recorded are the threads that entered the wait queue,
those that `mutex_unlock` took from it, and those that returned from `mutex_lock`.
-/

namespace DestinX.Sched

open Base Function List Option

/-- Where a thread is: a thread that is queued still has to call `yield`, one that
yielded has to return from `mutex_lock`. -/
inductive LockPc where
  | outside
  | queued
  | yielded
  | holding
  deriving DecidableEq, Repr

structure MutexState where
  sched : Scheduler
  mutex : Mutex
  pc : Nat → LockPc
  (entered granted acquired : List Nat)

/-- When the current thread cannot run on, another thread of the ring can. -/
def OtherRunnable (s : Scheduler) : Prop :=
  ∀ c, s.currentThread = some c → Stopped s c →
    ∃ u, u ≠ c ∧ InRing s u ∧ (s.threads u).state = .ready

/-- `c` has come to the end of the spinlock section of `mutex_lock`. -/
def MutexState.locking (st : MutexState) (c : Nat) (s : Scheduler) (mutex : Mutex) : MutexState :=
  { st with
    sched := s
    mutex := mutex
    pc := update st.pc c (if st.mutex.locked = 0 then .holding else .queued)
    entered := if st.mutex.locked = 0 then st.entered else st.entered ++ [c] }

/-- `c` returns from a `mutex_lock` in which it waited. -/
def MutexState.acquire (st : MutexState) (c : Nat) : MutexState :=
  { st with pc := update st.pc c .holding, acquired := st.acquired ++ [c] }

/-- `c` has called `mutex_unlock`. -/
def MutexState.unlocked (st : MutexState) (c : Nat) : MutexState :=
  { st with
    sched := (mutexUnlock st.sched st.mutex).1
    mutex := (mutexUnlock st.sched st.mutex).2
    pc := update st.pc c .outside
    granted := st.granted ++ st.mutex.blockedHead.toList }

inductive MutexStep : MutexState → MutexState → Prop
  | lock {st : MutexState} {c : Nat} {s' : Scheduler} {mutex : Mutex}
      (hc : st.sched.currentThread = some c) (hpc : st.pc c = .outside)
      (he : mutexLock st.sched st.mutex = some (s', mutex)) :
      MutexStep st (st.locking c s' mutex)
  | yield {st : MutexState} {c rsp r : Nat} {s' : Scheduler}
      (hc : st.sched.currentThread = some c) (hpc : st.pc c = .queued)
      (hother : OtherRunnable st.sched) (he : schedulerHandler st.sched rsp = some (s', r)) :
      MutexStep st { st with sched := s', pc := update st.pc c .yielded }
  | tick {st : MutexState} {rsp r : Nat} {s' : Scheduler}
      (hother : OtherRunnable st.sched) (he : schedulerHandler st.sched rsp = some (s', r)) :
      MutexStep st { st with sched := s' }
  | acquire {st : MutexState} {c : Nat}
      (hc : st.sched.currentThread = some c) (hpc : st.pc c = .yielded) :
      MutexStep st (st.acquire c)
  | unlock {st : MutexState} {c : Nat}
      (hc : st.sched.currentThread = some c) (hpc : st.pc c = .holding) :
      MutexStep st (st.unlocked c)

/-- All threads are in the ring and outside the mutex. -/
structure MutexStart (st : MutexState) (l : List Nat) : Prop where
  ring : RingStart st.sched l
  mutex : st.mutex = mutexInit
  outside : ∀ t, st.pc t = .outside
  logs : st.entered = [] ∧ st.granted = [] ∧ st.acquired = []

def mutexMachine : Machine MutexState Unit where
  start st := ∃ l, MutexStart st l
  step st _ st' := MutexStep st st'

/-- What holds in every state. At most one thread holds the mutex, and it is unlocked exactly
when no thread is inside `mutex_lock` or past it. The queue is what the mutex says it is, and the
threads leave it in the order in which they entered; they return from `mutex_lock` in this order
too. A thread that was granted the mutex and has not returned yet is alone with it, and it is
in the ring and can run. The thread that `mutex_unlock` would put into the ring is not in it.
The handler returns. -/
structure MutexSound (st : MutexState) : Prop where
  exclusive : ∀ t u, st.pc t = .holding → st.pc u = .holding → t = u
  released : st.mutex.locked = 0 ↔ ∀ t, st.pc t = .outside
  queue : ∃ q, WaitQueue st.sched st.mutex q ∧ st.entered = st.granted ++ q ∧
    (st.mutex.locked = 0 → q = [])
  handover : st.granted = st.acquired ∨
    ∃ t, st.granted = st.acquired ++ [t] ∧ (∀ u, st.pc u ≠ .holding) ∧ InRing st.sched t ∧
      ((st.sched.threads t).state = .ready ∨ (st.sched.threads t).state = .running)
  ring : ∃ l, ReadyRing st.sched l ∧ ∀ c t, st.sched.currentThread = some c → st.pc c = .holding →
      st.mutex.blockedHead = some t → t ∉ l
  returns : OtherRunnable st.sched → ∀ rsp, ∃ s' r, schedulerHandler st.sched rsp = some (s', r)

/-! ## The invariant -/

/-- The state as one of the whole system, in which no other mutex is used. -/
def MutexState.system (st : MutexState) : System :=
  ⟨st.sched, update (fun _ => mutexInit) 0 st.mutex, [], []⟩

def waitQueues (q : List Nat) : Nat → List Nat := update (fun _ => []) 0 q

/-- The owner if it has not yet returned from `mutex_lock`. -/
def pending (pc : Nat → LockPc) (owner : Option Nat) : List Nat :=
  owner.toList.filter fun t => pc t ≠ .holding

/-- The mutex is owned from the moment it is granted. A thread that is inside
`mutex_lock` or past it is in the queue or the owner. The threads of `K` never block, and a
thread can also block for another reason. -/
structure MutexLists (K : List Nat) (st : MutexState) (l q : List Nat) (owner : Option Nat) :
    Prop where
  core : RingCore K st.system l [] (waitQueues q)
  waiting : ∀ t ∈ q, st.pc t = .queued ∨ st.pc t = .yielded
  inside : ∀ t, st.pc t ≠ .outside → t ∈ q ∨ owner = some t
  owns : ∀ t, owner = some t → t ∉ q ∧ st.pc t ≠ .outside
  locked : st.mutex.locked = 0 ↔ owner = none
  free : owner = none → q = []
  entered : st.entered = st.granted ++ q
  granted : st.granted = st.acquired ++ pending st.pc owner

/-- The current thread runs unless it is queued. -/
def CurrentRuns (st : MutexState) (q : List Nat) : Prop :=
  ∀ c, st.sched.currentThread = some c →
    if c ∈ q then st.pc c = .queued else (st.sched.threads c).state = .running

/-- Thread `t` is in the ring and can run. -/
def CanRun (s : Scheduler) (l : List Nat) (t : Nat) : Prop := t ∈ l ∧ ¬ Stopped s t

/-- Where threads block for the mutex only, its owner can run. -/
structure MutexInv (st : MutexState) (l q : List Nat) (owner : Option Nat) : Prop extends
    MutexLists [] st l q owner where
  current : CurrentRuns st q
  ownerRuns : ∀ t, owner = some t → CanRun st.sched l t

variable {st st' : MutexState} {K l q : List Nat} {owner : Option Nat} {c t rsp r : Nat}
  {s' : Scheduler} {mutex : Mutex}

lemma waitQueues_zero : waitQueues q 0 = q := update_self _ _ _

lemma update_waitQueues (q' : List Nat) :
    update (waitQueues q) 0 q' = waitQueues q' := update_idem _ _ _

lemma system_mutexes_zero : st.system.mutexes 0 = st.mutex := by simp [MutexState.system]

lemma update_mutexes : update st.system.mutexes 0 mutex = update (fun _ => mutexInit) 0 mutex :=
  update_idem _ _ _

section

variable (h : MutexLists K st l q owner)
include h

lemma MutexLists.queue : WaitQueue st.sched st.mutex q := by
  have hq := h.core.queue 0
  rwa [system_mutexes_zero, waitQueues_zero] at hq

lemma MutexLists.blocked (ht : t ∈ q) : (st.sched.threads t).state = .blocked :=
  (h.core.blocked 0 t (waitQueues_zero ▸ ht)).2

lemma MutexLists.owner_of_holding (ht : st.pc t = .holding) : owner = some t := by
  refine (h.inside t (by rw [ht]; decide)).resolve_left fun hq => ?_
  have hw := h.waiting t hq
  rw [ht] at hw
  simp at hw

/-- A thread that runs is not in the queue. -/
lemma MutexLists.not_mem_of_running (hrun : (st.sched.threads c).state = .running) : c ∉ q := by
  intro hq
  rw [h.blocked hq] at hrun
  cases hrun

end

/-- The current thread runs, or it is queued and on its way to `yield`. -/
lemma MutexInv.running (h : MutexInv st l q owner) (hc : st.sched.currentThread = some c)
    (hpc : st.pc c ≠ .queued) : c ∉ q ∧ (st.sched.threads c).state = .running := by
  have hcur := h.current c hc
  split_ifs at hcur with hq
  · exact absurd hcur hpc
  · exact ⟨hq, hcur⟩

lemma pending_congr {pc pc' : Nat → LockPc}
    (h : ∀ t, owner = some t → (pc' t = .holding ↔ pc t = .holding)) :
    pending pc' owner = pending pc owner := by
  cases owner with
  | none => rfl
  | some t =>
    have ht := h t rfl
    by_cases hp : pc t = .holding
    · simp [pending, hp, ht.mpr hp]
    · simp [pending, hp, mt ht.mp hp]

lemma pending_holding (h : st.pc t = .holding) : pending st.pc (some t) = [] := by simp [pending, h]

lemma pending_waiting (h : st.pc t ≠ .holding) : pending st.pc (some t) = [t] := by
  simp [pending, h]

/-! ## Steps keep the lists -/

section

variable (h : MutexLists K st l q owner)
include h

lemma MutexLists.lock_free (hlocked : st.mutex.locked = 0) :
    MutexLists K (st.locking c st.sched { st.mutex with locked := 1 }) l [] (some c) := by
  rw [MutexState.locking, if_pos hlocked, if_pos hlocked]
  have hnone := h.locked.mp hlocked
  have hq := h.free hnone
  subst hq hnone
  have hout : ∀ t, st.pc t = .outside := by
    intro t
    by_contra hne
    rcases h.inside t hne with hm | hm <;> cases hm
  have hcore := h.core.set_mutex (m := 0)
    (show ({ st.mutex with locked := 1 } : Mutex).blockedHead =
    (st.system.mutexes 0).blockedHead by rw [system_mutexes_zero]) (by rw [system_mutexes_zero])
  rw [update_mutexes] at hcore
  refine ⟨hcore, by simp, ?_, ?_, by simp, by simp, h.entered, ?_⟩
  · intro t ht
    by_cases htc : t = c
    · exact .inr (congrArg some htc.symm)
    · exact absurd (hout t) (by simpa [htc] using ht)
  · intro t ht
    obtain rfl : c = t := some.inj ht
    simp
  · rw [h.granted]
    simp [pending]

lemma MutexLists.lock_queued (hc : st.sched.currentThread = some c)
    (hrun : (st.sched.threads c).state = .running) (hK : c ∉ K) (hpc : st.pc c = .outside)
    (hlocked : st.mutex.locked ≠ 0) : MutexLists K (st.locking c
      (queueThread st.sched st.mutex c).1 (queueThread st.sched st.mutex c).2)
      l (q ++ [c]) owner := by
  rw [MutexState.locking, if_neg hlocked, if_neg hlocked]
  obtain ⟨hl, -, hqd⟩ := h.queue.queueThread (h.not_mem_of_running hrun)
  have hcore := h.core.mark_blocked hc hrun hK 0
  rw [update_mutexes, update_waitQueues] at hcore
  have howner : ∀ t, owner = some t → t ≠ c := by
    rintro t ht rfl
    exact (h.owns t ht).2 hpc
  refine ⟨hcore, ?_, ?_, ?_, ?_, ?_, ?_, ?_⟩
  · intro t ht
    by_cases htc : t = c
    · simp [htc]
    · have htq : t ∈ q := by simpa [htc] using ht
      simpa [htc] using h.waiting t htq
  · intro t ht
    by_cases htc : t = c
    · simp [htc]
    · have := h.inside t (by simpa [htc] using ht)
      simpa [htc] using this
  · intro t ht
    have htc := howner t ht
    simpa [htc] using h.owns t ht
  · rw [hl]
    exact h.locked
  · intro hnone
    exact absurd (h.locked.mpr hnone) hlocked
  · rw [h.entered, append_assoc]
  · refine h.granted.trans (congrArg _ (pending_congr fun t ht => ?_).symm)
    simp [howner t ht]

/-- The handler returns. The thread that runs then is not in the queue, no thread was
blocked, and those that could run still can. -/
lemma MutexLists.handler (hc : st.sched.currentThread = some c)
    (hnd : (st.sched.threads c).state ≠ .dead) (hone : Stopped st.sched c → l ≠ [c]) (rsp : Nat) :
    ∃ s' r l' n, schedulerHandler st.sched rsp = some (s', r) ∧
      MutexLists K { st with sched := s' } l' q owner ∧ Handled st.sched s' c n ∧ n ∉ q ∧
      (∀ u, (s'.threads u).state = .blocked → (st.sched.threads u).state = .blocked) ∧
      ∀ u, CanRun st.sched l u → CanRun s' l' u := by
  obtain ⟨s', r, l', n, he, hcore, hn, hblocked⟩ := h.core.handler hc hnd hone rsp
  refine ⟨s', r, l', n, he, ⟨hcore, h.waiting, h.inside, h.owns, h.locked, h.free, h.entered,
    h.granted⟩, hn, fun hq => ?_, hblocked, fun u hu => ?_⟩
  · have hb := hn.blocked n (h.blocked hq)
    rw [hn.running] at hb
    cases hb
  · by_cases hun : u = n
    · subst hun
      exact ⟨hcore.current_mem hn.current, by rw [Stopped, hn.running]; decide⟩
    · -- it was ready, or it is the thread that the handler put aside
      have hready : (s'.threads u).state = .ready := by
        refine hn.ready u hun (((h.core.inRing u).mp hu.1).imp (fun hcu => ?_) And.right)
        obtain rfl : c = u := some.inj (hc.symm.trans hcu)
        exact ⟨rfl, hu.2⟩
      have hlive : u ∈ s'.live := hn.live ▸ h.core.mem_live hu.1
      exact ⟨(hcore.inRing u).mpr (.inr ⟨hlive, hready⟩), by rw [Stopped, hready]; decide⟩

lemma MutexLists.yield (hpc : st.pc t = .queued) :
    MutexLists K { st with pc := update st.pc t .yielded } l q owner := by
  refine ⟨h.core, ?_, ?_, ?_, h.locked, h.free, h.entered, ?_⟩
  · intro u hu
    by_cases hut : u = t
    · simp [hut]
    · simpa [hut] using h.waiting u hu
  · intro u hu
    by_cases hut : u = t
    · exact hut ▸ h.inside t (by rw [hpc]; decide)
    · exact h.inside u (by simpa [hut] using hu)
  · intro u hu
    by_cases hut : u = t
    · subst hut
      exact ⟨(h.owns u hu).1, by simp⟩
    · simpa [hut] using h.owns u hu
  · refine h.granted.trans (congrArg _ (pending_congr fun u _ => ?_).symm)
    by_cases hut : u = t
    · simp [hut, hpc]
    · simp [hut]

lemma MutexLists.acquire (hcq : c ∉ q) (hpc : st.pc c = .yielded) :
    MutexLists K (st.acquire c) l q owner := by
  unfold MutexState.acquire
  have howner := (h.inside c (by rw [hpc]; decide)).resolve_left hcq
  subst howner
  refine ⟨h.core, ?_, ?_, ?_, h.locked, h.free, h.entered, ?_⟩
  · intro u hu
    have huc : u ≠ c := fun he => hcq (he ▸ hu)
    simpa [huc] using h.waiting u hu
  · intro u hu
    by_cases huc : u = c
    · exact .inr (congrArg some huc.symm)
    · exact h.inside u (by simpa [huc] using hu)
  · intro u hu
    obtain rfl : c = u := some.inj hu
    exact ⟨hcq, by simp⟩
  · rw [h.granted, pending_waiting (by rw [hpc]; decide)]
    simp [pending]

/-- The owner lets go. The first thread of the queue owns the mutex, is ready and in the ring,
and no other thread changes its state. -/
lemma MutexLists.unlock (hc : st.sched.currentThread = some c) (hpc : st.pc c = .holding) :
    (∀ u ∉ q, ((mutexUnlock st.sched st.mutex).1.threads u).state = (st.sched.threads u).state) ∧
    ∃ l' q' owner', q' ⊆ q ∧
      (∀ t, owner' = some t → CanRun (mutexUnlock st.sched st.mutex).1 l' t) ∧
      MutexLists K (st.unlocked c) l' q' owner' := by
  unfold MutexState.unlocked
  have howner := h.owner_of_holding hpc
  subst howner
  have hcq := (h.owns c rfl).1
  have hgranted : st.granted = st.acquired := by rw [h.granted, pending_holding hpc, append_nil]
  have hinside : ∀ t, t ≠ c → st.pc t ≠ .outside → t ∈ q := fun t htc ht =>
    (h.inside t ht).resolve_right fun he => htc (some.inj he).symm
  cases q with
  | nil =>
    have hnone : st.mutex.blockedHead = none := h.queue.chain
    have hcore := h.core.unlock_empty (m := 0) waitQueues_zero
    rw [System.unlock, update_mutexes] at hcore
    refine ⟨fun u _ => by simp [mutexUnlock, hnone], l, [], none, List.Subset.refl _, by simp,
      hcore, by simp, ?_, by simp, ?_, by simp, ?_, ?_⟩
    · intro t ht
      by_cases htc : t = c
      · simp [htc] at ht
      · exact absurd (hinside t htc (by simpa [htc] using ht)) not_mem_nil
    · simp [mutexUnlock, hnone]
    · simp [hnone, h.entered]
    · simp [hnone, hgranted, pending]
  | cons t q =>
    have hhead : st.mutex.blockedHead = some t := h.queue.chain.1
    have htc : t ≠ c := fun he => hcq (he ▸ mem_cons_self)
    have htq : t ∉ q := (nodup_cons.mp h.queue.chain.nodup).1
    have hcq' : c ∉ q := fun hm => hcq (mem_cons_of_mem t hm)
    obtain ⟨hnt, hcore⟩ := h.core.unlock_head hc (m := 0) waitQueues_zero htc
    obtain ⟨hl, -, hw, -⟩ := h.queue.unlock h.core.ring hnt
    rw [System.unlock, update_mutexes, update_waitQueues] at hcore
    have htw := h.waiting t mem_cons_self
    refine ⟨fun u hu => ?_, l ++ [t], q, some t, subset_cons_self t q, ?_, hcore, ?_, ?_, ?_,
      ?_, by simp, ?_, ?_⟩
    · rw [hw.state u, if_neg fun he : u = t => hu (he ▸ mem_cons_self)]
    · intro u hu
      obtain rfl : t = u := some.inj hu
      exact ⟨by simp, by rw [Stopped, hw.state t, if_pos rfl]; decide⟩
    · intro u hu
      have huc : u ≠ c := fun he => hcq' (he ▸ hu)
      simpa [huc] using h.waiting u (mem_cons_of_mem t hu)
    · intro u hu
      by_cases huc : u = c
      · simp [huc] at hu
      · have hm := hinside u huc (by simpa [huc] using hu)
        exact (mem_cons.mp hm).symm.imp_right fun he => congrArg some he.symm
    · intro u hu
      obtain rfl : t = u := some.inj hu
      refine ⟨htq, ?_⟩
      rcases htw with he | he <;> simp [htc, he]
    · rw [hl]
      exact ⟨fun h0 => absurd (h.locked.mp h0) (by simp), fun hn => absurd hn (by simp)⟩
    · simp [hhead, h.entered]
    · rw [hgranted, hhead]
      rcases htw with he | he <;> simp [pending, htc, he]

end

/-! ## Steps keep the invariant -/

section

variable (h : MutexInv st l q owner)
include h

lemma MutexInv.lock (hc : st.sched.currentThread = some c) (hpc : st.pc c = .outside)
    (he : mutexLock st.sched st.mutex = some (s', mutex)) :
    ∃ l' q' owner', MutexInv (st.locking c s' mutex) l' q' owner' := by
  obtain ⟨hcq, hrun⟩ := h.running hc (by rw [hpc]; decide)
  rw [mutexLock] at he
  split_ifs at he with hlocked
  · cases he
    refine ⟨l, [], some c, h.lock_free hlocked, fun c' hc' => ?_, fun t ht => ?_⟩
    · obtain rfl : c = c' := some.inj (hc.symm.trans hc')
      exact hrun
    · obtain rfl : c = t := some.inj ht
      exact ⟨h.core.current_mem hc, by simp [Stopped, MutexState.locking, hrun]⟩
  · rw [hc] at he
    obtain ⟨rfl, rfl⟩ := Prod.mk.inj (some.inj he)
    obtain ⟨-, -, hqd⟩ := h.queue.queueThread hcq
    refine ⟨l, q ++ [c], owner, h.lock_queued hc hrun not_mem_nil hpc hlocked, fun c' hc' => ?_,
      fun t ht => ?_⟩
    · obtain rfl : c = c' := some.inj (hc.symm.trans ((globals_eq hqd.globals).2.1 ▸ hc'))
      simp [MutexState.locking, hlocked]
    · have htc : t ≠ c := by
        rintro rfl
        exact (h.owns t ht).2 hpc
      obtain ⟨hl, hs⟩ := h.ownerRuns t ht
      have hstate := hqd.state t
      rw [if_neg htc] at hstate
      rw [Stopped, ← hstate] at hs
      exact ⟨hl, hs⟩

/-- The handler returns, and the thread that runs then is not in the queue. -/
lemma MutexInv.handler (hother : OtherRunnable st.sched) (rsp : Nat) :
    ∃ s' r l', schedulerHandler st.sched rsp = some (s', r) ∧
      MutexInv { st with sched := s' } l' q owner ∧ ∀ c, s'.currentThread = some c → c ∉ q := by
  obtain ⟨c, hc, -, -⟩ := h.core.current
  have hnd : (st.sched.threads c).state ≠ .dead := by
    by_cases hq : c ∈ q
    · rw [h.blocked hq]
      decide
    · have hcur := h.current c hc
      rw [if_neg hq] at hcur
      rw [hcur]
      decide
  have hring : ReadyRing st.sched l := h.core.ring
  have hone : Stopped st.sched c → l ≠ [c] := by
    rintro hs rfl
    obtain ⟨u, hu, hreach, -⟩ := hother c hc hs
    exact hu (mem_singleton.mp (hring.inRing_iff.mp hreach))
  obtain ⟨s', r, l', n, he, hlists, hn, hnq, -, hcan⟩ := h.toMutexLists.handler hc hnd hone rsp
  refine ⟨s', r, l', he, ⟨hlists, fun c' hc' => ?_, fun t ht => hcan t (h.ownerRuns t ht)⟩,
    fun c' hc' => ?_⟩
  all_goals obtain rfl : n = c' := some.inj (hn.current.symm.trans hc')
  · rw [if_neg hnq]
    exact hn.running
  · exact hnq

lemma MutexInv.acquire (hc : st.sched.currentThread = some c) (hpc : st.pc c = .yielded) :
    MutexInv (st.acquire c) l q owner := by
  obtain ⟨hcq, hrun⟩ := h.running hc (by rw [hpc]; decide)
  refine ⟨h.toMutexLists.acquire hcq hpc, fun c' hc' => ?_, h.ownerRuns⟩
  obtain rfl : c = c' := some.inj (hc.symm.trans hc')
  rw [if_neg hcq]
  exact hrun

lemma MutexInv.unlock (hc : st.sched.currentThread = some c) (hpc : st.pc c = .holding) :
    ∃ l' q' owner', MutexInv (st.unlocked c) l' q' owner' := by
  obtain ⟨hcq, hrun⟩ := h.running hc (by rw [hpc]; decide)
  obtain ⟨hstate, l', q', owner', hsub, hruns, hlists⟩ := h.toMutexLists.unlock hc hpc
  refine ⟨l', q', owner', hlists, fun c' hc' => ?_, hruns⟩
  have hcur := (globals_eq (mutexUnlock_frame st.sched st.mutex).1).2.1
  obtain rfl : c = c' := some.inj (hc.symm.trans (hcur ▸ hc'))
  rw [if_neg fun hm => hcq (hsub hm)]
  exact (hstate c hcq).trans hrun

lemma MutexInv.step (hstep : MutexStep st st') : ∃ l' q' owner', MutexInv st' l' q' owner' := by
  cases hstep with
  | lock hc hpc he => exact h.lock hc hpc he
  | yield hc hpc hother he =>
    obtain ⟨s1, r1, l', he1, h', hcur⟩ := h.handler hother _
    obtain ⟨rfl, -⟩ := Prod.mk.inj (some.inj (he1.symm.trans he))
    refine ⟨l', q, owner, h'.yield hpc, fun c hc => ?_, h'.ownerRuns⟩
    have hrun := h'.current c hc
    rw [if_neg (hcur c hc)] at hrun ⊢
    exact hrun
  | tick hother he =>
    obtain ⟨s1, r1, l', he1, h', -⟩ := h.handler hother _
    obtain ⟨rfl, -⟩ := Prod.mk.inj (some.inj (he1.symm.trans he))
    exact ⟨l', q, owner, h'⟩
  | acquire hc hpc => exact ⟨l, q, owner, h.acquire hc hpc⟩
  | unlock hc hpc => exact h.unlock hc hpc

end

lemma MutexStart.lists (h : MutexStart st l) (hK : K ⊆ l) : MutexLists K st l [] none := by
  have hq : waitQueues [] = fun _ => [] := update_eq_self (f := fun _ => []) 0
  have hsys : st.system = ⟨st.sched, fun _ => mutexInit, [], []⟩ := by
    rw [MutexState.system, h.mutex, update_eq_self 0 fun _ => mutexInit]
  have hcore := h.ring.core (fun u hu => hK hu) fun _ => waitQueue_init st.sched
  obtain ⟨hentered, hgranted, hacquired⟩ := h.logs
  refine ⟨by rwa [hsys, hq], by simp, fun t ht => absurd (h.outside t) ht, by simp, ?_, by simp,
    ?_, ?_⟩
  · simp [h.mutex, mutexInit]
  · rw [hentered, hgranted]
    rfl
  · rw [hgranted, hacquired]
    rfl

lemma MutexStart.inv (h : MutexStart st l) : MutexInv st l [] none :=
  ⟨h.lists (nil_subset l), fun _ hc => h.ring.running hc, fun _ ht => by cases ht⟩

lemma MutexInv.sound (h : MutexInv st l q owner) : MutexSound st := by
  have hring : ReadyRing st.sched l := h.core.ring
  refine ⟨?_, ⟨fun hlocked t => ?_, fun hout => ?_⟩, ⟨q, h.queue, h.entered, fun hlocked =>
    h.free (h.locked.mp hlocked)⟩, ?_, ⟨l, hring, ?_⟩, ?_⟩
  · intro t u ht hu
    exact some.inj ((h.owner_of_holding ht).symm.trans (h.owner_of_holding hu))
  · have hnone := h.locked.mp hlocked
    by_contra hne
    rcases h.inside t hne with hm | hm
    · rw [h.free hnone] at hm
      exact not_mem_nil hm
    · rw [hnone] at hm
      cases hm
  · refine h.locked.mpr (eq_none_iff_forall_ne_some.mpr fun t ht => ?_)
    exact (h.owns t ht).2 (hout t)
  · have hgranted := h.granted
    cases owner with
    | none => exact .inl (by simpa [pending] using hgranted)
    | some t =>
      by_cases ht : st.pc t = .holding
      · rw [pending_holding ht, append_nil] at hgranted
        exact .inl hgranted
      · rw [pending_waiting ht] at hgranted
        obtain ⟨hl, hs⟩ := h.ownerRuns t rfl
        refine .inr ⟨t, hgranted, fun u hu => ?_, hring.inRing_iff.mpr hl, ?_⟩
        · obtain rfl : t = u := some.inj (h.owner_of_holding hu)
          exact ht hu
        · cases hst : (st.sched.threads t).state <;> simp_all [Stopped]
  · intro c t hc hpc hhead
    have htq : t ∈ q := h.queue.chain.mem_of_head hhead
    have htc : t ≠ c := by
      rintro rfl
      exact (h.owns t (h.owner_of_holding hpc)).1 htq
    exact h.core.queued_outside hc (m := 0) (waitQueues_zero ▸ htq) htc
  · intro hother rsp
    obtain ⟨s', r, -, he, -⟩ := h.handler hother rsp
    exact ⟨s', r, he⟩

/-- Mutual exclusion, first come first served, the thread that is granted the mutex can run, and
only threads outside the ring are put into it, for any number of threads and any preemption. -/
theorem mutex_sound (run : mutexMachine.Reached (fun _ _ => True) st) : MutexSound st := by
  have hstart : ∀ st, mutexMachine.start st → ∃ l q owner, MutexInv st l q owner :=
    fun _ ⟨l, h⟩ => ⟨l, [], none, h.inv⟩
  obtain ⟨l, q, owner, h⟩ := run.invariant hstart fun _ _ _ ⟨_, _, _, h⟩ _ hstep => h.step hstep
  exact h.sound

/-- The three threads of `init_scheduler`, before any of them uses the mutex. -/
def threeThreads : MutexState :=
  ⟨initScheduler (blankScheduler zeroThread) 5 1 2 3 6 7, mutexInit, fun _ => .outside, [], [], []⟩

lemma threeThreads_start : MutexStart threeThreads [1, 2, 3] := by
  have hboot : Boot (blankScheduler zeroThread) (fun _ => mutexInit) 1 2 3 :=
    ⟨rfl, rfl, rfl, by decide, fun _ => ⟨rfl, rfl⟩⟩
  exact ⟨hboot.ringStart 5 6 7, rfl, fun _ => rfl, rfl, rfl, rfl⟩

lemma otherRunnable_of_running {s : Scheduler} (hc : s.currentThread = some c)
    (hrun : (s.threads c).state = .running) : OtherRunnable s := by
  intro c' hc' hs
  obtain rfl : c = c' := some.inj (hc.symm.trans hc')
  rw [Stopped, hrun] at hs
  simp at hs

/-- The main thread takes the mutex, the second thread waits for it and is granted it when the
main thread lets go. It returns from `mutex_lock` when its turn comes, and lets go in turn. -/
theorem mutex_sound_handover : ∃ st st', (MutexSound st ∧ st.granted = [2] ∧ st.acquired = [] ∧
      (st.sched.threads 2).state = .ready ∧ st.mutex.locked = 1) ∧
    MutexSound st' ∧ st'.acquired = [2] ∧ st'.mutex.locked = 0 := by
  have run : mutexMachine.Reached (fun _ _ => True) _ := .step (a := ())
    (.step (a := ()) (.step (a := ()) (.step (a := ()) (.step (a := ())
    (.start ⟨_, threeThreads_start⟩) trivial
    (.lock (c := 1) rfl rfl rfl)) trivial
    (.tick (otherRunnable_of_running (c := 1) rfl rfl) (show schedulerHandler _ 0 = _ from rfl)))
    trivial (.lock (c := 2) rfl rfl rfl)) trivial
    (.yield (c := 2) rfl rfl (fun c hc _ => by
      obtain rfl : 2 = c := some.inj hc
      exact ⟨3, by decide, .there (.there .here), rfl⟩) (show schedulerHandler _ 0 = _ from rfl)))
    trivial (.unlock (c := 1) rfl rfl)
  refine ⟨_, _, ⟨mutex_sound run, rfl, rfl, rfl, rfl⟩, mutex_sound (.step (a := ()) (.step (a := ())
    (.step (a := ()) (.step (a := ()) run trivial
    (.tick (otherRunnable_of_running (c := 1) rfl rfl) (show schedulerHandler _ 0 = _ from rfl)))
    trivial
    (.tick (otherRunnable_of_running (c := 3) rfl rfl) (show schedulerHandler _ 0 = _ from rfl)))
    trivial (.acquire (c := 2) rfl rfl)) trivial (.unlock (c := 2) rfl rfl)), rfl, rfl⟩

end DestinX.Sched
