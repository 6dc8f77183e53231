import DestinX.Sched.MutexRuns
import DestinX.Terminal.Keyboard

/-!
# Threads that wait for a line

`terminal_read` of `drivers/video/console.c`, called by any number of threads. The keyboard and
the timer can come between any two steps: between two slots that `check_for_n` looks at, and
between the check, the store to `read_blocked_thread`, the store to the state of the thread and
`yield`.

The threads of `K` do not read from the terminal. `enterSince` records whether Enter was handled
since the last call of `check_for_n` began.
-/

namespace DestinX.Terminal

open Base Fs Sched Function List Option

/-- Where a thread is that has `term_read_mutex`. -/
inductive Stage where
  | scan (i : Nat)
  | publish
  | block
  | yield
  | waiting
  | flush (i : Nat)
  | unlock
  deriving DecidableEq, Repr

structure Console where
  lock : MutexState
  stage : Nat → Stage
  count : Nat → Nat
  buf : Nat → List UInt8
  keyboard : Keyboard
  readBlocked : Option Nat
  enterSince : Bool

def Console.sched (st : Console) : Scheduler := st.lock.sched

def Console.state (st : Console) (t : Nat) : ThreadState := (st.sched.threads t).state

def Console.setSched (st : Console) (s : Scheduler) : Console :=
  { st with lock := { st.lock with sched := s } }

def Console.setStage (st : Console) (c : Nat) (stage : Stage) : Console :=
  { st with stage := update st.stage c stage }

/-! ## Steps -/

/-- The thread enters `terminal_read` and comes to the end of the spinlock section of
`mutex_lock`. -/
def Console.call (st : Console) (c count : Nat) (s : Scheduler) (mutex : Mutex) : Console :=
  { st with
    lock := st.lock.locking c s mutex
    stage := update st.stage c (.scan 0)
    count := update st.count c count
    buf := update st.buf c []
    enterSince := if st.lock.mutex.locked = 0 then false else st.enterSince }

/-- The thread returns from a `mutex_lock` in which it waited. -/
def Console.acquire (st : Console) (c : Nat) : Console :=
  { st with
    lock := st.lock.acquire c
    stage := update st.stage c (.scan 0)
    enterSince := false }

/-- `check_for_n` looks at slot `i`. -/
def Console.scan (st : Console) (c i : Nat) : Console :=
  st.setStage c (if (st.keyboard.read.slots i).isNewline then .flush 0
      else if i + 1 = kringBufMax then .publish
      else .scan (i + 1))

/-- A round of the loop of `kring_flush_to_rbuf`. -/
def Console.flush (st : Console) (c i : Nat) : Console :=
  let next := st.keyboard.read.readNext
  { st with
    keyboard := { st.keyboard with read := next.2 }
    buf := update st.buf c (st.buf c ++ [next.1])
    stage := update st.stage c
      (if next.1 = newline ∨ i + 1 = st.count c then .unlock else .flush (i + 1)) }

def Console.unlock (st : Console) (c : Nat) : Console := { st with lock := st.lock.unlocked c }

/-- The end of the case for Enter in `keyboard_handler`. -/
def wakeReader (s : Scheduler) : Option Nat → Scheduler
  | none => s
  | some t => enqueueThread (s.modify t (Thread.setState .ready)) t

def Console.key (st : Console) (rawCode : UInt8) : Console :=
  if PressesEnter rawCode then
    { st.setSched (wakeReader st.sched st.readBlocked) with
      keyboard := keyboardHandler st.keyboard rawCode
      readBlocked := none
      enterSince := true }
  else { st with keyboard := keyboardHandler st.keyboard rawCode }

inductive ConsoleAction where
  | call (count : Nat)
  | run
  | tick
  | key (rawCode : UInt8)

/-- Thread `c` runs and is at the given place. -/
structure AtStage (st : Console) (c : Nat) (stage : Stage) : Prop where
  current : st.sched.currentThread = some c
  holding : st.lock.pc c = .holding
  stage : st.stage c = stage

inductive ConsoleStep (K : List Nat) : Console → ConsoleAction → Console → Prop
  | call {st : Console} {c count : Nat} {s : Scheduler} {mutex : Mutex}
      (hc : st.sched.currentThread = some c) (hK : c ∉ K) (hpc : st.lock.pc c = .outside)
      (hcount : count ≠ 0) (he : mutexLock st.sched st.lock.mutex = some (s, mutex)) :
      ConsoleStep K st (.call count) (st.call c count s mutex)
  | lockYield {st : Console} {c rsp r : Nat} {s : Scheduler}
      (hc : st.sched.currentThread = some c) (hpc : st.lock.pc c = .queued)
      (he : schedulerHandler st.sched rsp = some (s, r)) :
      ConsoleStep K st .run { st with lock := { st.lock with
        sched := s
        pc := update st.lock.pc c .yielded } }
  | acquire {st : Console} {c : Nat} (hc : st.sched.currentThread = some c)
      (hpc : st.lock.pc c = .yielded) : ConsoleStep K st .run (st.acquire c)
  | scan {st : Console} {c i : Nat} (hat : AtStage st c (.scan i)) :
      ConsoleStep K st .run (st.scan c i)
  | publish {st : Console} {c : Nat} (hat : AtStage st c .publish) :
      ConsoleStep K st .run { st.setStage c .block with readBlocked := some c }
  | block {st : Console} {c : Nat} (hat : AtStage st c .block) :
      ConsoleStep K st .run
        ((st.setSched (st.sched.modify c (Thread.setState .blocked))).setStage c .yield)
  | yield {st : Console} {c rsp r : Nat} {s : Scheduler} (hat : AtStage st c .yield)
      (he : schedulerHandler st.sched rsp = some (s, r)) :
      ConsoleStep K st .run ((st.setSched s).setStage c .waiting)
  | wake {st : Console} {c : Nat} (hat : AtStage st c .waiting) :
      ConsoleStep K st .run (st.setStage c (.flush 0))
  | flush {st : Console} {c i : Nat} (hat : AtStage st c (.flush i)) :
      ConsoleStep K st .run (st.flush c i)
  | unlock {st : Console} {c : Nat} (hat : AtStage st c .unlock) :
      ConsoleStep K st .run (st.unlock c)
  | tick {st : Console} {rsp r : Nat} {s : Scheduler}
      (he : schedulerHandler st.sched rsp = some (s, r)) :
      ConsoleStep K st .tick (st.setSched s)
  | key {st : Console} {rawCode : UInt8} : ConsoleStep K st (.key rawCode) (st.key rawCode)

/-- All threads are in the ring and outside `terminal_read`. The slots hold anything. -/
structure ConsoleStart (K : List Nat) (st : Console) : Prop where
  lock : ∃ l, MutexStart st.lock l ∧ K ⊆ l
  kernel : K ≠ []
  nobody : st.readBlocked = none

def consoleMachine (K : List Nat) : Machine Console ConsoleAction where
  start := ConsoleStart K
  step := ConsoleStep K

/-- The thread is blocked behind the mutex, so not by it. -/
def BlockedInRead (st : Console) (t : Nat) : Prop :=
  st.lock.pc t = .holding ∧ st.state t = .blocked

/-- The thread has stored itself in `read_blocked_thread` and is not switched out yet. -/
def Leaving (st : Console) (t : Nat) : Prop :=
  st.stage t = .block ∨ (st.stage t = .yield ∧ st.sched.currentThread = some t)

/-- Enter is not handled while the waiting thread is still in the ring, nor between the
beginning of a `check_for_n` that finds nothing and the store to `read_blocked_thread`. -/
def Timely (st : Console) : ConsoleAction → Prop
  | .key rawCode => PressesEnter rawCode → ∀ t, st.readBlocked = some t → ¬ Leaving st t
  | .run => ∀ c, AtStage st c .publish → st.enterSince = false
  | _ => True

variable {K l q : List Nat} {st st' : Console} {act : ConsoleAction} {owner : Option Nat}
  {c t i count : Nat} {s : Scheduler} {mutex : Mutex} {rawCode : UInt8}

/-! ## The invariant -/

/-- The current thread runs, or it is on its way to a `yield` after it was blocked. -/
def CurrentKept (st : Console) (q : List Nat) : Prop :=
  ∀ c, st.sched.currentThread = some c → st.state c = .running ∨
    (c ∈ q ∧ st.lock.pc c = .queued) ∨
    (st.state c = .blocked ∧ st.lock.pc c = .holding ∧ st.stage c = .yield)

structure ReaderKept (st : Console) (q : List Nat) : Prop where
  current : CurrentKept st q
  asleep : ∀ t, BlockedInRead st t → st.readBlocked = some t
  published : ∀ t, st.readBlocked = some t → st.lock.pc t = .holding ∧
    (st.stage t = .block ∨
      ((st.stage t = .yield ∨ st.stage t = .waiting) ∧ st.state t = .blocked))
  blocking : ∀ t, st.lock.pc t = .holding → st.stage t = .block → st.readBlocked = some t
  unread : st.readBlocked ≠ none → ¬ st.keyboard.read.Unread
  scanned : ∀ t i, st.lock.pc t = .holding → st.stage t = .scan i → st.enterSince = false →
    ∀ j < i, ¬ (st.keyboard.read.slots j).isNewline
  checked : ∀ t, st.lock.pc t = .holding → st.stage t = .publish → st.enterSince = false →
    ¬ st.keyboard.read.Unread

structure ConsoleKept (K : List Nat) (st : Console) (l q : List Nat) (owner : Option Nat) :
    Prop where
  lists : MutexLists K st.lock l q owner
  kernel : K ≠ []
  outside : ∀ t ∈ K, st.lock.pc t = .outside
  live : ∀ t, st.lock.pc t ≠ .outside → t ∈ st.sched.live
  reader : ReaderKept st q

/-- A step that leaves the thread behind the mutex alone. -/
lemma ReaderKept.congr {q' : List Nat} (h : ReaderKept st q) (hcurrent : CurrentKept st' q')
    (hread : st'.readBlocked = st.readBlocked) (hkeys : st'.keyboard = st.keyboard)
    (hsince : st'.enterSince = st.enterSince)
    (hsame : ∀ t, st.lock.pc t = .holding ∨ st'.lock.pc t = .holding →
      st'.lock.pc t = st.lock.pc t ∧ st'.stage t = st.stage t ∧
        (st'.state t = .blocked ↔ st.state t = .blocked)) : ReaderKept st' q' := by
  have hback : ∀ t, st'.lock.pc t = .holding → st.lock.pc t = .holding ∧
      st'.stage t = st.stage t ∧ (st'.state t = .blocked ↔ st.state t = .blocked) := fun t ht =>
    ⟨(hsame t (.inr ht)).1 ▸ ht, (hsame t (.inr ht)).2⟩
  refine ⟨hcurrent, ?_, ?_, ?_, ?_, ?_, ?_⟩
  · rintro t ⟨ht, hblocked⟩
    obtain ⟨hhold, -, hstate⟩ := hback t ht
    exact hread.trans (h.asleep t ⟨hhold, hstate.mp hblocked⟩)
  · intro t ht
    obtain ⟨hhold, hcase⟩ := h.published t (hread ▸ ht)
    obtain ⟨hpc, hstage, hstate⟩ := hsame t (.inl hhold)
    rw [hpc, hstage, hstate]
    exact ⟨hhold, hcase⟩
  · intro t ht hblock
    obtain ⟨hhold, hstage, -⟩ := hback t ht
    exact hread.trans (h.blocking t hhold (hstage ▸ hblock))
  · rw [hread, hkeys]
    exact h.unread
  · intro t i ht hscan
    obtain ⟨hhold, hstage, -⟩ := hback t ht
    rw [hsince, hkeys]
    exact h.scanned t i hhold (hstage ▸ hscan)
  · intro t ht hpub
    obtain ⟨hhold, hstage, -⟩ := hback t ht
    rw [hsince, hkeys]
    exact h.checked t hhold (hstage ▸ hpub)

lemma readerKept_of_free (hcurrent : CurrentKept st q) (hnone : st.readBlocked = none)
    (hfree : ∀ t, st.lock.pc t ≠ .holding) : ReaderKept st q :=
  ⟨hcurrent, fun t hb => absurd hb.1 (hfree t), fun _ ht => (nomatch hnone.symm.trans ht),
    fun t hhold => absurd hhold (hfree t), fun hne => absurd hnone hne,
    fun t _ hhold => absurd hhold (hfree t), fun t hhold => absurd hhold (hfree t)⟩

section

variable (h : ConsoleKept K st l q owner)
include h

lemma ConsoleKept.holder (hc : st.lock.pc c = .holding) (ht : st.lock.pc t = .holding) : t = c :=
  some.inj ((h.lists.owner_of_holding ht).symm.trans (h.lists.owner_of_holding hc))

lemma ConsoleKept.not_queued (hc : st.lock.pc c = .holding) :
    c ∉ q := (h.lists.owns c (h.lists.owner_of_holding hc)).1

/-- The current thread runs, unless it is on its way to `yield`. -/
lemma ConsoleKept.running (hc : st.sched.currentThread = some c) (hpc : st.lock.pc c ≠ .queued)
    (hstage : st.lock.pc c = .holding → st.stage c ≠ .yield) : st.state c = .running := by
  rcases h.reader.current c hc with hrun | ⟨-, hqueued⟩ | ⟨-, hhold, hyield⟩
  · exact hrun
  · exact absurd hqueued hpc
  · exact absurd hyield (hstage hhold)

lemma ConsoleKept.running_of_pc {pc : LockPc} (hc : st.sched.currentThread = some c)
    (hpc : st.lock.pc c = pc) (hne : pc ≠ .queued ∧ pc ≠ .holding) : st.state c = .running := by
  subst hpc
  exact h.running hc hne.1 fun heq => absurd heq hne.2

lemma ConsoleKept.running_at {stage : Stage} (hat : AtStage st c stage)
    (hstage : stage ≠ .yield) : st.state c = .running := by
  refine h.running hat.current ?_ fun _ => ?_
  · rw [hat.holding]
    decide
  · rw [hat.stage]
    exact hstage

/-- While the thread with the mutex runs, it is stored in `read_blocked_thread` only on its way
to block. -/
lemma ConsoleKept.nobody (hc : st.lock.pc c = .holding) (hrun : st.state c = .running)
    (hstage : st.stage c ≠ .block) : st.readBlocked = none := by
  by_contra hne
  obtain ⟨t, ht⟩ := ne_none_iff_exists'.mp hne
  obtain ⟨hhold, hcase⟩ := h.reader.published t ht
  obtain rfl := h.holder hc hhold
  rcases hcase with hblock | ⟨-, hblocked⟩
  · exact hstage hblock
  · rw [hrun] at hblocked
    cases hblocked

/-- Nobody waits while nobody has the mutex. -/
lemma ConsoleKept.nobody_of_free (hfree : ∀ t, st.lock.pc t ≠ .holding) :
    st.readBlocked = none := by
  by_contra hne
  obtain ⟨t, ht⟩ := ne_none_iff_exists'.mp hne
  exact hfree t (h.reader.published t ht).1

lemma ConsoleKept.not_kernel (hc : st.lock.pc c ≠ .outside) :
    c ∉ K := fun hK => hc (h.outside c hK)

end

/-- The thread that runs is the only one behind the mutex. -/
lemma console_kept_of_running (hlists : MutexLists K st.lock l q owner) (hkernel : K ≠ [])
    (houtside : ∀ t ∈ K, st.lock.pc t = .outside)
    (hlive : ∀ t, st.lock.pc t ≠ .outside → t ∈ st.sched.live)
    (hcur : st.sched.currentThread = some c) (hrun : st.state c = .running)
    (hhold : st.lock.pc c = .holding) (hblock : st.stage c = .block ↔ st.readBlocked = some c)
    (hnone : st.readBlocked = none ∨ st.readBlocked = some c)
    (hunread : st.readBlocked ≠ none → ¬ st.keyboard.read.Unread)
    (hscan : ∀ i, st.stage c = .scan i → st.enterSince = false → ∀ j < i,
      ¬ (st.keyboard.read.slots j).isNewline)
    (hcheck : st.stage c = .publish → st.enterSince = false → ¬ st.keyboard.read.Unread) :
    ConsoleKept K st l q owner := by
  have hholder : ∀ t, st.lock.pc t = .holding → t = c := fun t ht =>
    some.inj ((hlists.owner_of_holding ht).symm.trans (hlists.owner_of_holding hhold))
  refine ⟨hlists, hkernel, houtside, hlive, ?_, ?_, ?_, ?_, hunread, ?_, ?_⟩
  · intro c' hc'
    obtain rfl : c = c' := some.inj (hcur.symm.trans hc')
    exact .inl hrun
  · rintro t ⟨hhold, hblocked⟩
    obtain rfl := hholder t hhold
    rw [hrun] at hblocked
    cases hblocked
  · intro t ht
    rcases hnone with hnone | hsome
    · rw [hnone] at ht
      cases ht
    · obtain rfl : c = t := some.inj (hsome.symm.trans ht)
      exact ⟨hhold, .inl (hblock.mpr hsome)⟩
  · intro t hhold hstage
    obtain rfl := hholder t hhold
    exact hblock.mp hstage
  · intro t i hhold hstage
    obtain rfl := hholder t hhold
    exact hscan i hstage
  · intro t hhold hstage
    obtain rfl := hholder t hhold
    exact hcheck hstage

/-- A step of the thread with the mutex that leaves the scheduler and the mutex as they are. -/
lemma ConsoleKept.advance (h : ConsoleKept K st l q owner) {stage : Stage}
    (hat : AtStage st c stage) (hrun : st.state c = .running) (hlock : st'.lock = st.lock)
    (hblock : st'.stage c = .block ↔ st'.readBlocked = some c)
    (hnone : st'.readBlocked = none ∨ st'.readBlocked = some c)
    (hunread : st'.readBlocked ≠ none → ¬ st'.keyboard.read.Unread)
    (hscan : ∀ i, st'.stage c = .scan i → st'.enterSince = false → ∀ j < i,
      ¬ (st'.keyboard.read.slots j).isNewline)
    (hcheck : st'.stage c = .publish → st'.enterSince = false → ¬ st'.keyboard.read.Unread) :
    ConsoleKept K st' l q owner := by
  have hsched : st'.sched = st.sched := congrArg MutexState.sched hlock
  refine console_kept_of_running (c := c) (hlock ▸ h.lists) h.kernel (hlock ▸ h.outside)
    (hsched ▸ hlock ▸ h.live) (hsched ▸ hat.current) ?_ (hlock ▸ hat.holding) hblock hnone hunread
    hscan hcheck
  rw [Console.state, hsched]
  exact hrun

lemma console_kept_of_taken (hlists : MutexLists K st.lock l q owner) (hkernel : K ≠ [])
    (houtside : ∀ t ∈ K, st.lock.pc t = .outside)
    (hlive : ∀ t, st.lock.pc t ≠ .outside → t ∈ st.sched.live)
    (hcur : st.sched.currentThread = some c) (hrun : st.state c = .running)
    (hhold : st.lock.pc c = .holding) (hstage : st.stage c = .scan 0)
    (hnone : st.readBlocked = none) : ConsoleKept K st l q owner := by
  refine console_kept_of_running hlists hkernel houtside hlive hcur hrun hhold ?_ (.inl hnone)
    (fun hne => absurd hnone hne) ?_ ?_
  · rw [hstage, hnone]
    simp
  · intro i hi _ j hj
    cases hstage.symm.trans hi
    exact absurd hj (Nat.not_lt_zero j)
  · intro hpub
    cases hstage.symm.trans hpub

/-! ## Steps of the reader -/

section

variable (h : ConsoleKept K st l q owner)
include h

lemma ConsoleKept.scan (hat : AtStage st c (.scan i)) :
    ConsoleKept K (st.scan c i) l q owner := by
  have hrun := h.running_at hat (by simp)
  have hnone : st.readBlocked = none :=
    h.nobody hat.holding hrun (by rw [hat.stage]; simp)
  have hstage : (st.scan c i).stage c = if (st.keyboard.read.slots i).isNewline then .flush 0
      else if i + 1 = kringBufMax then .publish else .scan (i + 1) := update_self _ _ _
  have hkept : ∀ j < i, st.enterSince = false → ¬ (st.keyboard.read.slots j).isNewline :=
    fun j hj he => h.reader.scanned c i hat.holding hat.stage he j hj
  refine h.advance hat hrun rfl ?_ (.inl hnone) (fun hne => absurd hnone hne) ?_ ?_
  · rw [hstage, show (st.scan c i).readBlocked = none from hnone]
    split_ifs <;> simp
  · intro i' hi' he j hj
    rw [hstage] at hi'
    split_ifs at hi' with hnew hlast
    cases hi'
    rcases Nat.lt_succ_iff_lt_or_eq.mp hj with hlt | rfl
    · exact hkept j hlt he
    · exact hnew
  · intro hpub he hunread
    rw [hstage] at hpub
    split_ifs at hpub with hnew hlast
    obtain ⟨j, hj, hjnew⟩ := hunread
    rw [← hlast] at hj
    rcases Nat.lt_succ_iff_lt_or_eq.mp hj with hlt | rfl
    · exact hkept j hlt he hjnew
    · exact hnew hjnew

lemma ConsoleKept.publish (hat : AtStage st c .publish) (hsince : st.enterSince = false) :
    ConsoleKept K { st.setStage c .block with readBlocked := some c } l q owner := by
  have hstage : (st.setStage c .block).stage c = .block := update_self _ _ _
  refine h.advance hat (h.running_at hat (by simp)) rfl (iff_of_true hstage rfl) (.inr rfl)
    (fun _ => h.reader.checked c hat.holding hat.stage hsince) ?_ ?_
  · intro i hi
    cases hstage.symm.trans hi
  · intro hpub
    cases hstage.symm.trans hpub

/-- A step of the reader to `kring_flush_to_rbuf` or in it. -/
lemma ConsoleKept.read_on {stage : Stage} (hat : AtStage st c stage) (hyield : stage ≠ .yield)
    (hblock : stage ≠ .block) (hlock : st'.lock = st.lock)
    (hread : st'.readBlocked = st.readBlocked)
    (hstage : (∃ i, st'.stage c = .flush i) ∨ st'.stage c = .unlock) :
    ConsoleKept K st' l q owner := by
  have hrun := h.running_at hat hyield
  have hnone : st'.readBlocked = none := by
    rw [hread]
    exact h.nobody hat.holding hrun (hat.stage ▸ hblock)
  refine h.advance hat hrun hlock ?_ (.inl hnone) (fun hne => absurd hnone hne) ?_ ?_
  · rw [hnone]
    rcases hstage with ⟨i, heq⟩ | heq <;> simp [heq]
  · intro i hi
    rcases hstage with ⟨j, heq⟩ | heq <;> cases heq.symm.trans hi
  · intro hpub
    rcases hstage with ⟨j, heq⟩ | heq <;> cases heq.symm.trans hpub

lemma ConsoleKept.flush (hat : AtStage st c (.flush i)) :
    ConsoleKept K (st.flush c i) l q owner := by
  refine h.read_on hat (by simp) (by simp) rfl rfl ?_
  have heq : (st.flush c i).stage c =
      if st.keyboard.read.readNext.1 = newline ∨ i + 1 = st.count c then .unlock
      else .flush (i + 1) := update_self _ _ _
  rw [heq]
  split_ifs
  · exact .inr rfl
  · exact .inl ⟨i + 1, rfl⟩

end

lemma mark_blocked_lists {lock : MutexState} (h : MutexLists K lock l q owner)
    (hc : lock.sched.currentThread = some c) (hrun : (lock.sched.threads c).state = .running)
    (hK : c ∉ K) :
    MutexLists K { lock with sched := lock.sched.modify c (Thread.setState .blocked) } l q owner :=
  ⟨h.core.mark_state hc hrun hK .blocked (by decide), h.waiting, h.inside, h.owns, h.locked,
    h.free, h.entered, h.granted⟩

section

variable (h : ConsoleKept K st l q owner)
include h

lemma ConsoleKept.block (hat : AtStage st c .block) :
    ConsoleKept K ((st.setSched (st.sched.modify c (Thread.setState .blocked))).setStage c .yield)
      l q owner := by
  have hrun := h.running_at hat (by simp)
  have hK : c ∉ K := h.not_kernel (by rw [hat.holding]; decide)
  have hread : st.readBlocked = some c := h.reader.blocking c hat.holding hat.stage
  have hstage : update st.stage c .yield c = .yield := update_self _ _ _
  have hblocked :
      ((st.sched.modify c (Thread.setState .blocked)).threads c).state = .blocked := by simp
  refine ⟨mark_blocked_lists h.lists hat.current hrun hK, h.kernel, h.outside, h.live, ?_, ?_, ?_,
    ?_, h.reader.unread, ?_, ?_⟩
  · intro c' hc'
    obtain rfl : c = c' := some.inj (hat.current.symm.trans hc')
    exact .inr (.inr ⟨hblocked, hat.holding, hstage⟩)
  · rintro t ⟨hhold, -⟩
    obtain rfl := h.holder hat.holding hhold
    exact hread
  · intro t ht
    obtain rfl : c = t := some.inj (hread.symm.trans ht)
    exact ⟨hat.holding, .inr ⟨.inl hstage, hblocked⟩⟩
  · intro t hhold hblock
    obtain rfl := h.holder hat.holding hhold
    cases hstage.symm.trans hblock
  · intro t i hhold hscan
    obtain rfl := h.holder hat.holding hhold
    cases hstage.symm.trans hscan
  · intro t hhold hpub
    obtain rfl := h.holder hat.holding hhold
    cases hstage.symm.trans hpub

/-! ## The scheduler -/

lemma ConsoleKept.handler {rsp r : Nat} (he : schedulerHandler st.sched rsp = some (s, r)) :
    ∃ l', MutexLists K { st.lock with sched := s } l' q owner ∧ s.live = st.sched.live ∧
      (∀ c, s.currentThread = some c → (s.threads c).state = .running) ∧
      ∀ u, (s.threads u).state = .blocked ↔ (st.sched.threads u).state = .blocked := by
  obtain ⟨c, hc, -, -⟩ := h.lists.core.current
  have hc : st.sched.currentThread = some c := hc
  have hblockedOr : st.state c = .running ∨ st.state c = .blocked := by
    rcases h.reader.current c hc with hrun | ⟨hq, -⟩ | ⟨hblocked, -, -⟩
    · exact .inl hrun
    · exact .inr (h.lists.blocked hq)
    · exact .inr hblocked
  have hnd : (st.lock.sched.threads c).state ≠ .dead := by
    rcases hblockedOr with heq | heq <;> rw [Console.state, Console.sched] at heq <;> rw [heq] <;>
      decide
  have hone : Stopped st.lock.sched c → l ≠ [c] := by
    rintro hs rfl
    obtain ⟨k, hk⟩ := exists_mem_of_ne_nil K h.kernel
    obtain ⟨hmem, hns⟩ := h.lists.core.keep k hk
    rw [mem_singleton.mp hmem] at hns
    exact hns hs
  obtain ⟨s', r', l', n, he', hlists, hn, -, hback, -⟩ := h.lists.handler hc hnd hone rsp
  obtain ⟨rfl, -⟩ := Prod.mk.inj (some.inj (he'.symm.trans he))
  refine ⟨l', hlists, hn.live, fun c' hc' => ?_, fun u => ⟨hback u, hn.blocked u⟩⟩
  obtain rfl : n = c' := some.inj (hn.current.symm.trans hc')
  exact hn.running

lemma ConsoleKept.tick {rsp r : Nat} (he : schedulerHandler st.sched rsp = some (s, r)) :
    ∃ l', ConsoleKept K (st.setSched s) l' q owner := by
  obtain ⟨l', hlists, hlive, hrunning, hblocked⟩ := h.handler he
  refine ⟨l', hlists, h.kernel, h.outside, fun t ht => ?_,
    h.reader.congr (fun c hc => .inl (hrunning c hc)) rfl rfl rfl fun t _ => ⟨rfl, rfl, hblocked t⟩⟩
  have hmem := h.live t ht
  rw [← hlive] at hmem
  exact hmem

lemma ConsoleKept.yield (hhold : st.lock.pc c = .holding) (hat : st.stage c = .yield)
    (hrun : ∀ c, st.sched.currentThread = some c → st.state c = .running) :
    ConsoleKept K (st.setStage c .waiting) l q owner := by
  have hk := h.reader
  have hstage : update st.stage c .waiting c = .waiting := update_self _ _ _
  refine ⟨h.lists, h.kernel, h.outside, h.live, fun c hc => .inl (hrun c hc), hk.asleep, ?_, ?_,
    hk.unread, ?_, ?_⟩
  · intro t ht
    obtain ⟨hhold', hcase⟩ := hk.published t ht
    obtain rfl := h.holder hhold hhold'
    refine ⟨hhold', .inr ⟨.inr hstage, ?_⟩⟩
    rcases hcase with hblock | ⟨-, hblocked⟩
    · cases hat.symm.trans hblock
    · exact hblocked
  · intro t hhold' hblock
    obtain rfl := h.holder hhold hhold'
    cases hstage.symm.trans hblock
  · intro t i hhold' hscan
    obtain rfl := h.holder hhold hhold'
    cases hstage.symm.trans hscan
  · intro t hhold' hpub
    obtain rfl := h.holder hhold hhold'
    cases hstage.symm.trans hpub

/-! ## The mutex -/

lemma ConsoleKept.current_live (hc : st.sched.currentThread = some c) : c ∈ st.sched.live :=
  h.lists.core.mem_live (h.lists.core.current_mem hc)

/-- Only the running thread comes to another place in `mutex_lock` and `mutex_unlock`. -/
lemma ConsoleKept.outside_update (hK : c ∉ K) (pc : LockPc) :
    ∀ t ∈ K, update st.lock.pc c pc t = .outside := by
  intro t ht
  have htc : t ≠ c := fun he => hK (he ▸ ht)
  rw [update_of_ne htc]
  exact h.outside t ht

section

variable (hc : st.sched.currentThread = some c)
include hc

lemma ConsoleKept.live_update (pc : LockPc) :
    ∀ t, update st.lock.pc c pc t ≠ .outside → t ∈ st.sched.live := by
  intro t ht
  by_cases htc : t = c
  · subst htc
    exact h.current_live hc
  · rw [update_of_ne htc] at ht
    exact h.live t ht

lemma ConsoleKept.call_free (hK : c ∉ K) (hpc : st.lock.pc c = .outside)
    (hlocked : st.lock.mutex.locked = 0) (count : Nat) :
    ConsoleKept K (st.call c count st.sched { st.lock.mutex with locked := 1 }) l [] (some c) := by
  have hrun := h.running_of_pc hc hpc (by decide)
  have hnone : st.readBlocked = none := by
    refine h.nobody_of_free fun t ht => ?_
    have howner := h.lists.owner_of_holding ht
    rw [h.lists.locked.mp hlocked] at howner
    cases howner
  have hpc' : (st.call c count st.sched { st.lock.mutex with locked := 1 }).lock.pc =
      update st.lock.pc c .holding := by rw [Console.call, MutexState.locking, if_pos hlocked]
  refine console_kept_of_taken (h.lists.lock_free hlocked) h.kernel ?_ ?_ hc hrun ?_
    (update_self _ _ _) hnone
  · exact h.outside_update hK _
  · exact h.live_update hc _
  · rw [hpc']
    exact update_self _ _ _

lemma ConsoleKept.call_queued (hK : c ∉ K) (hpc : st.lock.pc c = .outside)
    (hlocked : st.lock.mutex.locked ≠ 0) (count : Nat) :
    ConsoleKept K (st.call c count (queueThread st.sched st.lock.mutex c).1
      (queueThread st.sched st.lock.mutex c).2) l (q ++ [c]) owner := by
  have hrun := h.running_of_pc hc hpc (by decide)
  have hcq := h.lists.not_mem_of_running hrun
  obtain ⟨-, -, hqd⟩ := h.lists.queue.queueThread hcq
  obtain ⟨hlive, hcur, -⟩ := globals_eq hqd.globals
  have hlists := h.lists.lock_queued hc hrun hK hpc hlocked
  rw [MutexState.locking, if_neg hlocked, if_neg hlocked] at hlists
  have hstate : ∀ t, t ≠ c →
      ((queueThread st.sched st.lock.mutex c).1.threads t).state = st.state t := by
    intro t htc
    have heq := hqd.state t
    rwa [if_neg htc] at heq
  have hcall : ∀ s mutex, st.call c count s mutex = { st with
        lock := { st.lock with
          sched := s
          mutex := mutex
          pc := update st.lock.pc c .queued
          entered := st.lock.entered ++ [c] }
        stage := update st.stage c (.scan 0)
        count := update st.count c count
        buf := update st.buf c [] } := by
    intro s mutex
    rw [Console.call, MutexState.locking, if_neg hlocked, if_neg hlocked, if_neg hlocked]
  rw [hcall]
  refine ⟨hlists, h.kernel, h.outside_update hK _, fun t ht => hlive ▸ h.live_update hc _ t ht,
    h.reader.congr (fun c' hc' => ?_) rfl rfl rfl fun t ht => ?_⟩
  · obtain rfl : c = c' := some.inj (hc.symm.trans (hcur ▸ hc'))
    exact .inr (.inl ⟨mem_append_right _ (mem_singleton_self c), update_self _ _ _⟩)
  · have htc : t ≠ c := by
      rintro rfl
      rcases ht with ht | ht
      · cases hpc.symm.trans ht
      · cases (update_self ..).symm.trans ht
    exact ⟨update_of_ne htc _ _, update_of_ne htc _ _, by rw [Console.state, ← hstate t htc]; rfl⟩

lemma ConsoleKept.call (hK : c ∉ K) (hpc : st.lock.pc c = .outside)
    (he : mutexLock st.sched st.lock.mutex = some (s, mutex)) (count : Nat) :
    ∃ l' q' owner', ConsoleKept K (st.call c count s mutex) l' q' owner' := by
  rw [mutexLock] at he
  split_ifs at he with hlocked
  · cases he
    exact ⟨l, [], some c, h.call_free hc hK hpc hlocked count⟩
  · rw [hc] at he
    obtain ⟨rfl, rfl⟩ := Prod.mk.inj (some.inj he)
    exact ⟨l, q ++ [c], owner, h.call_queued hc hK hpc hlocked count⟩

end

lemma ConsoleKept.lockYield (hpc : st.lock.pc c = .queued)
    (hrun : ∀ c, st.sched.currentThread = some c → st.state c = .running) :
    ConsoleKept K { st with lock := { st.lock with
      pc := update st.lock.pc c .yielded } } l q owner := by
  have hupdate : ∀ t x, x ≠ LockPc.queued → st.lock.pc t = x →
      update st.lock.pc c .yielded t = x := by
    rintro t x hx rfl
    refine update_of_ne (fun htc => hx ?_) _ _
    rw [htc]
    exact hpc
  refine ⟨h.lists.yield hpc, h.kernel, fun t ht => hupdate t .outside (by decide) (h.outside t ht),
    fun t ht => h.live t fun hout => ht (hupdate t .outside (by decide) hout),
    h.reader.congr (fun c hc => .inl (hrun c hc)) rfl rfl rfl fun t ht => ⟨?_, rfl, Iff.rfl⟩⟩
  have htc : t ≠ c := by
    rintro rfl
    rcases ht with ht | ht
    · cases hpc.symm.trans ht
    · cases (update_self ..).symm.trans ht
  exact update_of_ne htc _ _

lemma ConsoleKept.acquire (hc : st.sched.currentThread = some c) (hpc : st.lock.pc c = .yielded) :
    ConsoleKept K (st.acquire c) l q owner := by
  have hrun := h.running_of_pc hc hpc (by decide)
  have hcq := h.lists.not_mem_of_running hrun
  have hin : st.lock.pc c ≠ .outside := by
    rw [hpc]
    decide
  have hnone : st.readBlocked = none := by
    refine h.nobody_of_free fun t ht => ?_
    have hsome := (h.lists.inside c hin).resolve_left hcq
    obtain rfl : t = c := some.inj ((h.lists.owner_of_holding ht).symm.trans hsome)
    rw [hpc] at ht
    cases ht
  exact console_kept_of_taken (h.lists.acquire hcq hpc) h.kernel
    (h.outside_update (h.not_kernel hin) _) (h.live_update hc _) hc hrun
    (update_self _ _ _) (update_self _ _ _) hnone

lemma ConsoleKept.unlock (hat : AtStage st c .unlock) :
    ∃ l' q' owner', ConsoleKept K (st.unlock c) l' q' owner' := by
  have hrun := h.running_at hat (by simp)
  have hnone : st.readBlocked = none :=
    h.nobody hat.holding hrun (by rw [hat.stage]; simp)
  obtain ⟨hlive, hcur, -⟩ := globals_eq (mutexUnlock_frame st.lock.sched st.lock.mutex).1
  obtain ⟨hstate, l', q', owner', -, -, hlists⟩ := h.lists.unlock hat.current hat.holding
  have hK : c ∉ K := h.not_kernel (by rw [hat.holding]; decide)
  -- behind the call nobody is behind the mutex
  have hfree : ∀ t, update st.lock.pc c .outside t ≠ .holding := by
    intro t ht
    by_cases htc : t = c
    · subst htc
      rw [update_self] at ht
      cases ht
    · rw [update_of_ne htc] at ht
      exact htc (h.holder hat.holding ht)
  refine ⟨l', q', owner', hlists, h.kernel, h.outside_update hK _,
    fun t ht => hlive ▸ h.live_update hat.current _ t ht,
    readerKept_of_free (fun c' hc' => ?_) hnone hfree⟩
  obtain rfl : c = c' := some.inj (hat.current.symm.trans (hcur ▸ hc'))
  exact .inl ((hstate c (h.not_queued hat.holding)).trans hrun)

end

/-! ## The keyboard -/

lemma mem_waitQueues {u m : Nat} (hu : u ∈ waitQueues q m) : u ∈ q := by
  by_cases hm : m = 0
  · subst hm
    rwa [waitQueues_zero] at hu
  · rw [waitQueues, update_of_ne hm] at hu
    cases hu

lemma wake_lists {lock : MutexState} (h : MutexLists K lock l q owner) (htl : t ∉ l)
    (htq : t ∉ q) (hlive : t ∈ lock.sched.live) :
    MutexLists K { lock with sched := wakeReader lock.sched (some t) } (l ++ [t]) q owner ∧
      Woken lock.sched (wakeReader lock.sched (some t)) l t ∧
      (wakeReader lock.sched (some t)).globals = lock.sched.globals := by
  have hring : ReadyRing lock.sched l := h.core.ring
  have hw : Woken lock.sched (wakeReader lock.sched (some t)) l t :=
    hring.enter htl (a := lock.sched.modify t (Thread.setState .ready))
      (fun u hu => by simp [hu]) (by simp) rfl
  have hg : (wakeReader lock.sched (some t)).globals = lock.sched.globals :=
    enqueueThread_globals
  obtain ⟨hl, hcur, hdead⟩ := globals_eq hg
  have hcore := h.core.enter hw htl not_mem_nil (hl ▸ h.core.liveNodup) (fun u => ?_) hcur
    hdead (fun m => (h.core.queue m).congr fun u hu =>
      hw.nextBlocked u fun he => htq (he ▸ mem_waitQueues hu))
    (fun m u hu => ⟨hu, fun he => htq (he ▸ mem_waitQueues hu)⟩)
  · exact ⟨⟨hcore, h.waiting, h.inside, h.owns, h.locked, h.free, h.entered, h.granted⟩, hw, hg⟩
  · rw [hl]
    exact ⟨Or.inr, fun hu => hu.elim (fun he => he ▸ hlive) id⟩

section

variable (h : ConsoleKept K st l q owner)
include h

/-- The thread that Enter would wake is blocked and outside the ring, unless it is still on its
way. -/
lemma ConsoleKept.not_mem_ring (ht : st.readBlocked = some t) (hleft : ¬ Leaving st t) :
    t ∉ l ∧ st.sched.currentThread ≠ some t := by
  obtain ⟨hhold, hcase⟩ := h.reader.published t ht
  obtain ⟨hnb, hny⟩ := not_or.mp hleft
  obtain ⟨-, hblocked⟩ := hcase.resolve_left hnb
  have hcur : st.sched.currentThread ≠ some t := by
    intro hc
    rcases h.reader.current t hc with hrun | ⟨hq, -⟩ | ⟨-, -, hyield⟩
    · cases hrun.symm.trans hblocked
    · exact h.not_queued hhold hq
    · exact hny ⟨hyield, hc⟩
  refine ⟨fun hmem => ?_, hcur⟩
  rcases (h.lists.core.inRing t).mp hmem with hc | ⟨-, hready⟩
  · exact hcur hc
  · cases hready.symm.trans hblocked

lemma ConsoleKept.enter (henter : PressesEnter rawCode)
    (hleft : ∀ t, st.readBlocked = some t → ¬ Leaving st t) :
    ∃ l', ConsoleKept K (st.key rawCode) l' q owner := by
  have hk := h.reader
  rw [Console.key, if_pos henter]
  cases hread : st.readBlocked with
  | none =>
    refine ⟨l, h.lists, h.kernel, h.outside, h.live, hk.current, fun t hb => ?_, fun t ht => ?_,
      fun t hhold hblock => ?_, fun hne => absurd rfl hne, fun t i _ _ he => ?_,
      fun t _ _ he => ?_⟩
    · cases hread.symm.trans (hk.asleep t hb)
    · cases ht
    · cases hread.symm.trans (hk.blocking t hhold hblock)
    · cases he
    · cases he
  | some t =>
    obtain ⟨htl, htc⟩ := h.not_mem_ring hread (hleft t hread)
    obtain ⟨hhold, hcase⟩ := hk.published t hread
    obtain ⟨hlists, hw, hg⟩ := wake_lists h.lists htl (h.not_queued hhold)
      (h.live t (by rw [hhold]; decide))
    obtain ⟨hlive, hcur, -⟩ := globals_eq hg
    refine ⟨l ++ [t], hlists, h.kernel, h.outside, fun u hu => hlive ▸ h.live u hu,
      fun c hc => ?_, fun u hb => ?_, fun u hu => ?_, fun u hhold' hblock => ?_,
      fun hne => absurd rfl hne, fun u i _ _ he => ?_, fun u _ _ he => ?_⟩
    · have hc' : st.sched.currentThread = some c := hcur ▸ hc
      have hne : c ≠ t := fun he => htc (he ▸ hc')
      have hstate := hw.state c
      rw [if_neg hne] at hstate
      have hold := hk.current c hc'
      rw [Console.state, Console.sched, ← hstate] at hold
      exact hold
    · obtain rfl := h.holder hhold hb.1
      have hstate := hw.state u
      rw [if_pos rfl] at hstate
      cases hstate.symm.trans hb.2
    · cases hu
    · obtain rfl := h.holder hhold hhold'
      exact absurd (.inl hblock) (hleft u hread)
    · cases he
    · cases he

lemma ConsoleKept.key (hother : ¬ PressesEnter rawCode) :
    ConsoleKept K (st.key rawCode) l q owner := by
  have hk := h.reader
  rw [Console.key, if_neg hother]
  have hless : (keyboardHandler st.keyboard rawCode).read.Unread → st.keyboard.read.Unread :=
    fun ⟨i, hi, hnew⟩ => ⟨i, hi, keyboardHandler_isNewline hother hnew⟩
  refine ⟨h.lists, h.kernel, h.outside, h.live, hk.current, hk.asleep, hk.published, hk.blocking,
    fun hne hun => hk.unread hne (hless hun), fun t i hhold hstage he j hj hnew => ?_,
    fun t hhold hstage he hun => hk.checked t hhold hstage he (hless hun)⟩
  exact hk.scanned t i hhold hstage he j hj (keyboardHandler_isNewline hother hnew)

/-! ## Runs -/

lemma ConsoleKept.step (htimely : Timely st act) (hstep : ConsoleStep K st act st') :
    ∃ l' q' owner', ConsoleKept K st' l' q' owner' := by
  cases hstep with
  | call hc hK hpc hcount he => exact h.call hc hK hpc he _
  | lockYield hc hpc he =>
    obtain ⟨l', -, -, hrunning, -⟩ := h.handler he
    obtain ⟨l', hkept⟩ := h.tick he
    exact ⟨l', q, owner, hkept.lockYield hpc hrunning⟩
  | acquire hc hpc => exact ⟨l, q, owner, h.acquire hc hpc⟩
  | scan hat => exact ⟨l, q, owner, h.scan hat⟩
  | publish hat => exact ⟨l, q, owner, h.publish hat (htimely _ hat)⟩
  | block hat => exact ⟨l, q, owner, h.block hat⟩
  | yield hat he =>
    obtain ⟨l', -, -, hrunning, -⟩ := h.handler he
    obtain ⟨l', hkept⟩ := h.tick he
    exact ⟨l', q, owner, hkept.yield hat.holding hat.stage hrunning⟩
  | wake hat =>
    exact ⟨l, q, owner, h.read_on hat (by simp) (by simp) rfl rfl (.inl ⟨0, update_self _ _ _⟩)⟩
  | flush hat => exact ⟨l, q, owner, h.flush hat⟩
  | unlock hat => exact h.unlock hat
  | tick he =>
    obtain ⟨l', hkept⟩ := h.tick he
    exact ⟨l', q, owner, hkept⟩
  | @key rawCode =>
    by_cases henter : PressesEnter rawCode
    · obtain ⟨l', hkept⟩ := h.enter henter (htimely henter)
      exact ⟨l', q, owner, hkept⟩
    · exact ⟨l, q, owner, h.key henter⟩

end

lemma ConsoleStart.kept (h : ConsoleStart K st) : ∃ l, ConsoleKept K st l [] none := by
  obtain ⟨l, hlock, hK⟩ := h.lock
  have hout : ∀ t, st.lock.pc t ≠ .holding := by
    intro t ht
    cases (hlock.outside t).symm.trans ht
  exact ⟨l, hlock.lists hK, h.kernel, fun t _ => hlock.outside t,
    fun t ht => absurd (hlock.outside t) ht,
    readerKept_of_free (fun c hc => .inl (hlock.ring.running hc)) h.nobody hout⟩

/-- If Enter comes in none of the gaps, no thread is blocked in `terminal_read` while the ring
holds a newline, and Enter puts into the ready ring only a thread that is not in it. -/
theorem enter_wakes_reader (run : (consoleMachine K).Reached Timely st) :
    (∀ t, BlockedInRead st t → ¬ st.keyboard.read.Unread) ∧
      ∀ rawCode, PressesEnter rawCode → Timely st (.key rawCode) →
        ∀ t, st.readBlocked = some t → ¬ InRing st.sched t := by
  have hstart : ∀ st, (consoleMachine K).start st → ∃ l q owner, ConsoleKept K st l q owner := by
    intro st hst
    obtain ⟨l, hkept⟩ := ConsoleStart.kept hst
    exact ⟨l, [], none, hkept⟩
  obtain ⟨l, q, owner, h⟩ : ∃ l q owner, ConsoleKept K st l q owner :=
    run.invariant hstart fun _ _ _ ⟨_, _, _, hkept⟩ htimely hstep => hkept.step htimely hstep
  constructor
  · intro t hb
    refine h.reader.unread ?_
    rw [h.reader.asleep t hb]
    simp
  · intro rawCode henter htimely t ht
    have hring : ReadyRing st.sched l := h.lists.core.ring
    rw [hring.inRing_iff]
    exact (h.not_mem_ring ht (htimely henter t ht)).1

lemma reached_checked {good : Console → ConsoleAction → Prop}
    (hgood : ∀ st i, AtStage st c (.scan i) → good st .run) (hi : i < kringBufMax)
    (hat : AtStage st c (.scan i)) (hclean : ¬ st.keyboard.read.Unread)
    (hreach : (consoleMachine K).Reached good st) :
    (consoleMachine K).Reached good (st.setStage c .publish) := by
  obtain ⟨n, hn⟩ : ∃ n, i + 1 + n = kringBufMax := Nat.exists_eq_add_of_le hi |>.imp fun _ => .symm
  induction n generalizing st i with
  | zero =>
    have hstep := hreach.step (hgood st i hat) (ConsoleStep.scan hat)
    rwa [Console.scan, if_neg fun hnew => hclean ⟨i, hi, hnew⟩, if_pos hn] at hstep
  | succ n ih =>
    have hstep := hreach.step (hgood st i hat) (ConsoleStep.scan hat)
    rw [Console.scan, if_neg fun hnew => hclean ⟨i, hi, hnew⟩, if_neg (by omega)] at hstep
    have hnext : AtStage (st.setStage c (.scan (i + 1))) c (.scan (i + 1)) :=
      ⟨hat.current, hat.holding, update_self _ _ _⟩
    have hend := ih (by omega) hnext hclean hstep (by omega)
    rwa [Console.setStage, Console.setStage, update_idem] at hend

/-- The threads of `init_scheduler` with a terminal on which nothing was typed. -/
def quietConsole : Console where
  lock := threeThreads
  stage := fun _ => .unlock
  count := fun _ => 0
  buf := fun _ => []
  keyboard := ⟨false, false, false, ⟨noFlags, 0, 0⟩⟩
  readBlocked := none
  enterSince := false

/-- The main thread has called `terminal_read` and found no newline. -/
def checkedConsole : Console :=
  (quietConsole.call 1 1 quietConsole.sched ⟨1, none, none⟩).setStage 1 .publish

lemma quiet_unread : ¬ (⟨noFlags, 0, 0⟩ : InputRing).Unread := by
  rintro ⟨i, -, hnew⟩
  cases hnew

lemma reached_checkedConsole {good : Console → ConsoleAction → Prop}
    (hcall : good quietConsole (.call 1)) (hgood : ∀ st i, AtStage st 1 (.scan i) → good st .run) :
    (consoleMachine [2, 3]).Reached good checkedConsole := by
  have hstart : (consoleMachine [2, 3]).start quietConsole :=
    ⟨⟨[1, 2, 3], threeThreads_start, by decide⟩, by decide, rfl⟩
  have hstep : ConsoleStep [2, 3] quietConsole (.call 1)
      (quietConsole.call 1 1 quietConsole.sched ⟨1, none, none⟩) :=
    .call rfl (by decide) rfl (by decide) rfl
  exact reached_checked hgood (i := 0) (by decide) ⟨rfl, rfl, rfl⟩ quiet_unread
    ((Machine.Reached.start hstart).step hcall hstep)

/-- The main thread waits. -/
theorem enter_wakes_reader_waiting :
    ∃ st, (consoleMachine [2, 3]).Reached Timely st ∧ BlockedInRead st 1 ∧
      st.readBlocked = some 1 ∧ ¬ st.keyboard.read.Unread ∧ ¬ InRing st.sched 1 := by
  have hscan : ∀ st i, AtStage st 1 (.scan i) → Timely st .run := by
    intro st i hat c hpub
    obtain rfl : c = 1 := some.inj (hpub.current.symm.trans hat.current)
    cases hpub.stage.symm.trans hat.stage
  have hclear : ∀ st, st.enterSince = false → Timely st .run := fun st he _ _ => he
  have h0 : (consoleMachine [2, 3]).Reached Timely checkedConsole :=
    reached_checkedConsole trivial hscan
  have h1 := h0.step (hclear _ rfl) (.publish (c := 1) ⟨rfl, rfl, rfl⟩)
  have h2 := h1.step (hclear _ rfl) (.block (c := 1) ⟨rfl, rfl, rfl⟩)
  have h3 := h2.step (hclear _ rfl)
    (.yield (c := 1) ⟨rfl, rfl, rfl⟩ (show schedulerHandler _ 0 = _ from rfl))
  have hblocked := enter_wakes_reader h3
  refine ⟨_, h3, ⟨rfl, rfl⟩, rfl, hblocked.1 1 ⟨rfl, rfl⟩, hblocked.2 28 (by decide) ?_ 1 rfl⟩
  intro _ t ht
  cases ht
  rintro (hblock | ⟨hyield, -⟩)
  · cases hblock
  · cases hyield

/-- Enter between the check and the store to `read_blocked_thread` is lost: the thread blocks
while the newline is there. Enter behind the store puts a thread into the ring that is in it. -/
theorem enter_in_gap :
    (∃ st t, (consoleMachine [2, 3]).Reached (fun _ _ => True) st ∧ BlockedInRead st t ∧
      st.keyboard.read.Unread) ∧
    ∃ st t rawCode, (consoleMachine [2, 3]).Reached (fun _ _ => True) st ∧
      PressesEnter rawCode ∧ st.readBlocked = some t ∧ InRing st.sched t := by
  have h0 : (consoleMachine [2, 3]).Reached (fun _ _ => True) checkedConsole :=
    reached_checkedConsole trivial fun _ _ _ => trivial
  constructor
  · have hkey : ConsoleStep [2, 3] checkedConsole (.key 28) (checkedConsole.key 28) := .key
    have h1 := h0.step trivial hkey
    have h2 := h1.step trivial (.publish (c := 1) ⟨rfl, rfl, rfl⟩)
    have h3 := h2.step trivial (.block (c := 1) ⟨rfl, rfl, rfl⟩)
    exact ⟨_, 1, h3, ⟨rfl, rfl⟩, 0, by decide, by decide⟩
  · have h1 := h0.step trivial (.publish (c := 1) ⟨rfl, rfl, rfl⟩)
    refine ⟨_, 1, 28, h1, by decide, rfl, ?_⟩
    exact threeThreads_start.ring.ring.inRing_iff.mpr (by decide)

end DestinX.Terminal
