import Mathlib.Order.CompletePartialOrder
import DestinX.Sched.Switch
import DestinX.Syscall.Entry

/-!
# Registers across context switches

`lapic_timer_handler` and `yield_handler` push fifteen registers, call `scheduler_handler` with
the stack pointer, take the stack pointer it returns and pop fifteen registers. `create_thread`
builds such a frame for a thread that has not run.

After the registers are popped the handlers call `lapic_eoi` (the timer only) and
`lapic_timer_reload_oneshot`, with `rdi` saved around the second one. What these leave in the
other caller-saved registers goes to the thread. Of a called function only the conventions are
known: it keeps the stack pointer and six registers, and writes below its stack pointer only.
-/

namespace DestinX.Sched

open Base Syscall Function Option

/-- What a thread has when it is interrupted. -/
structure SavedContext where
  regs : Reg → Nat
  user : UserRegs

inductive Handler where
  | timer
  | yield
  deriving DecidableEq, Repr

/-- The registers in the order in which both handlers push them. -/
def saveOrder : List Reg :=
  [.r15, .r14, .r13, .r12, .r11, .r10, .r9, .r8, .rbp, .rdi, .rsi, .rdx, .rcx, .rbx, .rax]

def restoreOrder : List Reg :=
  [.rax, .rbx, .rcx, .rdx, .rsi, .rdi, .rbp, .r8, .r9, .r10, .r11, .r12, .r13, .r14, .r15]

/-- The registers that a called function keeps. -/
def calleeSaved : List Reg := [.rbx, .rbp, .r12, .r13, .r14, .r15]

/-! ## The code of the handlers -/

/-- The processor enters a handler on the stack `sp`. -/
def interruptEntry (c : Cpu) (sp ss cs rip rflags : Nat) : Cpu :=
  { c with rsp := sp }.pushValues [ss, c.rsp, rflags, cs, rip]

/-- Up to the call of `scheduler_handler`. -/
def handlerEntry (c : Cpu) : Cpu :=
  let c := c.push saveOrder
  { c with regs := update c.regs .rdi c.rsp }

/-- From its return to the next call. -/
def restoreRegs (c : Cpu) : Cpu := { c with rsp := c.regs .rax }.pop restoreOrder

/-- Up to the call of `lapic_timer_reload_oneshot`. -/
def reloadEntry (c : Cpu) : Cpu :=
  let c := c.push [.rdi]
  { c with regs := update c.regs .rdi 1 }

/-- From its return to `iretq`. -/
def reloadExit (c : Cpu) : Cpu := c.pop [.rdi]

/-- The call of a function on the stack of thread `t`. -/
structure AbiCall (stack : Nat → Set Nat) (t : Nat) (c c' : Cpu) : Prop where
  rsp : c'.rsp = c.rsp
  saved : ∀ r ∈ calleeSaved, c'.regs r = c.regs r
  kept : ∀ u, ∀ a ∈ stack u, (u = t → c.rsp ≤ a) → c'.mem a = c.mem a

/-- The processor after the calls of `scheduler_handler`, `lapic_eoi` and
`lapic_timer_reload_oneshot`. -/
structure Calls where
  (scheduler eoi reload : Cpu)

/-- The functions that are called behind the pops leave what the thread gets. -/
structure Calls.Harmless (calls : Calls) : Prop where
  rdi : calls.eoi.regs .rdi = (restoreRegs calls.scheduler).regs .rdi
  others : ∀ r ∉ calleeSaved, r ≠ .rdi → calls.reload.regs r = (restoreRegs calls.scheduler).regs r

/-! ## Threads -/

/-- The processor, the words that each thread has for its stack and, for every thread that is not
running, what it had when it was interrupted. -/
structure SwitchState where
  sched : Scheduler
  cpu : Cpu
  (rip rflags : Nat)
  stack : Nat → Set Nat
  frames : Nat → Option SavedContext

def SwitchState.context (st : SwitchState) : SavedContext :=
  ⟨st.cpu.regs, ⟨st.cpu.rsp, st.rip, st.rflags⟩⟩

/-- What thread `n` has to get when it is resumed. -/
def SwitchState.expected (st : SwitchState) (n : Nat) : Option SavedContext :=
  if st.sched.currentThread = some n then some st.context else st.frames n

/-- The end of the stack of a new thread, to a multiple of 16. -/
def stackTop (stack size : Nat) : Nat := (stack + size) / 16 * 16

/-- The words that `create_thread` puts on the stack. -/
def newFrame (top entry threadExit : Nat) : List Nat :=
  [threadExit, 0x10, top - 8, 0x202, 0x08, entry] ++ List.replicate 15 0

/-- What a new thread starts with. -/
def newContext (top entry : Nat) : SavedContext := ⟨fun _ => 0, ⟨top - 8, entry, 0x202⟩⟩

inductive SwitchAction where
  | run
  | create (t : Nat)
  | destroy (t : Nat)
  | switch (handler : Handler) (calls : Calls)

/-- The processor at the call of `scheduler_handler`. -/
def SwitchState.entered (st : SwitchState) (sp ss cs : Nat) : Cpu :=
  handlerEntry (interruptEntry st.cpu sp ss cs st.rip st.rflags)

/-- Between two switches the running thread changes all but the stacks of the other threads and
the stack pointers in the records of threads. -/
structure RunsOn (c : Nat) (st st' : SwitchState) : Prop where
  current : st'.sched.currentThread = some c
  rsp : ∀ u, (st'.sched.threads u).rsp = (st.sched.threads u).rsp
  mem : ∀ u, u ≠ c → ∀ a ∈ st.stack u, st'.cpu.mem a = st.cpu.mem a
  stack : st'.stack = st.stack
  frames : st'.frames = st.frames

/-- A stack for a new thread. -/
structure FreshStack (st : SwitchState) (t stack size : Nat) : Prop where
  room : stack + 168 ≤ stackTop stack size
  apart : ∀ u, u ≠ t → ∀ a ∈ st.stack u, ¬ (stack ≤ a ∧ a < stack + size)

/-- A handler, from the interrupt to `iretq`, that resumes thread `n`. Unless this is the thread
that was interrupted, it is one that was saved. -/
structure Switches (st : SwitchState) (handler : Handler) (calls : Calls) (c n sp ss cs : Nat)
    (s' : Scheduler) : Prop where
  interrupted : st.sched.currentThread = some c
  room : 160 ≤ sp ∧ ∀ a, sp - 160 ≤ a → a < sp → a ∈ st.stack c
  scheduler : AbiCall st.stack c (st.entered sp ss cs) calls.scheduler
  handled : schedulerHandler st.sched ((st.entered sp ss cs).regs .rdi) =
    some (s', calls.scheduler.regs .rax)
  resumed : s'.currentThread = some n
  saved : n ≠ c → st.frames n ≠ none
  eoi : if handler = .timer then AbiCall st.stack n (restoreRegs calls.scheduler) calls.eoi
    else calls.eoi = restoreRegs calls.scheduler
  reload : AbiCall st.stack n (reloadEntry calls.eoi) calls.reload

/-- `create_thread`. -/
def SwitchState.create (st : SwitchState) (t stack size entry threadExit : Nat) : SwitchState where
  sched := createThread st.sched t stack size
  cpu := { st.cpu with
    mem := pushWords st.cpu.mem (stackTop stack size)
      (newFrame (stackTop stack size) entry threadExit) }
  rip := st.rip
  rflags := st.rflags
  stack := update st.stack t {a | stack ≤ a ∧ a < stack + size}
  frames := update st.frames t (some (newContext (stackTop stack size) entry))

/-- The stack of thread `t` is released. -/
def SwitchState.destroy (st : SwitchState) (t : Nat) : SwitchState :=
  { st with
    stack := update st.stack t ∅
    frames := update st.frames t none }

/-- The state behind `iretq`. -/
def SwitchState.resume (st : SwitchState) (calls : Calls) (c n : Nat) (s' : Scheduler) :
    SwitchState where
  sched := s'
  cpu := { reloadExit calls.reload with rsp := (reloadExit calls.reload).iretq.rsp }
  rip := (reloadExit calls.reload).iretq.rip
  rflags := (reloadExit calls.reload).iretq.rflags
  stack := st.stack
  frames := fun u =>
    if u = n then none
    else if u = c then
      if (st.sched.threads c).state = .dead then none else some st.context
    else st.frames u

inductive SwitchStep : SwitchState → SwitchAction → SwitchState → Prop
  | run {st st' : SwitchState} {c : Nat} (hc : st.sched.currentThread = some c)
      (hrun : RunsOn c st st') : SwitchStep st .run st'
  | create {st : SwitchState} {t stack size entry threadExit : Nat}
      (ht : st.sched.currentThread ≠ some t) (hstack : FreshStack st t stack size) :
      SwitchStep st (.create t) (st.create t stack size entry threadExit)
  | destroy {st : SwitchState} {t : Nat} (ht : st.sched.currentThread ≠ some t) :
      SwitchStep st (.destroy t) (st.destroy t)
  | switch {st : SwitchState} {handler : Handler} {calls : Calls} {c n sp ss cs : Nat}
      {s' : Scheduler} (h : Switches st handler calls c n sp ss cs s') :
      SwitchStep st (.switch handler calls) (st.resume calls c n s')

/-- One thread runs and nobody else was saved. -/
structure SwitchStart (st : SwitchState) : Prop where
  current : ∃ c, st.sched.currentThread = some c
  apart : ∀ u v, u ≠ v → Disjoint (st.stack u) (st.stack v)
  nobody : ∀ u, st.frames u = none

def switchMachine : Machine SwitchState SwitchAction where
  start := SwitchStart
  step := SwitchStep

variable {st st' : SwitchState} {stack : Nat → Set Nat} {c c' : Cpu} {ctx : SavedContext}
  {calls : Calls} {handler : Handler} {act : SwitchAction} {m m' : WordMem} {s s' : Scheduler}
  {t u n r rsp sp ss cs : Nat}

/-! ## The stack pointer that `scheduler_handler` returns -/

lemma rsp_of_unlinked {x y : Thread} (h : x.unlinked = y.unlinked) : x.rsp = y.rsp :=
  show x.unlinked.rsp = y.unlinked.rsp by rw [h]

lemma suspend_rsp (s : Scheduler) (t u rsp : Nat) : ((suspend s t rsp).threads u).rsp =
      if u = t ∧ (s.threads t).state ≠ .dead then rsp else (s.threads u).rsp := by
  by_cases hd : (s.threads t).state = .dead
  · rw [if_neg fun h => h.2 hd]
    simp only [suspend, hd, if_true]
    refine rsp_of_unlinked ((modify_unlinked fun _ => ?_).trans dequeueThread_unlinked)
    rfl
  · by_cases hb : (s.threads t).state = .blocked
    · rw [suspend, if_neg hd, if_pos hb, rsp_of_unlinked dequeueThread_unlinked, modify_threads]
      by_cases hu : u = t
      · rw [if_pos hu, if_pos ⟨hu, hd⟩]
        rfl
      · rw [if_neg hu, if_neg fun h => hu h.1]
    · rw [suspend, if_neg hd, if_neg hb, modify_threads]
      by_cases hu : u = t
      · rw [if_pos hu, if_pos ⟨hu, hd⟩]
        rfl
      · rw [if_neg hu, if_neg fun h => hu h.1]

lemma suspend_current (s : Scheduler) (t rsp : Nat) :
    (suspend s t rsp).currentThread = s.currentThread := by
  rw [suspend]
  split_ifs
  · exact (globals_eq dequeueThread_globals).2.1
  · exact (globals_eq dequeueThread_globals).2.1
  · rfl

/-- The search ends at a thread that may run. -/
lemma search_found {start : Nat} : ∀ fuel t, search s start fuel t = some (some n) →
    (s.threads n).state = .ready ∨ (s.threads n).state = .running := by
  intro fuel
  induction fuel with
  | zero =>
    intro t h
    cases h
  | succ fuel ih =>
    intro t h
    rw [search] at h
    split_ifs at h with hstate
    · obtain rfl := some.inj (some.inj h)
      exact hstate
    · cases hnext : (s.threads t).next with
      | none =>
        rw [hnext] at h
        cases h
      | some v =>
        rw [hnext] at h
        dsimp only at h
        split_ifs at h
        · cases h
        · exact ih v h

lemma suspend_state_dead (hd : (s.threads t).state = .dead) :
    ((suspend s t rsp).threads t).state = .dead := by
  simp only [suspend, hd, if_true]
  refine (state_of_unlinked ((modify_unlinked fun _ => ?_).trans dequeueThread_unlinked)).trans hd
  rfl

/-- What `scheduler_handler` returns: the stack pointer it was called with, for the same thread, or
the one in the record of another thread. It stores to the record of the interrupted thread. -/
structure HandlerResult (s s' : Scheduler) (c n rsp r : Nat) : Prop where
  current : s'.currentThread = some n
  result : (n = c ∧ r = rsp) ∨ (n ≠ c ∧ r = (s.threads n).rsp)
  stored : n ≠ c → (s.threads c).state ≠ .dead → (s'.threads c).rsp = rsp
  others : ∀ u, u ≠ c → (s'.threads u).rsp = (s.threads u).rsp

lemma handled_same (hc : s.currentThread = some t) (rsp : Nat) : HandlerResult s s t t rsp rsp :=
  ⟨hc, .inl ⟨rfl, rfl⟩, fun hne => absurd rfl hne, fun _ _ => rfl⟩

lemma suspend_rsp_other (hu : u ≠ t) : ((suspend s t rsp).threads u).rsp = (s.threads u).rsp := by
  rw [suspend_rsp, if_neg fun h => hu h.1]

lemma switchTo_handled (hfound : ((suspend s t rsp).threads n).state = .ready ∨
    ((suspend s t rsp).threads n).state = .running) :
    HandlerResult s (switchTo (suspend s t rsp) t n).1 t n rsp
      (switchTo (suspend s t rsp) t n).2 := by
  have hrsp : ∀ u, ((switchTo (suspend s t rsp) t n).1.threads u).rsp =
      ((suspend s t rsp).threads u).rsp := by
    intro u
    rw [switchTo_threads]
    split_ifs with hu
    · rw [hu]
      rfl
    · rfl
  have hresult : (switchTo (suspend s t rsp) t n).2 = ((suspend s t rsp).threads n).rsp := hrsp n
  constructor
  · exact congrArg (fun l => l.2.2.1) (switchTo_lists (s := suspend s t rsp) (c := t) (n := n))
  · rw [hresult]
    by_cases hn : n = t
    · subst hn
      -- A thread that is dead is not found again.
      have hd : (s.threads n).state ≠ .dead := by
        intro hd
        rw [suspend_state_dead hd] at hfound
        rcases hfound with hf | hf <;> cases hf
      exact .inl ⟨rfl, (suspend_rsp s n n rsp).trans (if_pos ⟨rfl, hd⟩)⟩
    · exact .inr ⟨hn, suspend_rsp_other hn⟩
  · intro _ hd
    rw [hrsp, suspend_rsp, if_pos ⟨rfl, hd⟩]
  · intro u hu
    rw [hrsp, suspend_rsp_other hu]

lemma schedulerHandler_handled (hc : s.currentThread = some t)
    (h : schedulerHandler s rsp = some (s', r)) : ∃ n, HandlerResult s s' t n rsp r := by
  unfold schedulerHandler at h
  cases hhead : s.readyListHead with
  | none =>
    rw [hhead] at h
    cases h
    exact ⟨t, handled_same hc r⟩
  | some head =>
    rw [hhead] at h
    dsimp only at h
    split_ifs at h with hone
    · cases h
      exact ⟨t, handled_same hc r⟩
    rw [hc] at h
    dsimp only at h
    cases hstart : (if (s.threads t).state = .dead ∨ (s.threads t).state = .blocked then
        (suspend s t rsp).readyListHead else (s.threads t).next) with
    | none =>
      rw [hstart] at h
      cases h
      exact ⟨t, (suspend_current s t r).trans hc, .inl ⟨rfl, rfl⟩, fun hne => absurd rfl hne,
        fun _ => suspend_rsp_other⟩
    | some start =>
      rw [hstart] at h
      dsimp only at h
      cases hsearch : search (suspend s t rsp) start (s.live.length + 1) start with
      | none =>
        rw [hsearch] at h
        cases h
      | some found =>
        rw [hsearch] at h
        cases found with
        | none =>
          split_ifs at h
          cases h
          refine ⟨t, (suspend_current s t r).trans hc, .inl ⟨rfl, rfl⟩,
            fun hne => absurd rfl hne, fun u hu => ?_⟩
          rw [modify_threads, if_neg hu]
          exact suspend_rsp_other hu
        | some n =>
          have hto : switchTo (suspend s t rsp) t n = (s', r) := some.inj h
          have hhandled := switchTo_handled (search_found _ _ hsearch)
          rw [hto] at hhandled
          exact ⟨n, hhandled⟩

lemma createThread_rsp (s : Scheduler) (t u stack size : Nat) :
    ((createThread s t stack size).threads u).rsp =
      if u = t then stackTop stack size - 168 else (s.threads u).rsp := by
  rw [createThread, rsp_of_unlinked enqueueThread_unlinked, modify_threads]
  split_ifs
  · rfl
  · rfl

/-! ## Frames -/

/-- The frame at `rsp`, inside a stack: fifteen registers below the five words for `iretq`. -/
structure FrameAt (stack : Set Nat) (m : WordMem) (rsp : Nat) (ctx : SavedContext) : Prop where
  inside : ∀ a, rsp ≤ a → a < rsp + 160 → a ∈ stack
  regs : ∀ r, m (rsp + 8 * restoreOrder.idxOf r) = ctx.regs r
  rip : m (rsp + 120) = ctx.user.rip
  rflags : m (rsp + 136) = ctx.user.rflags
  userRsp : m (rsp + 144) = ctx.user.rsp

lemma idxOf_lt (r : Reg) : restoreOrder.idxOf r < 15 := by cases r <;> decide

lemma FrameAt.congr {stack : Set Nat} (h : FrameAt stack m rsp ctx)
    (hm : ∀ a, rsp ≤ a → a < rsp + 160 → m' a = m a) : FrameAt stack m' rsp ctx where
  inside := h.inside
  regs := fun r => by
    have hr := idxOf_lt r
    rw [hm _ (by omega) (by omega), h.regs]
  rip := (hm _ (by omega) (by omega)).trans h.rip
  rflags := (hm _ (by omega) (by omega)).trans h.rflags
  userRsp := (hm _ (by omega) (by omega)).trans h.userRsp

/-- The words of a frame, in the order in which they are pushed. -/
def frameWords (ctx : SavedContext) (ss cs : Nat) : List Nat :=
  [ss, ctx.user.rsp, ctx.user.rflags, cs, ctx.user.rip] ++ saveOrder.map ctx.regs

lemma frameWords_get (ctx : SavedContext) (ss cs : Nat) (r : Reg) :
    (frameWords ctx ss cs)[19 - restoreOrder.idxOf r]? = some (ctx.regs r) := by cases r <;> rfl

/-- Pushing these words makes a frame. -/
lemma frameAt_pushWords {stack : Set Nat} (ctx : SavedContext) (ss cs : Nat) (hsp : 160 ≤ sp)
    (hinside : ∀ a, sp - 160 ≤ a → a < sp → a ∈ stack) :
    FrameAt stack (pushWords m sp (frameWords ctx ss cs)) (sp - 160) ctx := by
  have hlen : (frameWords ctx ss cs).length = 20 := rfl
  have hget : ∀ k v, k < 20 → (frameWords ctx ss cs)[k]? = some v →
      pushWords m sp (frameWords ctx ss cs) (sp - 160 + 8 * (19 - k)) = v := by
    intro k v hk hv
    rw [show sp - 160 + 8 * (19 - k) = sp - 8 * (k + 1) by omega,
      pushWords_get (by omega) (by omega)]
    exact some.inj ((List.getElem?_eq_getElem (by omega)).symm.trans hv)
  constructor
  · intro a ha hlt
    exact hinside a ha (by omega)
  · intro r
    have hr := idxOf_lt r
    have h := hget (19 - restoreOrder.idxOf r) (ctx.regs r) (by omega) (frameWords_get ctx ss cs r)
    rwa [show 19 - (19 - restoreOrder.idxOf r) = restoreOrder.idxOf r by omega] at h
  · exact hget 4 ctx.user.rip (by omega) rfl
  · exact hget 2 ctx.user.rflags (by omega) rfl
  · exact hget 1 ctx.user.rsp (by omega) rfl

/-! ## The code between two frames -/

lemma entered_mem (st : SwitchState) (sp ss cs : Nat) :
    (st.entered sp ss cs).mem = pushWords st.cpu.mem sp (frameWords st.context ss cs) := by
  rw [frameWords, pushWords_append]
  simp only [SwitchState.entered, handlerEntry, interruptEntry, Cpu.push, Cpu.pushValues,
    SwitchState.context]

lemma restoreRegs_mem (c : Cpu) : (restoreRegs c).mem = c.mem :=
  (pop_fields restoreOrder _).1

lemma restoreRegs_rsp (c : Cpu) : (restoreRegs c).rsp = c.regs .rax + 120 :=
  (pop_fields restoreOrder _).2.2.2

lemma FrameAt.restoreRegs {stack : Set Nat} (h : FrameAt stack c.mem (c.regs .rax) ctx) :
    (restoreRegs c).regs = ctx.regs := by
  ext r
  rw [← h.regs r]
  cases r <;> rfl

lemma AbiCall.refl (stack : Nat → Set Nat) (t : Nat) (c : Cpu) : AbiCall stack t c c :=
  ⟨rfl, fun _ _ => rfl, fun _ _ _ _ => rfl⟩

lemma Switches.eoi_call (h : Switches st handler calls t n sp ss cs s') :
    AbiCall st.stack n (Sched.restoreRegs calls.scheduler) calls.eoi := by
  have heoi := h.eoi
  split_ifs at heoi
  · exact heoi
  · rw [heoi]
    exact AbiCall.refl st.stack n _

lemma reloadEntry_rsp (c : Cpu) : (reloadEntry c).rsp = c.rsp - 8 := rfl

lemma reloadEntry_regs {r : Reg} (hr : r ≠ .rdi) : (reloadEntry c).regs r = c.regs r :=
  update_of_ne hr _ _

lemma reloadEntry_mem (c : Cpu) :
    (reloadEntry c).mem = update c.mem (c.rsp - 8) (c.regs .rdi) := rfl

lemma reloadExit_regs {r : Reg} (hr : r ≠ .rdi) : (reloadExit c).regs r = c.regs r :=
  update_of_ne hr _ _

lemma reloadExit_rdi (c : Cpu) : (reloadExit c).regs .rdi = c.mem c.rsp := rfl

lemma rdi_not_calleeSaved : Reg.rdi ∉ calleeSaved := by decide

/-! ## The invariant -/

/-- Every thread that was saved finds its frame on its stack. -/
structure SwitchInv (st : SwitchState) : Prop where
  current : ∃ c, st.sched.currentThread = some c ∧ st.frames c = none
  apart : ∀ u v, u ≠ v → Disjoint (st.stack u) (st.stack v)
  saved : ∀ u ctx, st.frames u = some ctx →
    FrameAt (st.stack u) st.cpu.mem (st.sched.threads u).rsp ctx

lemma not_mem_of_apart (h : ∀ u v, u ≠ v → Disjoint (stack u) (stack v)) (hut : u ≠ t) {a : Nat}
    (ha : a ∈ stack u) : a ∉ stack t :=
  Set.disjoint_left.mp (h u t hut) ha

/-- What a switch does to the thread that is interrupted and to the one that is resumed. -/
structure Resumes (st : SwitchState) (calls : Calls) (c n sp : Nat) (s' : Scheduler)
    (ctx : SavedContext) : Prop where
  handled : HandlerResult st.sched s' c n (sp - 160) (calls.scheduler.regs .rax)
  expected : st.expected n = some ctx
  saved : FrameAt (st.stack c) calls.scheduler.mem (sp - 160) st.context
  frame : FrameAt (st.stack n) calls.scheduler.mem (calls.scheduler.regs .rax) ctx
  others : ∀ u, u ≠ c → ∀ a ∈ st.stack u, calls.scheduler.mem a = st.cpu.mem a

lemma SwitchInv.switched (hinv : SwitchInv st) (h : Switches st handler calls t n sp ss cs s') :
    ∃ ctx, Resumes st calls t n sp s' ctx := by
  have hhandled := h.handled
  obtain ⟨n', hn⟩ := schedulerHandler_handled h.interrupted hhandled
  obtain rfl : n' = n := some.inj (hn.current.symm.trans h.resumed)
  have hkept := h.scheduler.kept
  have hsaved : FrameAt (st.stack t) calls.scheduler.mem (sp - 160) st.context := by
    have hframe : FrameAt (st.stack t) (st.entered sp ss cs).mem (sp - 160) st.context := by
      rw [entered_mem]
      exact frameAt_pushWords st.context ss cs h.room.1 h.room.2
    exact hframe.congr fun a ha hlt => hkept t a (hframe.inside a ha hlt) fun _ => ha
  have hothers : ∀ u, u ≠ t → ∀ a ∈ st.stack u, calls.scheduler.mem a = st.cpu.mem a := by
    intro u hu a ha
    have hout : ¬ (sp - 160 ≤ a ∧ a < sp) := fun hin =>
      not_mem_of_apart hinv.apart hu ha (h.room.2 a hin.1 hin.2)
    have hlen : (frameWords st.context ss cs).length = 20 := rfl
    have hroom := h.room.1
    rw [hkept u a ha fun hut => absurd hut hu, entered_mem, pushWords_outside (by omega) (by omega)]
  by_cases hnt : n' = t
  · subst hnt
    refine ⟨st.context, hn, if_pos h.interrupted, hsaved, ?_, hothers⟩
    obtain ⟨-, hr⟩ | ⟨hne, -⟩ := hn.result
    · rw [hr]
      exact hsaved
    · exact absurd rfl hne
  · obtain ⟨ctx, hctx⟩ := ne_none_iff_exists'.mp (h.saved hnt)
    have hcur : st.sched.currentThread ≠ some n' := fun hcur =>
      hnt (some.inj (hcur.symm.trans h.interrupted))
    refine ⟨ctx, hn, (if_neg hcur).trans hctx, hsaved, ?_, hothers⟩
    obtain ⟨heq, -⟩ | ⟨-, hr⟩ := hn.result
    · exact absurd heq hnt
    · rw [hr]
      have hframe := hinv.saved n' ctx hctx
      exact hframe.congr fun a ha hlt => hothers n' hnt a (hframe.inside a ha hlt)

/-! ## What a thread gets -/

section Resume

variable (hinv : SwitchInv st) (h : Switches st handler calls t n sp ss cs s')
  (hs : Resumes st calls t n sp s' ctx)

include h

lemma eoi_rsp : calls.eoi.rsp = calls.scheduler.regs .rax + 120 :=
  h.eoi_call.rsp.trans (restoreRegs_rsp calls.scheduler)

lemma reload_rsp : calls.reload.rsp = calls.scheduler.regs .rax + 112 := by
  rw [h.reload.rsp, reloadEntry_rsp, eoi_rsp h]
  omega

lemma reloadExit_rsp : (reloadExit calls.reload).rsp = calls.scheduler.regs .rax + 120 := by
  show calls.reload.rsp + 8 = _
  rw [reload_rsp h]

/-- Above its registers, the stack of the resumed thread stays. -/
lemma reload_mem {a : Nat} (ha : a ∈ st.stack n) (hge : calls.scheduler.regs .rax + 120 ≤ a) :
    calls.reload.mem a = calls.scheduler.mem a := by
  rw [h.reload.kept n a ha fun _ => by rw [reloadEntry_rsp, eoi_rsp h]; omega, reloadEntry_mem,
    update_of_ne (by rw [eoi_rsp h]; omega),
    h.eoi_call.kept n a ha fun _ => by rw [restoreRegs_rsp]; exact hge, restoreRegs_mem]

include hs

lemma Resumes.user : (st.resume calls t n s').context.user = ctx.user := by
  have hword : ∀ k, 120 ≤ k → k < 160 → calls.reload.mem (calls.scheduler.regs .rax + k) =
        calls.scheduler.mem (calls.scheduler.regs .rax + k) := by
    intro k hk hlt
    exact reload_mem h (hs.frame.inside _ (by omega) (by omega)) (by omega)
  have hrsp := reloadExit_rsp h
  have hiretq : (reloadExit calls.reload).iretq = ctx.user := by
    have hmem : (reloadExit calls.reload).mem = calls.reload.mem := rfl
    rw [Cpu.iretq, hrsp, hmem, Nat.add_assoc, Nat.add_assoc, hword _ (by omega) (by omega),
      hword _ (by omega) (by omega), hword _ (by omega) (by omega), hs.frame.rip, hs.frame.rflags,
      hs.frame.userRsp]
  show (⟨(reloadExit calls.reload).iretq.rsp, (reloadExit calls.reload).iretq.rip,
    (reloadExit calls.reload).iretq.rflags⟩ : UserRegs) = ctx.user
  rw [hiretq]

lemma Resumes.calleeSaved {r : Reg} (hr : r ∈ Sched.calleeSaved) :
    (st.resume calls t n s').context.regs r = ctx.regs r := by
  have hrdi : r ≠ .rdi := fun heq => rdi_not_calleeSaved (heq ▸ hr)
  calc (reloadExit calls.reload).regs r = calls.reload.regs r := reloadExit_regs hrdi
    _ = (reloadEntry calls.eoi).regs r := h.reload.saved r hr
    _ = calls.eoi.regs r := reloadEntry_regs hrdi
    _ = (Sched.restoreRegs calls.scheduler).regs r := h.eoi_call.saved r hr
    _ = ctx.regs r := congrFun hs.frame.restoreRegs r

/-- The register that is saved around the last call is the one that `lapic_eoi` left. -/
lemma Resumes.rdi : (st.resume calls t n s').context.regs .rdi = calls.eoi.regs .rdi := by
  have hslot : calls.scheduler.regs .rax + 112 ∈ st.stack n :=
    hs.frame.inside _ (by omega) (by omega)
  have hentry : (reloadEntry calls.eoi).rsp = calls.scheduler.regs .rax + 112 :=
    h.reload.rsp.symm.trans (reload_rsp h)
  calc (reloadExit calls.reload).regs .rdi
      = calls.reload.mem calls.reload.rsp := reloadExit_rdi calls.reload
    _ = calls.reload.mem (calls.scheduler.regs .rax + 112) := by rw [reload_rsp h]
    _ = (reloadEntry calls.eoi).mem (calls.scheduler.regs .rax + 112) :=
        h.reload.kept n _ hslot fun _ => hentry.le
    _ = calls.eoi.regs .rdi := by rw [reloadEntry_mem, ← reloadEntry_rsp, hentry, update_self]

lemma Resumes.context_iff : (st.resume calls t n s').context = ctx ↔ calls.Harmless := by
  have hrestored := hs.frame.restoreRegs
  constructor
  · intro heq
    constructor
    · rw [hrestored, ← heq, hs.rdi h]
    · intro r _ hr
      rw [hrestored, ← heq]
      exact (reloadExit_regs hr).symm
  · intro hharmless
    have hregs : (st.resume calls t n s').context.regs = ctx.regs := by
      ext r
      by_cases hr : r ∈ Sched.calleeSaved
      · exact hs.calleeSaved h hr
      · by_cases hrdi : r = .rdi
        · rw [hrdi, hs.rdi h, hharmless.rdi, hrestored]
        · rw [← hrestored, ← hharmless.others r hr hrdi]
          exact reloadExit_regs hrdi
    calc (st.resume calls t n s').context
        = ⟨(st.resume calls t n s').context.regs, (st.resume calls t n s').context.user⟩ := rfl
      _ = ⟨ctx.regs, ctx.user⟩ := by rw [hregs, hs.user h]
      _ = ctx := rfl

include hinv

lemma Resumes.mem (hun : u ≠ n) {a : Nat} (ha : a ∈ st.stack u) :
    (st.resume calls t n s').cpu.mem a = calls.scheduler.mem a := by
  have hslot : calls.scheduler.regs .rax + 112 ∈ st.stack n :=
    hs.frame.inside _ (by omega) (by omega)
  have hne : a ≠ calls.eoi.rsp - 8 := by
    rintro rfl
    rw [eoi_rsp h] at ha
    exact not_mem_of_apart hinv.apart hun ha hslot
  calc calls.reload.mem a
      = (reloadEntry calls.eoi).mem a := h.reload.kept u a ha fun heq => absurd heq hun
    _ = calls.eoi.mem a := by rw [reloadEntry_mem, update_of_ne hne]
    _ = (Sched.restoreRegs calls.scheduler).mem a :=
        h.eoi_call.kept u a ha fun heq => absurd heq hun
    _ = calls.scheduler.mem a := by rw [restoreRegs_mem]

lemma SwitchInv.switch : SwitchInv (st.resume calls t n s') where
  current := ⟨n, h.resumed, if_pos rfl⟩
  apart := hinv.apart
  saved := by
    intro u ctx' hctx
    by_cases hun : u = n
    · simp only [SwitchState.resume, if_pos hun] at hctx
      cases hctx
    by_cases hut : u = t
    · subst hut
      by_cases hd : (st.sched.threads u).state = .dead
      · simp only [SwitchState.resume, if_neg hun, if_pos hd, if_true] at hctx
        cases hctx
      simp only [SwitchState.resume, if_neg hun, if_neg hd, if_true] at hctx
      cases hctx
      have hrsp : (s'.threads u).rsp = sp - 160 := hs.handled.stored (Ne.symm hun) hd
      show FrameAt (st.stack u) _ (s'.threads u).rsp st.context
      rw [hrsp]
      exact hs.saved.congr fun a ha hlt => hs.mem hinv h hun (hs.saved.inside a ha hlt)
    · simp only [SwitchState.resume, if_neg hun, if_neg hut] at hctx
      have hframe := hinv.saved u ctx' hctx
      show FrameAt (st.stack u) _ (s'.threads u).rsp ctx'
      rw [hs.handled.others u hut]
      refine hframe.congr fun a ha hlt => ?_
      have hin := hframe.inside a ha hlt
      exact (hs.mem hinv h hun hin).trans (hs.others u hut a hin)

end Resume

/-! ## All runs -/

lemma SwitchInv.run (hinv : SwitchInv st) (hc : st.sched.currentThread = some t)
    (hrun : RunsOn t st st') : SwitchInv st' := by
  obtain ⟨c, hcur, hnone⟩ := hinv.current
  obtain rfl : c = t := some.inj (hcur.symm.trans hc)
  constructor
  · exact ⟨c, hrun.current, hrun.frames ▸ hnone⟩
  · rw [hrun.stack]
    exact hinv.apart
  · intro u ctx hctx
    rw [hrun.frames] at hctx
    have hu : u ≠ c := by
      rintro rfl
      rw [hnone] at hctx
      cases hctx
    have hframe := hinv.saved u ctx hctx
    rw [hrun.stack, hrun.rsp]
    exact hframe.congr fun a ha hlt => hrun.mem u hu a (hframe.inside a ha hlt)

lemma stackTop_le (stack size : Nat) : stackTop stack size ≤ stack + size :=
  Nat.div_mul_le_self _ _

/-- The frame of a new thread lies below the address of `thread_exit`. -/
lemma newFrame_frameAt {stack : Set Nat} {top entry threadExit : Nat} (htop : 168 ≤ top)
    (hinside : ∀ a, top - 168 ≤ a → a < top → a ∈ stack) :
    FrameAt stack (pushWords m top (newFrame top entry threadExit)) (top - 168)
      (newContext top entry) := by
  have hwords : newFrame top entry threadExit =
      threadExit :: frameWords (newContext top entry) 0x10 0x08 := rfl
  rw [hwords, pushWords]
  exact frameAt_pushWords (newContext top entry) 0x10 0x08 (by omega) fun a ha hlt =>
    hinside a (by omega) (by omega)

lemma SwitchInv.create {stack size entry threadExit : Nat} (hinv : SwitchInv st)
    (ht : st.sched.currentThread ≠ some t) (hstack : FreshStack st t stack size) :
    SwitchInv (st.create t stack size entry threadExit) := by
  have hroom := hstack.room
  have hle := stackTop_le stack size
  obtain ⟨c, hcur, hnone⟩ := hinv.current
  have hct : c ≠ t := fun heq => ht (heq ▸ hcur)
  have hlen : (newFrame (stackTop stack size) entry threadExit).length = 21 := rfl
  have hfresh : ∀ u, u ≠ t → Disjoint (st.stack u) {a | stack ≤ a ∧ a < stack + size} :=
    fun u hu => Set.disjoint_left.mpr fun a ha hin => hstack.apart u hu a ha hin
  constructor
  · refine ⟨c, ?_, ?_⟩
    · exact ((globals_eq enqueueThread_globals).2.1).trans hcur
    · exact (update_of_ne hct _ _).trans hnone
  · intro u v huv
    simp only [SwitchState.create]
    by_cases hu : u = t
    · subst hu
      rw [update_self, update_of_ne (Ne.symm huv)]
      exact (hfresh v (Ne.symm huv)).symm
    · rw [update_of_ne hu]
      by_cases hv : v = t
      · subst hv
        rw [update_self]
        exact hfresh u hu
      · rw [update_of_ne hv]
        exact hinv.apart u v huv
  · intro u ctx hctx
    simp only [SwitchState.create] at hctx ⊢
    by_cases hu : u = t
    · subst hu
      rw [update_self] at hctx
      cases hctx
      rw [update_self, createThread_rsp, if_pos rfl]
      exact newFrame_frameAt (by omega) fun a ha hlt => ⟨by omega, by omega⟩
    · rw [update_of_ne hu] at hctx
      have hframe := hinv.saved u ctx hctx
      rw [update_of_ne hu, createThread_rsp, if_neg hu]
      refine hframe.congr fun a ha hlt => pushWords_outside (by omega) ?_
      have hout := hstack.apart u hu a (hframe.inside a ha hlt)
      omega

lemma SwitchInv.destroy (hinv : SwitchInv st) (ht : st.sched.currentThread ≠ some t) :
    SwitchInv (st.destroy t) := by
  obtain ⟨c, hcur, hnone⟩ := hinv.current
  have hct : c ≠ t := fun heq => ht (heq ▸ hcur)
  have hsub : ∀ u, update st.stack t ∅ u ⊆ st.stack u := by
    intro u
    by_cases hu : u = t
    · rw [hu, update_self]
      exact Set.empty_subset _
    · rw [update_of_ne hu]
  constructor
  · exact ⟨c, hcur, (update_of_ne hct _ _).trans hnone⟩
  · intro u v huv
    exact (hinv.apart u v huv).mono (hsub u) (hsub v)
  · intro u ctx hctx
    simp only [SwitchState.destroy] at hctx ⊢
    by_cases hu : u = t
    · rw [hu, update_self] at hctx
      cases hctx
    · rw [update_of_ne hu] at hctx ⊢
      exact hinv.saved u ctx hctx

lemma SwitchInv.step (hinv : SwitchInv st) (hstep : SwitchStep st act st') : SwitchInv st' := by
  cases hstep with
  | run hc hrun => exact hinv.run hc hrun
  | create ht hstack => exact hinv.create ht hstack
  | destroy ht => exact hinv.destroy ht
  | switch h =>
    obtain ⟨ctx, hs⟩ := hinv.switched h
    exact SwitchInv.switch hinv h hs

lemma switchInv_start (h : SwitchStart st) : SwitchInv st where
  current := h.current.imp fun c hc => ⟨hc, h.nobody c⟩
  apart := h.apart
  saved := fun u ctx hctx => by
    rw [h.nobody u] at hctx
    cases hctx

lemma switchInv_of_reached {good : SwitchState → SwitchAction → Prop}
    (run : switchMachine.Reached good st) : SwitchInv st :=
  run.invariant (fun _ => switchInv_start) fun _ _ _ hinv _ hstep => hinv.step hstep

/-- Whatever was run, created, destroyed and switched before: a handler gives the thread that it
resumes its own `rip`, `rsp`, `rflags` and six of its registers, and all of what it had when it was
interrupted exactly when the calls behind the pops are harmless. A new thread starts with what
`create_thread` has put on its stack in this sense. -/
theorem switch_restores_context_iff (run : switchMachine.Reached (fun _ _ => True) st)
    (hstep : SwitchStep st (.switch handler calls) st') :
    ∃ n ctx, st'.sched.currentThread = some n ∧ st.expected n = some ctx ∧
      st'.context.user = ctx.user ∧ (∀ r ∈ calleeSaved, st'.context.regs r = ctx.regs r) ∧
      (st'.context = ctx ↔ calls.Harmless) := by
  cases hstep with
  | switch h =>
    obtain ⟨ctx, hs⟩ := (switchInv_of_reached run).switched h
    exact ⟨_, ctx, h.resumed, hs.expected, hs.user h, fun r hr => hs.calleeSaved h hr,
      hs.context_iff h⟩

/-- One thread, alone in the ready ring. -/
def loneThread : SwitchState where
  sched := { enqueueThread (blankScheduler zeroThread) 0 with currentThread := some 0 }
  cpu := ⟨fun _ => 0, 1000, 0, 0, fun _ => 0⟩
  rip := 64
  rflags := 0x202
  stack := fun t => if t = 0 then {a | a < 1000} else ∅
  frames := fun _ => none

lemma loneThread_start : switchMachine.start loneThread where
  current := ⟨0, rfl⟩
  apart := by
    intro u v huv
    simp only [loneThread]
    split_ifs with hu hv
    · exact absurd (hu.trans hv.symm) huv
    · exact Set.disjoint_empty _
    · exact Set.empty_disjoint _
    · exact Set.empty_disjoint _
  nobody := fun _ => rfl

/-- A tick in which `scheduler_handler` returns `rsp` and `lapic_eoi` leaves `x` in `rax`. -/
def tickCalls (st : SwitchState) (rsp x : Nat) : Calls :=
  let scheduler := { st.entered 992 0 0 with regs := update (st.entered 992 0 0).regs .rax rsp }
  let eoi := { restoreRegs scheduler with
    regs := update (restoreRegs scheduler).regs .rax x }
  ⟨scheduler, eoi, { reloadEntry eoi with regs := update (reloadEntry eoi).regs .rdi 0 }⟩

lemma abiCall_update {r : Reg} (hr : r ∉ calleeSaved) (x : Nat) :
    AbiCall stack t c { c with regs := update c.regs r x } where
  rsp := rfl
  saved := fun r' hr' => update_of_ne (fun heq : r' = r => hr (heq ▸ hr')) x c.regs
  kept := fun _ _ _ _ => rfl

lemma tickCalls_switches {s' : Scheduler} (hcur : st.sched.currentThread = some 0)
    (hstack : st.stack 0 = {a | a < 1000}) (hsaved : n ≠ 0 → st.frames n ≠ none)
    (hhandled : schedulerHandler st.sched 832 = some (s', r)) (hnext : s'.currentThread = some n)
    (x : Nat) : Switches st .timer (tickCalls st r x) 0 n 992 0 0 s' where
  interrupted := hcur
  room := by
    rw [hstack]
    exact ⟨by omega, fun a _ ha => show a < 1000 by omega⟩
  scheduler := abiCall_update (by decide) r
  handled := by
    have hrdi : (st.entered 992 0 0).regs .rdi = 832 := by
      simp [SwitchState.entered, handlerEntry, interruptEntry, Cpu.push, Cpu.pushValues, saveOrder]
    have hrax := update_self Reg.rax r (st.entered 992 0 0).regs
    rw [hrdi, hhandled]
    exact congrArg (fun r => some (s', r)) hrax.symm
  resumed := hnext
  saved := hsaved
  eoi := by exact abiCall_update (by decide) x
  reload := abiCall_update (by decide) 0

/-- The thread creates another one. -/
def twoThreads : SwitchState := loneThread.create 1 2000 1024 0x5000 0x6000

lemma twoThreads_reached : switchMachine.Reached (fun _ _ => True) twoThreads := by
  refine .step (.start loneThread_start) trivial (.create (by decide) ⟨by decide, ?_⟩)
  intro u _ a ha
  simp only [loneThread] at ha
  split_ifs at ha
  · exact fun hin => absurd (show a < 1000 from ha) (by omega)
  · cases ha

def secondRuns : Scheduler := ((schedulerHandler twoThreads.sched 832).getD (twoThreads.sched, 0)).1

/-- A tick starts the other thread with the frame that was built for it. -/
theorem switch_restores_context_tick :
    ∃ st', switchMachine.step twoThreads (.switch .timer (tickCalls twoThreads 2856 0)) st' ∧
      st'.sched.currentThread = some 1 ∧ st'.context = newContext 3024 0x5000 := by
  have hswitch : Switches twoThreads .timer (tickCalls twoThreads 2856 0) 0 1 992 0 0 secondRuns :=
    tickCalls_switches rfl rfl (fun _ => some_ne_none _) (by rfl) (by rfl) 0
  have hharmless : (tickCalls twoThreads 2856 0).Harmless :=
    ⟨rfl, fun r _ _ => by cases r <;> rfl⟩
  obtain ⟨n, ctx, hcur, hexp, -, -, hiff⟩ := switch_restores_context_iff twoThreads_reached
    (.switch hswitch)
  cases hswitch.resumed.symm.trans hcur
  cases hexp
  exact ⟨_, .switch hswitch, hcur, hiff.mpr hharmless⟩

/-- The thread had 0 in `rax`. -/
theorem tick_changes_rax :
    ∃ st', switchMachine.step loneThread (.switch .timer (tickCalls loneThread 832 1)) st' ∧
      st'.sched.currentThread = some 0 ∧ loneThread.expected 0 = some loneThread.context ∧
      loneThread.context.regs .rax = 0 ∧ st'.context.regs .rax = 1 :=
  ⟨_, .switch (tickCalls_switches rfl rfl (fun h => absurd rfl h) rfl rfl 1), rfl, rfl, rfl, rfl⟩

end DestinX.Sched
