import DestinX.Base.RoundRobin
import DestinX.Base.Runs
import DestinX.Sched.Switch

/-!
# Round robin

Which thread `scheduler_handler` selects, over whole runs. It goes on to the next thread in
the ring, but when the running thread has left the ring it starts again at the head. The
threads behind the one that left are passed over, and those before it get another turn.
-/

namespace DestinX.Sched

open Base List Option

inductive RoundAction where
  | switch (rsp : Nat)
  | stop (state : ThreadState)
  | create (t stack size : Nat)
  | wake (t : Nat)
  | other

/-- The ring, the running thread and the states in the ring are as before. -/
structure SameRing (s s' : Scheduler) : Prop where
  head : s'.readyListHead = s.readyListHead
  current : s'.currentThread = s.currentThread
  threads : ∀ t, InRing s t → (s'.threads t).next = (s.threads t).next ∧
    (s'.threads t).prev = (s.threads t).prev ∧ (s'.threads t).state = (s.threads t).state

/-- The running thread may mark itself as blocked or dead; the handler then takes it from the
ring. Threads that are created or woken are put into the ring. -/
inductive RoundMove : Scheduler → RoundAction → Scheduler → Prop
  | switch {s s' : Scheduler} {rsp r : Nat} (hcall : schedulerHandler s rsp = some (s', r)) :
      RoundMove s (.switch rsp) s'
  | stop {s : Scheduler} {c : Nat} {state : ThreadState} (hcur : s.currentThread = some c)
      (hstate : state = .blocked ∨ state = .dead) :
      RoundMove s (.stop state) (s.modify c (Thread.setState state))
  | create {s : Scheduler} {t stack size : Nat} (hfresh : ¬ InRing s t) :
      RoundMove s (.create t stack size) (createThread s t stack size)
  | wake {s : Scheduler} {t : Nat} (hout : ¬ InRing s t) :
      RoundMove s (.wake t) (enqueueThread (s.modify t (Thread.setState .ready)) t)
  | other {s s' : Scheduler} (hsame : SameRing s s') : RoundMove s .other s'

/-- The log says after each step which thread was selected and which ones are in the ring. -/
structure RoundState where
  sched : Scheduler
  log : List (Event Nat)

def RoundAction.selected (s' : Scheduler) : RoundAction → Option Nat
  | .switch _ => s'.currentThread
  | _ => none

def TwoInRing (s : Scheduler) : Prop := ∃ a b, a ≠ b ∧ InRing s a ∧ InRing s b

/-- The ring with the running thread, and every other thread in it is ready. -/
structure AtHand (s : Scheduler) (h : Hand Nat) : Prop where
  ring : ReadyRing s h.ring
  current : s.currentThread = some h.current
  ready : ∀ u ∈ h.ring, u ≠ h.current → (s.threads u).state = .ready

/-- The ring always holds at least two threads. -/
def roundMachine : Machine RoundState RoundAction where
  start st := st.log = [] ∧ TwoInRing st.sched ∧ ∃ h, AtHand st.sched h
  step st act st' := RoundMove st.sched act st'.sched ∧ TwoInRing st'.sched ∧
    st'.log = ⟨act.selected st'.sched, InRing st'.sched⟩ :: st.log

/-- The selections so far are in round-robin order, and so will be the next ones: a thread
that waits since another one was selected comes before it. -/
def InRoundRobin (st : RoundState) : Prop :=
  RoundRobin st.log ∧ ∃ h, AtHand st.sched h ∧
    ∀ a c, c ≠ a → Waits st.log a c → a ∈ h.ring → [c, a].Sublist h.turns

/-- When the running thread has stopped, no thread behind it in the ring waits since one before
it was selected. So it is when the thread is the first or the last one. -/
def KeepsOrder (st : RoundState) : RoundAction → Prop
  | .switch _ => ∀ h, AtHand st.sched h → Stopped st.sched h.current → h.Harmless st.log
  | _ => True

variable {s s' : Scheduler} {st st' : RoundState} {act : RoundAction} {h h' : Hand Nat}
  {l l' : List Nat} {state : ThreadState} {c t n rsp r : Nat}

/-! ## The ring and the running thread -/

lemma ReadyRing.unique (hl : ReadyRing s l) (hl' : ReadyRing s l') : l = l' :=
  hl.ring.unique hl'.ring (hl.head.symm.trans hl'.head)

section

variable (hh : AtHand s h)
include hh

lemma AtHand.unique (hh' : AtHand s h') : h = h' := by
  have hcur : h.current = h'.current := some_inj.mp (hh.current.symm.trans hh'.current)
  have hring : h.ring = h'.ring := hh.ring.unique hh'.ring
  have hnd := hh.ring.ring.nodup
  obtain ⟨before', current', behind'⟩ := h'
  subst hcur
  obtain ⟨-, hmid⟩ := Hand.left_nodup hnd
  rw [mem_append, not_or] at hmid
  obtain ⟨rfl, -, rfl⟩ := (append_cons_inj_of_notMem hmid.1 hmid.2).mp hring
  rfl

lemma AtHand.two_le (htwo : TwoInRing s) : 2 ≤ h.ring.length := by
  obtain ⟨a, b, hne, ha, hb⟩ := htwo
  have hsub : [a, b] ⊆ h.ring := by
    intro u hu
    rcases mem_pair.mp hu with rfl | rfl
    · exact hh.ring.inRing_iff.mp ha
    · exact hh.ring.inRing_iff.mp hb
  have hnd : [a, b].Nodup := by simpa using hne
  exact (subperm_of_subset hnd hsub).length_le

/-- The threads in the ring and their states are as before, except for that of the running one. -/
lemma AtHand.congr (hhead : s'.readyListHead = s.readyListHead)
    (hcur : s'.currentThread = s.currentThread)
    (hlinks : ∀ u ∈ h.ring, (s'.threads u).next = (s.threads u).next ∧
      (s'.threads u).prev = (s.threads u).prev)
    (hstate : ∀ u ∈ h.ring, u ≠ h.current → (s'.threads u).state = (s.threads u).state) :
    AtHand s' h :=
  ⟨hh.ring.congr hhead (fun u hu => (hlinks u hu).1) fun u hu => (hlinks u hu).2,
    hcur.trans hh.current, fun u hu hne => (hstate u hu hne).trans (hh.ready u hu hne)⟩

lemma AtHand.stop (hcur : s.currentThread = some c) :
    AtHand (s.modify c (Thread.setState state)) h := by
  obtain rfl : h.current = c := some_inj.mp (hh.current.symm.trans hcur)
  refine hh.congr rfl rfl (fun u _ => ?_) fun u _ hne => ?_
  · rw [modify_threads]
    split_ifs with hu
    · rw [hu]
      exact ⟨rfl, rfl⟩
    · exact ⟨rfl, rfl⟩
  · rw [modify_threads, if_neg hne]

lemma AtHand.enter (hw : Woken s s' h.ring t) (hcur : s'.currentThread = s.currentThread) :
    AtHand s' (h.enter t) := by
  have hring : (h.enter t).ring = h.ring ++ [t] := by simp [Hand.ring, Hand.enter]
  refine ⟨hring ▸ hw.ring, hcur.trans hh.current, fun u hu hne => ?_⟩
  rw [hw.state u]
  split_ifs with hut
  · rfl
  · rw [hring, mem_append, mem_singleton] at hu
    exact hh.ready u (hu.resolve_right hut) hne

/-- The hand after the handler, and the thread that is selected. -/
lemma AtHand.switch (htwo : TwoInRing s) (hcall : schedulerHandler s rsp = some (s', r)) :
    ∃ n w, s'.currentThread = some n ∧
      (Stopped s h.current → h.before ++ h.behind = n :: w ∧ AtHand s' h.leave) ∧
      (¬ Stopped s h.current → h.behind ++ h.before = n :: w ∧ AtHand s' h.pass) := by
  have hmem : h.current ∈ h.ring := mem_append_right _ mem_cons_self
  obtain ⟨s1, r1, n, hcall1, hsw, hnext⟩ :=
    hh.ring.schedulerHandler hh.current hmem (hh.two_le htwo) hh.ready rsp
  obtain ⟨rfl, -⟩ := Prod.mk.inj (some.inj (hcall1.symm.trans hcall))
  have hnd := hh.ring.ring.nodup
  by_cases hstop : Stopped s h.current
  · have hafter : ringAfter s h.ring h.current = h.before ++ h.behind := by
      have hnot := (Hand.left_nodup hnd).2
      rw [mem_append, not_or] at hnot
      rw [ringAfter, if_pos hstop, Hand.ring, erase_append_right _ hnot.1, erase_cons_head]
    have herase : h.ring.erase h.current = h.before ++ h.behind := by
      rw [← hafter, ringAfter, if_pos hstop]
    rw [if_pos hstop, herase] at hnext
    obtain ⟨w, hw⟩ := head?_eq_some_iff.mp hnext
    refine ⟨n, w, hsw.current, fun _ => ⟨hw, ?_⟩, fun hno => absurd hstop hno⟩
    rw [Hand.leave_eq hw]
    refine ⟨?_, hsw.current, fun u hu hne => ?_⟩
    · have hring := hsw.ring
      rwa [hafter, hw] at hring
    · have hu' : u ∈ h.before ++ h.behind := by
        rw [hw]
        exact hu
      have huc : u ≠ h.current := by
        rintro rfl
        exact (Hand.left_nodup hnd).2 hu'
      rw [hsw.state, if_neg hne, if_neg fun heq => huc heq.1]
      refine hh.ready u ?_ huc
      simp only [Hand.ring, mem_append, mem_cons] at hu' ⊢
      tauto
  · rw [if_neg hstop] at hnext
    have hfirst : (h.behind ++ h.before ++ [h.current]).head? = some n :=
      hh.ring.ring.next_eq.symm.trans hnext
    obtain ⟨w, hw⟩ : ∃ w, h.behind ++ h.before = n :: w := by
      cases hl : h.behind ++ h.before with
      | nil =>
        rw [hl] at hfirst
        exact absurd (some_inj.mp hfirst).symm hsw.ne
      | cons d w =>
        rw [hl] at hfirst
        exact ⟨w, by rw [some_inj.mp hfirst]⟩
    obtain ⟨hcur, -, hring⟩ := Hand.pass_eq hw
    refine ⟨n, w, hsw.current, fun hyes => absurd hyes hstop, fun _ => ⟨hw, ?_⟩⟩
    refine ⟨?_, by rw [hsw.current, hcur], fun u hu hne => ?_⟩
    · have hring' := hsw.ring
      rwa [ringAfter, if_neg hstop, ← hring] at hring'
    · rw [hring] at hu
      rw [hcur] at hne
      rw [hsw.state, if_neg hne]
      split_ifs with huc
      · rfl
      · exact hh.ready u hu fun heq => huc ⟨heq, hstop⟩

end

/-! ## Every step -/

structure RoundKept (st : RoundState) (h : Hand Nat) : Prop where
  hand : AtHand st.sched h
  two : TwoInRing st.sched
  fair : RoundRobin st.log
  order : InOrder h st.log

lemma RoundKept.inRoundRobin (hk : RoundKept st h) : InRoundRobin st :=
  ⟨hk.fair, h, hk.hand, hk.order.inside⟩

lemma RoundKept.start (hst : roundMachine.start st) : ∃ h, RoundKept st h := by
  obtain ⟨hlog, htwo, h, hh⟩ := hst
  refine ⟨h, hh, htwo, hlog ▸ roundRobin_nil, ⟨hh.ring.ring.nodup, ?_, ?_, ?_⟩⟩
  · intro a c hw
    rw [hlog] at hw
    exact absurd hw not_waits_nil
  · intro a c _ hw
    rw [hlog] at hw
    exact absurd hw not_waits_nil
  · intro a c hw
    rw [hlog] at hw
    exact absurd hw not_waits_nil

lemma AtHand.lists (hh : AtHand s h) (sel : Option Nat) :
    (⟨sel, InRing s⟩ : Event Nat).Lists h := fun _ => hh.ring.inRing_iff

section

variable (hk : RoundKept st h)
include hk

lemma RoundKept.enter {sched : Scheduler} (htwo : TwoInRing sched) (ht : ¬ InRing st.sched t)
    (hw : Woken st.sched sched h.ring t) (hcur : sched.currentThread = st.sched.currentThread) :
    RoundKept ⟨sched, ⟨none, InRing sched⟩ :: st.log⟩ (h.enter t) :=
  ⟨hk.hand.enter hw hcur, htwo, RoundRobin.quiet hk.fair rfl,
    hk.order.enter (fun hmem => ht (hk.hand.ring.inRing_iff.mpr hmem)) rfl⟩

lemma RoundKept.quiet {sched : Scheduler} (htwo : TwoInRing sched) (hh : AtHand sched h) :
    RoundKept ⟨sched, ⟨none, InRing sched⟩ :: st.log⟩ h :=
  ⟨hh, htwo, RoundRobin.quiet hk.fair rfl, hk.order.quiet rfl⟩

lemma RoundKept.switch {sched : Scheduler} (htwo : TwoInRing sched)
    (hact : KeepsOrder st (.switch rsp)) (hcall : schedulerHandler st.sched rsp = some (sched, r)) :
    ∃ h', RoundKept ⟨sched, ⟨sched.currentThread, InRing sched⟩ :: st.log⟩ h' := by
  obtain ⟨n, w, hcur, hleave, hpass⟩ := hk.hand.switch hk.two hcall
  rw [hcur]
  have hfair : (∀ c, c ≠ n → ¬ Waits st.log n c) →
      RoundRobin (⟨some n, InRing sched⟩ :: st.log) := by
    intro hnone
    refine roundRobin_cons.mpr ⟨hk.fair, fun a c ha hne _ => ?_⟩
    obtain rfl : n = a := some_inj.mp ha
    exact hnone c hne
  by_cases hstop : Stopped st.sched h.current
  · obtain ⟨hring, hh⟩ := hleave hstop
    obtain ⟨hnone, horder⟩ := hk.order.leave (hact h hk.hand hstop) hring rfl (hh.lists (some n))
    exact ⟨h.leave, hh, htwo, hfair hnone, horder⟩
  · obtain ⟨hturns, hh⟩ := hpass hstop
    obtain ⟨hnone, horder⟩ := hk.order.pass hturns rfl (hh.lists (some n))
    exact ⟨h.pass, hh, htwo, hfair hnone, horder⟩

lemma RoundKept.step (hact : KeepsOrder st act) (hstep : roundMachine.step st act st') :
    ∃ h', RoundKept st' h' := by
  obtain ⟨sched, log⟩ := st'
  obtain ⟨hmove, htwo, hlog⟩ := hstep
  dsimp only at hmove htwo hlog
  subst hlog
  cases hmove with
  | switch hcall => exact hk.switch htwo hact hcall
  | stop hcur hstate => exact ⟨h, hk.quiet htwo (hk.hand.stop hcur)⟩
  | create hfresh =>
    have ht := fun hmem => hfresh (hk.hand.ring.inRing_iff.mpr hmem)
    exact ⟨_, hk.enter htwo hfresh (createThread_woken hk.hand.ring ht _ _)
      (globals_eq enqueueThread_globals).2.1⟩
  | @wake t hout =>
    have ht := fun hmem => hout (hk.hand.ring.inRing_iff.mpr hmem)
    have hw := hk.hand.ring.enter ht (a := st.sched.modify t (Thread.setState .ready))
      (fun u hu => by rw [modify_threads, if_neg hu]) (by rw [modify_threads, if_pos rfl]; rfl) rfl
    exact ⟨_, hk.enter htwo hout hw (globals_eq enqueueThread_globals).2.1⟩
  | other hsame =>
    have hthreads := fun u hu => hsame.threads u (hk.hand.ring.inRing_iff.mpr hu)
    exact ⟨h, hk.quiet htwo (hk.hand.congr hsame.head hsame.current
      (fun u hu => ⟨(hthreads u hu).1, (hthreads u hu).2.1⟩) fun u hu _ => (hthreads u hu).2.2)⟩

/-- When a thread leaves in the middle and one behind it waits, the order is lost. -/
lemma RoundKept.breaks (hact : ¬ KeepsOrder st act) (hstep : roundMachine.step st act st') :
    ¬ InRoundRobin st' := by
  rintro ⟨hfair, h', hh', horder⟩
  obtain ⟨sched, log⟩ := st'
  obtain ⟨hmove, htwo, hlog⟩ := hstep
  dsimp only at hmove htwo hlog hh' horder hfair
  subst hlog
  cases hmove with
  | switch hcall =>
    simp only [KeepsOrder, not_forall] at hact
    obtain ⟨h0, hh0, hstop, hbad⟩ := hact
    obtain rfl := hh0.unique hk.hand
    obtain ⟨n, w, hcur, hleave, -⟩ := hk.hand.switch hk.two hcall
    obtain ⟨hring, hh⟩ := hleave hstop
    obtain rfl := hh'.unique hh
    obtain ⟨a, c, hne, hw, ha, hnot⟩ := leave_breaks hk.order.nodup hbad hring hcur
      (hh.lists _) hfair
    exact hnot (horder a c hne hw ha)
  | stop hcur hstate => exact hact trivial
  | create hfresh => exact hact trivial
  | wake hout => exact hact trivial
  | other hsame => exact hact trivial

end

/-! ## Main result -/

/-- The threads are selected in round-robin order as long as no thread stops in the middle of the
ring with threads behind it that wait. The first one that does ends this. -/
theorem round_robin_iff (run : roundMachine.Reached KeepsOrder st) :
    roundMachine.SafeExactlyWhen InRoundRobin KeepsOrder st :=
  run.safeExactlyWhen (fun _ hst => RoundKept.start hst)
    (fun _ _ _ ⟨_, hk⟩ hact hstep => hk.step hact hstep) (fun _ ⟨_, hk⟩ => hk.inRoundRobin)
    fun _ _ _ ⟨_, hk⟩ hstep hact => hk.breaks hact hstep

/-- The ring of the threads 0, 1 and 2, of which 2 runs. -/
def ringOfThree : Scheduler :=
  { blankScheduler zeroThread with
    threads := fun t => { zeroThread with
      state := if t = 2 then .running else .ready
      next := some ((t + 1) % 3)
      prev := some ((t + 2) % 3) }
    live := [0, 1, 2]
    readyListHead := some 0
    currentThread := some 2 }

def Scheduler.switched (s : Scheduler) : Scheduler := ((schedulerHandler s 0).getD (s, 0)).1

/-- Thread 0 is selected, then thread 1, which blocks. -/
def oneBlocked : Scheduler :=
  ringOfThree.switched.switched.modify 1 (Thread.setState .blocked)

lemma ringOfThree_hand : AtHand ringOfThree ⟨[0, 1], 2, []⟩ := by
  have hchain : [0, 1, 2, 0].IsChain (Linked ringOfThree.next ringOfThree.prev) :=
    .cons_cons ⟨rfl, rfl⟩ (.cons_cons ⟨rfl, rfl⟩ (.cons_cons ⟨rfl, rfl⟩ (.singleton _)))
  exact ⟨⟨rfl, ring_cons.mpr ⟨hchain, by decide⟩⟩, rfl, by decide⟩

lemma AtHand.twoInRing {a b : Nat} {l : List Nat} (hh : AtHand s h) (hring : h.ring = a :: b :: l) :
    TwoInRing s := by
  have hnodup : (a :: b :: l).Nodup := hring ▸ hh.ring.ring.nodup
  have hmem : ∀ t ∈ a :: b :: l, InRing s t := fun t ht => hh.ring.inRing_iff.mpr (hring ▸ ht)
  exact ⟨a, b, by simp_all, hmem a (by simp), hmem b (by simp)⟩

lemma firstSelected_hand : AtHand ringOfThree.switched ⟨[], 0, [1, 2]⟩ := by
  have hcall : schedulerHandler ringOfThree 0 = some (ringOfThree.switched, 0) := rfl
  obtain ⟨_, _, -, -, hpass⟩ := ringOfThree_hand.switch
    (ringOfThree_hand.twoInRing rfl) hcall
  exact (hpass (by decide)).2

lemma secondSelected_hand : AtHand ringOfThree.switched.switched ⟨[0], 1, [2]⟩ := by
  have hcall : schedulerHandler ringOfThree.switched 0 =
      some (ringOfThree.switched.switched, 0) := rfl
  obtain ⟨_, _, -, -, hpass⟩ := firstSelected_hand.switch
    (firstSelected_hand.twoInRing rfl) hcall
  exact (hpass (by decide)).2

lemma oneBlocked_hand : AtHand oneBlocked ⟨[0], 1, [2]⟩ := secondSelected_hand.stop rfl

lemma firstAgain_hand : AtHand oneBlocked.switched ⟨[], 0, [2]⟩ := by
  have hcall : schedulerHandler oneBlocked 0 = some (oneBlocked.switched, 0) := rfl
  obtain ⟨_, _, -, hleave, -⟩ := oneBlocked_hand.switch
    (oneBlocked_hand.twoInRing rfl) hcall
  exact (hleave (by decide)).2

/-- The log until thread 1 blocks. -/
def blockedLog : List (Event Nat) :=
  [⟨none, InRing oneBlocked⟩, ⟨some 1, InRing ringOfThree.switched.switched⟩,
    ⟨some 0, InRing ringOfThree.switched⟩]

lemma oneBlocked_reached : roundMachine.Reached KeepsOrder ⟨oneBlocked, blockedLog⟩ := by
  have hstart : roundMachine.start ⟨ringOfThree, []⟩ :=
    ⟨rfl, ringOfThree_hand.twoInRing rfl, _, ringOfThree_hand⟩
  have hstep1 : roundMachine.step ⟨ringOfThree, []⟩ (.switch 0)
      ⟨ringOfThree.switched, blockedLog.drop 2⟩ :=
    ⟨.switch rfl, firstSelected_hand.twoInRing rfl, rfl⟩
  have hstep2 : roundMachine.step ⟨ringOfThree.switched, blockedLog.drop 2⟩ (.switch 0)
      ⟨ringOfThree.switched.switched, blockedLog.drop 1⟩ :=
    ⟨.switch rfl, secondSelected_hand.twoInRing rfl, rfl⟩
  have hstep3 : roundMachine.step ⟨ringOfThree.switched.switched, blockedLog.drop 1⟩
      (.stop .blocked) ⟨oneBlocked, blockedLog⟩ :=
    ⟨.stop rfl (.inl rfl),
      oneBlocked_hand.twoInRing rfl, rfl⟩
  -- the threads that are switched from have not stopped
  have hkeep1 : KeepsOrder ⟨ringOfThree, []⟩ (.switch 0) := by
    intro h hh hstop
    obtain rfl := hh.unique ringOfThree_hand
    exact absurd hstop (by decide)
  have hkeep2 : KeepsOrder ⟨ringOfThree.switched, blockedLog.drop 2⟩ (.switch 0) := by
    intro h hh hstop
    obtain rfl := hh.unique firstSelected_hand
    exact absurd hstop (by decide)
  have hkeep3 : KeepsOrder ⟨ringOfThree.switched.switched, blockedLog.drop 1⟩ (.stop .blocked) :=
    trivial
  exact .step (.step (.step (.start hstart) hkeep1 hstep1) hkeep2 hstep2) hkeep3 hstep3

/-- Up to the call of the handler by thread 1. -/
theorem round_robin_until_blocked :
    roundMachine.SafeExactlyWhen InRoundRobin KeepsOrder ⟨oneBlocked, blockedLog⟩ :=
  round_robin_iff oneBlocked_reached

/-- Thread 0 is selected again, and thread 2, which was in the ring all the time, was not. -/
theorem thread_behind_passed_over : roundMachine.Reached KeepsOrder ⟨oneBlocked, blockedLog⟩ ∧
      roundMachine.step ⟨oneBlocked, blockedLog⟩ (.switch 0)
        ⟨oneBlocked.switched, ⟨some 0, InRing oneBlocked.switched⟩ :: blockedLog⟩ ∧
      ¬ RoundRobin (⟨some 0, InRing oneBlocked.switched⟩ :: blockedLog) := by
  refine ⟨oneBlocked_reached, ⟨.switch rfl, firstAgain_hand.twoInRing rfl, rfl⟩, fun hfair => ?_⟩
  have hthere : ∀ {s h}, AtHand s h → 2 ∈ h.ring → InRing s 2 := fun hh => hh.ring.inRing_iff.mpr
  obtain ⟨e, he, hsel⟩ := hfair [] (blockedLog.take 2) [] ⟨some 0, InRing ringOfThree.switched⟩
    ⟨some 0, InRing oneBlocked.switched⟩ 0 2 rfl rfl rfl (by decide)
    (hthere firstSelected_hand (by decide)) (hthere firstAgain_hand (by decide)) (by
      intro e he
      rcases mem_pair.mp he with rfl | rfl
      · exact hthere oneBlocked_hand (by decide)
      · exact hthere secondSelected_hand (by decide))
  rcases mem_pair.mp he with rfl | rfl
  · cases hsel
  · cases hsel

end DestinX.Sched
