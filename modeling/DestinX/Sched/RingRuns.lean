import DestinX.Base.Runs
import DestinX.Sched.Boot
import DestinX.Sched.Cleanup

/-!
# Runs of the scheduler

Any sequence of thread creation, exits, locks, unlocks, calls of `scheduler_handler` and
clean-ups. Except for the handler, the steps are taken by the running thread: one that marked
itself blocked only goes on to `yield`.

The ring stays intact as long as no clean-up destroys a thread with a user stack. The main
thread can be one: `init_scheduler` does not clear its memory.
-/

namespace DestinX.Sched

open Base Function List Option Prod

inductive SchedAction where
  | create (t stack size : Nat)
  | exit (rsp : Nat)
  | lock (m : Nat)
  | unlock (m : Nat)
  | schedule (rsp : Nat)
  | cleanup

def Running (s : Scheduler) (c : Nat) : Prop :=
  s.currentThread = some c ∧ (s.threads c).state = .running

/-- One step. The threads `kr` and `cln` never block or exit. -/
inductive SchedStep (kr cln : Nat) : System → SchedAction → System → Prop
  | create {sys : System} {c t stack size : Nat} (hrun : Running sys.sched c)
      (hfresh : t ∉ sys.sched.live) :
      SchedStep kr cln sys (.create t stack size)
        { sys with sched := createThread sys.sched t stack size }
  | exit {sys : System} {c rsp r : Nat} {s' : Scheduler} (hrun : Running sys.sched c)
      (hc : c ≠ kr ∧ c ≠ cln) (he : threadExit sys.sched rsp = some (s', r)) :
      SchedStep kr cln sys (.exit rsp) { sys with sched := s', exited := c :: sys.exited }
  | lock {sys : System} {c m : Nat} {s' : Scheduler} {mutex : Mutex} (hrun : Running sys.sched c)
      (hc : (sys.mutexes m).locked ≠ 0 → c ≠ kr ∧ c ≠ cln)
      (he : mutexLock sys.sched (sys.mutexes m) = some (s', mutex)) :
      SchedStep kr cln sys (.lock m) { sys with sched := s', mutexes := update sys.mutexes m mutex }
  | unlock {sys : System} {c m : Nat} (hrun : Running sys.sched c) :
      SchedStep kr cln sys (.unlock m) (sys.unlock m)
  | schedule {sys : System} {rsp r : Nat} {s' : Scheduler}
      (he : schedulerHandler sys.sched rsp = some (s', r)) :
      SchedStep kr cln sys (.schedule rsp) { sys with sched := s' }
  | cleanup {sys : System} {c : Nat} {s' : Scheduler} {ds : List Nat} (hrun : Running sys.sched c)
      (he : cleanupDeadThreads sys.sched = some (s', ds)) :
      SchedStep kr cln sys .cleanup { sys with sched := s', destroyed := ds ++ sys.destroyed }

/-- A clean-up finds no thread with a user stack on the dead list. -/
def SchedAction.Plain (sys : System) : SchedAction → Prop
  | .cleanup => ∀ t, Reaches sys.sched.next sys.sched.deadListHead t → ¬ Releases sys.sched t
  | _ => True

def schedMachine (boot : System) (kr cln : Nat) : Machine System SchedAction where
  start sys := sys = boot
  step := SchedStep kr cln

def bootSystem (s : Scheduler) (mutexes : Nat → Mutex)
    (kp main kr cln krStack clnStack : Nat) : System :=
  ⟨initScheduler s kp main kr cln krStack clnStack, mutexes, [], []⟩

/-- What holds in every state: the ready list is a circle of the running thread and
all ready ones, the dead list holds every thread that exited and was not destroyed,
and the handler switches to a ready thread. -/
structure RingSound (sys : System) : Prop where
  lists : ∃ l d, ReadyRing sys.sched l ∧ (∀ u, u ∈ l ↔ sys.sched.currentThread = some u ∨
      (u ∈ sys.sched.live ∧ (sys.sched.threads u).state = .ready)) ∧
    Chain sys.sched.next sys.sched.deadListHead d ∧ d.Nodup ∧
    (∀ u ∈ d, u ∉ l ∧ u ∈ sys.sched.live ∧ (sys.sched.threads u).state = .dead) ∧
    sys.exited.Perm (sys.destroyed ++ d)
  handler : ∀ rsp, ∃ s' r n, schedulerHandler sys.sched rsp = some (s', r) ∧
    s'.currentThread = some n ∧ (sys.sched.threads n).state = .ready ∧
    (s'.threads n).state = .running

/-! ## The invariant -/

/-- Only the main thread has a process, and `kr` is its neighbour. -/
def MainOnly (main kr : Nat) (s : Scheduler) : Prop :=
  ∀ u ∈ s.live, (s.threads u).process ≠ none → u = main ∧ (s.threads u).nextPthread = some kr

structure RingInv (main kr cln : Nat) (sys : System) : Prop where
  core : ∃ l d Q, RingCore [kr, cln] sys l d Q
  current : ∀ c, sys.sched.currentThread = some c → (sys.sched.threads c).state ≠ .dead
  mainOnly : MainOnly main kr sys.sched
  apart : kr ≠ cln

variable {main kr cln : Nat} {sys sys' : System} {act : SchedAction} {l d : List Nat}
  {Q : Nat → List Nat}

lemma RingCore.two_le (h : RingCore [kr, cln] sys l d Q) (hne : kr ≠ cln) : 2 ≤ l.length := by
  have hsub : [kr, cln] ⊆ l := fun u hu => (h.keep u hu).1
  have hnd : [kr, cln].Nodup := by simpa using hne
  exact (subperm_of_subset hnd hsub).length_le

lemma RingInv.sound (h : RingInv main kr cln sys) : RingSound sys := by
  obtain ⟨l, d, Q, hcore⟩ := h.core
  refine ⟨⟨l, d, hcore.ring, hcore.inRing, hcore.dead, hcore.dead.nodup, ?_, hcore.log⟩,
    fun rsp => ?_⟩
  · intro u hu
    obtain ⟨hul, hur, hus, -⟩ := hcore.deadState u hu
    exact ⟨hur, hul, hus⟩
  · obtain ⟨s', r, c, n, he, -, hsw⟩ := hcore.switch (hcore.two_le h.apart) rsp
    exact ⟨s', r, n, he, hsw.current, hsw.wasReady, by rw [hsw.state, if_pos rfl]⟩

lemma MainOnly.congr {s s' : Scheduler} (h : MainOnly main kr s)
    (hlive : ∀ u ∈ s'.live, u ∈ s.live)
    (howner : ∀ u ∈ s'.live, (s'.threads u).process = (s.threads u).process ∧
      (s'.threads u).nextPthread = (s.threads u).nextPthread) : MainOnly main kr s' := by
  intro u hu hp
  obtain ⟨hproc, hnext⟩ := howner u hu
  rw [hproc] at hp
  rw [hnext]
  exact h u (hlive u hu) hp

/-! ## Steps keep the invariant -/

lemma RingInv.create (h : RingInv main kr cln sys) {t : Nat} (ht : t ∉ sys.sched.live)
    (stack size : Nat) :
    RingInv main kr cln { sys with sched := createThread sys.sched t stack size } := by
  obtain ⟨l, d, Q, hcore⟩ := h.core
  obtain ⟨hw, hlive, hcur, -⟩ :=
    createThread_spec hcore.ring (fun u hu => hcore.mem_live hu) ht stack size
  refine ⟨⟨_, d, Q, hcore.create ht stack size⟩, ?_, ?_, h.apart⟩
  · intro c hc
    rw [hw.state c]
    split_ifs
    · decide
    · exact h.current c (hcur ▸ hc)
  · intro u hu hp
    rw [hlive] at hu
    rcases mem_cons.mp hu with rfl | hu
    · exact absurd createThread_process hp
    · have hut : u ≠ t := fun he => ht (he ▸ hu)
      obtain ⟨-, -, hproc, hnext⟩ := fields_of_body (hw.body u hut)
      rw [hproc] at hp
      rw [hnext]
      exact h.mainOnly u hu hp

/-- The effect of a switch from a state in which the running thread may be marked
dead. -/
lemma RingCore.switch_inv {rsp r : Nat} {s' : Scheduler} (h : RingCore [kr, cln] sys l d Q)
    (hne : kr ≠ cln) (hmain : MainOnly main kr sys.sched)
    (he : schedulerHandler sys.sched rsp = some (s', r)) {exited : List Nat}
    (hx : ∀ c, sys.sched.currentThread = some c →
      exited = if (sys.sched.threads c).state = .dead then c :: sys.exited else sys.exited) :
    RingInv main kr cln { sys with sched := s', exited := exited } := by
  obtain ⟨s1, r1, c, n, he1, hc, hsw⟩ := h.switch (h.two_le hne) rsp
  obtain rfl : s1 = s' := congrArg fst (some.inj (he1.symm.trans he))
  have hx := hx c hc
  refine ⟨⟨_, if (sys.sched.threads c).state = .dead then c :: d else d, Q, h.switched hc hsw ?_⟩,
    ?_, ?_, hne⟩
  · split_ifs at hx ⊢
    · exact ⟨hx, rfl⟩
    · exact ⟨hx, rfl⟩
  · intro c' hc'
    obtain rfl : n = c' := some.inj (hsw.current.symm.trans hc')
    rw [hsw.state, if_pos rfl]
    decide
  · refine hmain.congr (fun u hu => hsw.live ▸ hu) fun u _ => ?_
    obtain ⟨-, -, hproc, hnext⟩ := fields_of_body (hsw.body u)
    exact ⟨hproc, hnext⟩

section

variable (h : RingInv main kr cln sys)
include h

lemma RingInv.exit {c rsp r : Nat} {s' : Scheduler} (hrun : Running sys.sched c)
    (hc : c ≠ kr ∧ c ≠ cln) (he : threadExit sys.sched rsp = some (s', r)) :
    RingInv main kr cln { sys with sched := s', exited := c :: sys.exited } := by
  obtain ⟨l, d, Q, hcore⟩ := h.core
  have hK : c ∉ [kr, cln] := by simpa using hc
  rw [threadExit, hrun.1] at he
  refine (hcore.mark_state hrun.1 hrun.2 hK .dead (by decide)).switch_inv h.apart ?_ he ?_
  · refine h.mainOnly.congr (fun u hu => hu) fun u _ => ?_
    by_cases hu : u = c <;> simp [hu, Thread.setState]
  · intro c' hc'
    obtain rfl : c = c' := some.inj (hrun.1.symm.trans hc')
    simp

lemma RingInv.lock {c m : Nat} {s' : Scheduler} {mutex : Mutex} (hrun : Running sys.sched c)
    (hc : (sys.mutexes m).locked ≠ 0 → c ≠ kr ∧ c ≠ cln)
    (he : mutexLock sys.sched (sys.mutexes m) = some (s', mutex)) :
    RingInv main kr cln { sys with sched := s', mutexes := update sys.mutexes m mutex } := by
  obtain ⟨l, d, Q, hcore⟩ := h.core
  rw [mutexLock] at he
  split_ifs at he with hlocked
  · cases he
    exact ⟨⟨l, d, Q, hcore.set_mutex rfl rfl⟩, h.current, h.mainOnly, h.apart⟩
  · have hK : c ∉ [kr, cln] := by simpa using hc hlocked
    have hcQ : c ∉ Q m := by
      intro hm
      have := (hcore.blocked m c hm).2
      rw [hrun.2] at this
      cases this
    rw [hrun.1] at he
    obtain rfl : (queueThread sys.sched (sys.mutexes m) c).1 = s' :=
      congrArg fst (some.inj he)
    obtain rfl : (queueThread sys.sched (sys.mutexes m) c).2 = mutex :=
      congrArg snd (some.inj he)
    obtain ⟨-, -, hqd⟩ := (hcore.queue m).queueThread hcQ
    obtain ⟨hlive, hcur, -⟩ := globals_eq hqd.globals
    refine ⟨⟨l, d, _, hcore.mark_blocked hrun.1 hrun.2 hK m⟩, ?_, ?_, h.apart⟩
    · intro c' hc'
      rw [hqd.state]
      split_ifs
      · decide
      · exact h.current c' (hcur ▸ hc')
    · refine h.mainOnly.congr (fun u hu => hlive ▸ hu) fun u _ => ⟨?_, ?_⟩
      · exact show (_ : Thread).unqueued.process = _ by rw [hqd.unqueued u]; rfl
      · exact show (_ : Thread).unqueued.nextPthread = _ by rw [hqd.unqueued u]; rfl

lemma RingInv.unlock {c : Nat} (hrun : Running sys.sched c) (m : Nat) :
    RingInv main kr cln (sys.unlock m) := by
  obtain ⟨l, d, Q, hcore⟩ := h.core
  obtain ⟨l', Q', hcore'⟩ := hcore.unlock hrun.1 hrun.2 m
  obtain ⟨hg, hframe⟩ := mutexUnlock_frame sys.sched (sys.mutexes m)
  obtain ⟨hlive, hcur, -⟩ := globals_eq hg
  refine ⟨⟨l', d, Q', hcore'⟩, ?_, ?_, h.apart⟩ <;> simp only [System.unlock]
  · intro c' hc'
    rcases (hframe c').1 with hs | hs
    · rw [hs]
      exact h.current c' (hcur ▸ hc')
    · rw [hs]
      decide
  · exact h.mainOnly.congr (fun u hu => hlive ▸ hu) fun u _ => (hframe u).2

lemma RingInv.cleanup {s' : Scheduler} {ds : List Nat} (hplain : SchedAction.cleanup.Plain sys)
    (he : cleanupDeadThreads sys.sched = some (s', ds)) :
    RingInv main kr cln { sys with sched := s', destroyed := ds ++ sys.destroyed } := by
  obtain ⟨l, d, Q, hcore⟩ := h.core
  obtain ⟨he', hcore'⟩ := hcore.cleanup fun t ht => hplain t (hcore.dead.reaches_iff.mpr ht)
  obtain ⟨hs, hds⟩ := mk.inj (some.inj (he'.symm.trans he))
  subst hs hds
  refine ⟨⟨l, [], Q, hcore'⟩, h.current, ?_, h.apart⟩
  exact h.mainOnly.congr (fun u hu => (hcore.liveNodup.mem_sdiff_iff.mp hu).1) fun u _ => ⟨rfl, rfl⟩

lemma RingInv.step (hstep : SchedStep kr cln sys act sys') (hplain : act.Plain sys) :
    RingInv main kr cln sys' := by
  cases hstep with
  | create hrun hfresh => exact h.create hfresh _ _
  | exit hrun hc he => exact h.exit hrun hc he
  | lock hrun hc he => exact h.lock hrun hc he
  | unlock hrun => exact h.unlock hrun _
  | schedule he =>
    obtain ⟨l, d, Q, hcore⟩ := h.core
    refine hcore.switch_inv h.apart h.mainOnly he fun c hc => ?_
    rw [if_neg (h.current c hc)]
  | cleanup hrun he => exact h.cleanup hplain he

/-! ## Destroying the main thread -/

/-- A clean-up that destroys a thread with a user stack leaves a thread of the ring
without a predecessor. -/
lemma RingInv.cleanup_broken {s' : Scheduler} {ds : List Nat}
    (he : cleanupDeadThreads sys.sched = some (s', ds)) (hrel : ¬ SchedAction.cleanup.Plain sys) :
    ¬ RingSound { sys with sched := s', destroyed := ds ++ sys.destroyed } := by
  obtain ⟨l, d, Q, hcore⟩ := h.core
  obtain ⟨t, ht⟩ := not_forall.mp hrel
  obtain ⟨hreach, hrt⟩ := Classical.not_imp.mp ht
  have hrt := not_not.mp hrt
  have htd : t ∈ d := hcore.dead.reaches_iff.mp hreach
  have hnd := hcore.dead.nodup
  obtain ⟨d1, d2, hd⟩ := append_of_mem htd
  -- the main thread is the only one with a process, so it is the only one of its kind here
  have hplain : ∀ u ∈ d, u ≠ t → ¬ Releases sys.sched u := by
    intro u hu hut hru
    have hu' := (h.mainOnly u (hcore.deadState u hu).1 hru.2).1
    have ht' := (h.mainOnly t (hcore.deadState t htd).1 hrt.2).1
    exact hut (hu'.trans ht'.symm)
  have hkr := hcore.keep kr (by simp)
  have hkd : kr ∉ d := fun hm => (hcore.deadState kr hm).2.1 hkr.1
  have hdt : ∀ u, u ∈ d1 ∨ u ∈ d2 → u ∈ d ∧ u ≠ t := by
    intro u hu
    rw [hd, nodup_middle, nodup_cons, mem_append] at hnd
    refine ⟨by rw [hd]; simp; tauto, ?_⟩
    rintro rfl
    exact hnd.1 hu
  obtain ⟨hprev, hstate, hcur, hlive⟩ := destroyAll_releases d1 d2
    { sys.sched with deadListHead := none } _ _ ds (hd ▸ hcore.dead)
    (fun u hu => hplain u (hdt u (.inl hu)).1 (hdt u (.inl hu)).2) hrt
    (fun u hu => hplain u (hdt u (.inr hu)).1 (hdt u (.inr hu)).2)
    (h.mainOnly t (hcore.deadState t htd).1 hrt.2).2 (hcore.deadState t htd).2.2.2 (hd ▸ hkd)
    (hcore.mem_live hkr.1) he
  rintro ⟨⟨l', -, hring, hmem, -⟩, -⟩
  have hkl : kr ∈ l' := by
    refine (hmem kr).mpr ?_
    rcases (hcore.inRing kr).mp hkr.1 with hc | ⟨-, hready⟩
    · exact .inl (hcur.trans hc)
    · exact .inr ⟨hlive, hstate.trans hready⟩
  obtain ⟨z, -, hz, -⟩ := hring.ring.prev_mem hkl
  rw [show s'.prev kr = none from hprev] at hz
  cases hz

end

variable {s : Scheduler} {mutexes : Nat → Mutex}

lemma Boot.inv (hboot : Boot s mutexes main kr cln) (kp krStack clnStack : Nat) :
    RingInv main kr cln (bootSystem s mutexes kp main kr cln krStack clnStack) := by
  have hstart := hboot.ringStart kp krStack clnStack
  have hcore := hstart.core (K := [kr, cln]) (by simp) fun m => ⟨(hboot.idle m).1, (hboot.idle m).2⟩
  refine ⟨⟨_, _, _, hcore⟩, ?_, fun u hu hp => hboot.owners hu hp, hboot.apart.2.2⟩
  intro c hc
  rw [show ((bootSystem s mutexes kp main kr cln krStack clnStack).sched.threads c).state = _ from
    hstart.running hc]
  decide

/-! ## Whole runs -/

/-- In every run without a clean-up of a thread with a user stack, every state is
sound, and a further step keeps it sound exactly when it is not such a clean-up. -/
theorem ready_ring_sound_iff {kp krStack clnStack : Nat} (hboot : Boot s mutexes main kr cln)
    (run : (schedMachine (bootSystem s mutexes kp main kr cln krStack clnStack) kr cln).Reached
      (fun sys act => act.Plain sys) sys) :
    (schedMachine (bootSystem s mutexes kp main kr cln krStack clnStack) kr cln).SafeExactlyWhen
      RingSound (fun sys act => act.Plain sys) sys := by
  have hstart : ∀ sys, sys = bootSystem s mutexes kp main kr cln krStack clnStack →
      RingInv main kr cln sys := by
    rintro _ rfl
    exact hboot.inv kp krStack clnStack
  refine run.safeExactlyWhen hstart (fun _ _ _ h hok hstep => h.step hstep hok)
    (fun _ h => h.sound) fun _ _ _ h hstep hbad => ?_
  cases hstep with
  | cleanup hrun he => exact h.cleanup_broken he hbad
  | _ => exact absurd trivial hbad

/-- Over cleared memory the main thread exits and is destroyed, and the ring is sound. -/
theorem ready_ring_sound_main_exit :
    ∃ sys, RingSound sys ∧ sys.exited = [1] ∧ sys.destroyed = [1] := by
  have hboot : Boot (blankScheduler zeroThread) (fun _ => mutexInit) 1 2 3 :=
    ⟨rfl, rfl, rfl, by decide, fun _ => ⟨rfl, rfl⟩⟩
  have run : (schedMachine (bootSystem (blankScheduler zeroThread) (fun _ => mutexInit)
      5 1 2 3 6 7) 2 3).Reached (fun sys act => act.Plain sys) _ := .start rfl
  refine ⟨_, (ready_ring_sound_iff hboot (.step (a := .cleanup) (.step (a := .exit 0) run trivial
    (.exit (c := 1) ⟨rfl, rfl⟩ ⟨by decide, by decide⟩ rfl)) ?_
    (.cleanup (c := 2) ⟨rfl, rfl⟩ rfl))).1, rfl, rfl⟩
  intro t ht
  cases ht with
  | here => exact fun h => h.1 rfl
  | there h => cases h

/-- Over memory that holds a value at `user_stack.bottom`, the same run breaks the ring. -/
theorem main_exit_breaks_ring : ∃ sys, (schedMachine (bootSystem
      (blankScheduler { zeroThread with userStackBottom := some 4 }) (fun _ => mutexInit)
        5 1 2 3 6 7) 2 3).Reached (fun _ _ => True) sys ∧ ¬ RingSound sys := by
  refine ⟨_, .step (.step (a := .exit 0) (.start rfl) trivial
    (.exit (c := 1) ⟨rfl, rfl⟩ ⟨by decide, by decide⟩ rfl)) trivial
    (.cleanup (c := 2) ⟨rfl, rfl⟩ rfl), ?_⟩
  rintro ⟨⟨l, -, hring, hmem, -⟩, -⟩
  obtain ⟨z, -, hz, -⟩ := hring.ring.prev_mem ((hmem 2).mpr (.inl rfl))
  cases hz

end DestinX.Sched
