import DestinX.Sched.Mutex

/-!
# Invariant of the ready ring

`RingCore` describes the scheduler with all mutexes by three kinds of lists: the ready ring `l`,
the dead list `d` and the wait queues `Q`. Each operation has one lemma that says how these
lists change.
-/

namespace DestinX.Sched

open Base Function List Option

structure System where
  sched : Scheduler
  mutexes : Nat → Mutex
  (exited destroyed : List Nat)

/-- `mutex_unlock` has been called for mutex `m`. -/
def System.unlock (sys : System) (m : Nat) : System :=
  { sys with
    sched := (mutexUnlock sys.sched (sys.mutexes m)).1
    mutexes := update sys.mutexes m (mutexUnlock sys.sched (sys.mutexes m)).2 }

/-- The threads of `K` never block or exit. The running thread is in the ring; its
state may already say that it is blocked or dead. -/
structure RingCore (K : List Nat) (sys : System) (l d : List Nat) (Q : Nat → List Nat) : Prop where
  liveNodup : sys.sched.live.Nodup
  ring : ReadyRing sys.sched l
  inRing : ∀ u, u ∈ l ↔ sys.sched.currentThread = some u ∨
    (u ∈ sys.sched.live ∧ (sys.sched.threads u).state = .ready)
  current : ∃ c, sys.sched.currentThread = some c ∧ c ∈ sys.sched.live ∧
    (sys.sched.threads c).state ≠ .ready
  keep : ∀ u ∈ K, u ∈ l ∧ ¬ Stopped sys.sched u
  dead : Chain sys.sched.next sys.sched.deadListHead d
  deadState : ∀ u ∈ d, u ∈ sys.sched.live ∧ u ∉ l ∧ (sys.sched.threads u).state = .dead ∧
    (sys.sched.threads u).prev = none
  log : sys.exited.Perm (sys.destroyed ++ d)
  queue : ∀ m, WaitQueue sys.sched (sys.mutexes m) (Q m)
  blocked : ∀ m, ∀ u ∈ Q m, u ∈ sys.sched.live ∧ (sys.sched.threads u).state = .blocked
  apart : ∀ m m', m ≠ m' → ∀ u ∈ Q m, u ∉ Q m'

variable {K : List Nat} {sys : System} {l d : List Nat} {Q : Nat → List Nat} {s' : Scheduler}
  {c n t u m rsp : Nat}

section

variable (h : RingCore K sys l d Q)
include h

lemma RingCore.mem_live (hu : u ∈ l) : u ∈ sys.sched.live := by
  obtain ⟨c, hc, hlive, -⟩ := h.current
  rcases (h.inRing u).mp hu with hcur | ⟨hu, -⟩
  · exact some.inj (hc.symm.trans hcur) ▸ hlive
  · exact hu

section

variable (hc : sys.sched.currentThread = some c)
include hc

lemma RingCore.current_mem : c ∈ l := (h.inRing c).mpr (.inl hc)

/-- Every thread of the ring except the running one is ready. -/
lemma RingCore.ready (hu : u ∈ l) (hne : u ≠ c) : (sys.sched.threads u).state = .ready := by
  rcases (h.inRing u).mp hu with hcur | ⟨-, hready⟩
  · exact absurd (some.inj (hcur.symm.trans hc)) hne
  · exact hready

lemma RingCore.not_ready : (sys.sched.threads c).state ≠ .ready := by
  obtain ⟨c', hc', -, hs⟩ := h.current
  exact some.inj (hc'.symm.trans hc) ▸ hs

/-- A blocked thread that is not running is outside the ring. -/
lemma RingCore.queued_outside (hu : u ∈ Q m) (hne : u ≠ c) : u ∉ l := by
  intro hl
  have hready := h.ready hc hl hne
  rw [(h.blocked m u hu).2] at hready
  cases hready

/-! ## The running thread stops -/

/-- The running thread is marked as blocked or dead but still in the ring. -/
lemma RingCore.mark (hK : c ∉ K) (state : ThreadState) (hstate : state ≠ .ready)
    {mutexes : Nat → Mutex} {Q' : Nat → List Nat}
    (hs : ∀ u, (s'.threads u).state = if u = c then state else (sys.sched.threads u).state)
    (hr : ReadyRing s' l) (hg : s'.globals = sys.sched.globals)
    (hd : ∀ u ∈ d, s'.threads u = sys.sched.threads u) (hq : ∀ m, WaitQueue s' (mutexes m) (Q' m))
    (hb : ∀ m, ∀ u ∈ Q' m, u ∈ s'.live ∧ (s'.threads u).state = .blocked)
    (ha : ∀ m m', m ≠ m' → ∀ u ∈ Q' m, u ∉ Q' m') :
    RingCore K { sys with sched := s', mutexes := mutexes } l d Q' := by
  obtain ⟨hlive, hcur, hdead⟩ := globals_eq hg
  have hcl := h.mem_live (h.current_mem hc)
  refine ⟨hlive ▸ h.liveNodup, hr, ?_, ⟨c, hcur.trans hc, hlive ▸ hcl, ?_⟩, ?_, ?_, ?_, h.log,
    hq, hb, ha⟩
  · intro u
    rw [hcur, hlive, hs u]
    by_cases hu : u = c
    · rw [hu]
      exact iff_of_true (h.current_mem hc) (.inl hc)
    · rw [if_neg hu]
      exact h.inRing u
  · rw [hs c, if_pos rfl]
    exact hstate
  · intro u hu
    have huc : u ≠ c := fun he => hK (he ▸ hu)
    refine ⟨(h.keep u hu).1, ?_⟩
    have := (h.keep u hu).2
    rwa [Stopped, hs u, if_neg huc]
  · rw [hdead]
    exact h.dead.congr fun u hu => congrArg Thread.next (hd u hu)
  · intro u hu
    rw [hd u hu, hlive]
    exact h.deadState u hu

/-- A thread marks itself, as `thread_exit` does before the switch. -/
lemma RingCore.mark_state (hrun : (sys.sched.threads c).state = .running) (hK : c ∉ K)
    (state : ThreadState) (hstate : state ≠ .ready) :
    RingCore K { sys with sched := sys.sched.modify c (Thread.setState state) } l d Q := by
  have hother : ∀ {u}, (sys.sched.threads u).state ≠ .running →
      (sys.sched.modify c (Thread.setState state)).threads u = sys.sched.threads u := by
    intro u hu
    rw [modify_threads, if_neg]
    rintro rfl
    exact hu hrun
  refine h.mark hc hK state hstate ?_ ?_ rfl ?_ ?_ ?_ h.apart
  · intro u
    by_cases hu : u = c <;> simp [hu]
  · refine h.ring.congr rfl ?_ ?_ <;> intro u _ <;> by_cases hu : u = c <;> simp [hu]
  · intro u hu
    exact hother (by rw [(h.deadState u hu).2.2.1]; decide)
  · intro m
    refine (h.queue m).congr fun u hu => ?_
    rw [hother (by rw [(h.blocked m u hu).2]; decide)]
  · intro m u hu
    rw [hother (by rw [(h.blocked m u hu).2]; decide)]
    exact h.blocked m u hu

/-- The contended path of `mutex_lock` up to `yield`. -/
lemma RingCore.mark_blocked (hrun : (sys.sched.threads c).state = .running) (hK : c ∉ K)
    (m : Nat) : RingCore K { sys with
        sched := (queueThread sys.sched (sys.mutexes m) c).1
        mutexes := update sys.mutexes m (queueThread sys.sched (sys.mutexes m) c).2 } l d
      (update Q m (Q m ++ [c])) := by
  have hcQ : ∀ m', c ∉ Q m' := by
    intro m' hm'
    have := (h.blocked m' c hm').2
    rw [hrun] at this
    cases this
  obtain ⟨-, hq, hqd⟩ := (h.queue m).queueThread (hcQ m)
  have hlive := (globals_eq hqd.globals).1
  have hother : ∀ {u}, u ∉ Q m → u ≠ c → (queueThread sys.sched (sys.mutexes m) c).1.threads u =
      sys.sched.threads u := fun hu huc => hqd.outside _ hu huc
  have hmem : ∀ {m' u}, u ∈ update Q m (Q m ++ [c]) m' → u ∈ Q m' ∨ (m' = m ∧ u = c) := by
    intro m' u hu
    by_cases hm : m' = m
    · subst hm
      rw [update_self, mem_append, mem_singleton] at hu
      exact hu.imp_right fun he => ⟨rfl, he⟩
    · rw [update_of_ne hm] at hu
      exact .inl hu
  refine h.mark hc hK .blocked (by decide) hqd.state (hqd.ring h.ring) hqd.globals ?_ ?_ ?_ ?_
  · intro u hu
    have hdead := (h.deadState u hu).2.2.1
    refine hother (fun hm => ?_) (fun he => ?_)
    · rw [(h.blocked m u hm).2] at hdead
      cases hdead
    · rw [he, hrun] at hdead
      cases hdead
  · intro m'
    by_cases hm : m' = m
    · subst hm
      rw [update_self, update_self]
      exact hq
    · rw [update_of_ne hm, update_of_ne hm]
      refine (h.queue m').congr fun u hu => ?_
      rw [hother (h.apart m' m hm u hu) (fun he => hcQ m' (he ▸ hu))]
  · intro m' u hu
    rw [hlive, hqd.state]
    rcases hmem hu with hu | ⟨-, rfl⟩
    · rw [if_neg fun he : u = c => hcQ m' (he ▸ hu)]
      exact h.blocked m' u hu
    · exact ⟨h.mem_live (h.current_mem hc), if_pos rfl⟩
  · intro m1 m2 hne u h1 h2
    rcases hmem h1 with hu1 | ⟨hm1, he1⟩
    · rcases hmem h2 with hu2 | ⟨-, he2⟩
      · exact h.apart m1 m2 hne u hu1 hu2
      · exact hcQ m1 (he2 ▸ hu1)
    · rcases hmem h2 with hu2 | ⟨hm2, -⟩
      · exact hcQ m2 (he1 ▸ hu2)
      · exact hne (hm1.trans hm2.symm)

end

/-! ## The switch -/

/-- `scheduler_handler` always returns. The running thread leaves the ring when it
is stopped, and then enters the dead list when it is dead. -/
lemma RingCore.switch (hlen : 2 ≤ l.length) (rsp : Nat) :
    ∃ s' r c n, schedulerHandler sys.sched rsp = some (s', r) ∧
      sys.sched.currentThread = some c ∧ Switched sys.sched s' l c n := by
  obtain ⟨c, hc, -, -⟩ := h.current
  obtain ⟨s', r, n, he, hsw, -⟩ := h.ring.schedulerHandler hc (h.current_mem hc) hlen
    (fun u hu hne => h.ready hc hu hne) rsp
  exact ⟨s', r, c, n, he, hc, hsw⟩

lemma RingCore.switched (hc : sys.sched.currentThread = some c)
    (hsw : Switched sys.sched s' l c n) {exited : List Nat} {d' : List Nat}
    (hd : if (sys.sched.threads c).state = .dead then exited = c :: sys.exited ∧ d' = c :: d
      else exited = sys.exited ∧ d' = d) :
    RingCore K { sys with sched := s', exited := exited } (ringAfter sys.sched l c) d' Q := by
  have hcl := h.current_mem hc
  have hnl : n ∈ l := by
    have := hsw.mem
    rw [ringAfter] at this
    split_ifs at this
    · exact mem_of_mem_erase this
    · exact this
  have hafter : ∀ {u}, u ∈ ringAfter sys.sched l c ↔ u ∈ l ∧ (Stopped sys.sched c → u ≠ c) := by
    intro u
    rw [ringAfter]
    split_ifs with hs
    · rw [h.ring.ring.nodup.mem_erase_iff, and_comm]
      simp [hs]
    · simp [hs]
  have hnr := hsw.wasReady
  have hcr := h.not_ready hc
  have hqueued : ∀ m, ∀ u ∈ Q m, (s'.threads u).state = .blocked := by
    intro m u hu
    have hb := (h.blocked m u hu).2
    rw [hsw.state, if_neg (by rintro rfl; rw [hb] at hnr; cases hnr), if_neg, hb]
    rintro ⟨rfl, hs⟩
    exact hs (.inr hb)
  refine ⟨hsw.live ▸ h.liveNodup, hsw.ring, ?_, ⟨n, hsw.current, hsw.live ▸ h.mem_live hnl, ?_⟩,
    ?_, ?_, ?_, ?_, ?_, ?_, h.apart⟩
  · intro u
    rw [hafter, hsw.current, hsw.live, hsw.state u]
    by_cases hun : u = n
    · subst hun
      exact iff_of_true ⟨hnl, fun _ => hsw.ne⟩ (.inl rfl)
    · by_cases huc : u = c
      · subst huc
        by_cases hs : Stopped sys.sched u
        · simp [hs, hun, Ne.symm hun, hcr]
        · simp [hs, hun, hcl, h.mem_live hcl]
      · simp [hun, Ne.symm hun, huc, h.inRing u, hc, Ne.symm huc]
  · rw [hsw.state, if_pos rfl]
    decide
  · intro u hu
    obtain ⟨hul, hus⟩ := h.keep u hu
    refine ⟨hafter.mpr ⟨hul, fun hs he => hus (he ▸ hs)⟩, ?_⟩
    rw [Stopped, hsw.state u]
    split_ifs
    · decide
    · decide
    · exact hus
  · rw [hsw.deadHead]
    have hold : Chain s'.next sys.sched.deadListHead d :=
      h.dead.congr fun u hu => congrArg Thread.next (hsw.outside u (h.deadState u hu).2.1)
    split_ifs at hd ⊢ with hdead
    · rw [hd.2]
      refine ⟨rfl, ?_⟩
      rw [show s'.next c = sys.sched.deadListHead from (hsw.deadLinks hdead).1]
      exact hold
    · rw [hd.2]
      exact hold
  · have hold : ∀ u ∈ d, u ∈ s'.live ∧ u ∉ ringAfter sys.sched l c ∧
        (s'.threads u).state = .dead ∧ (s'.threads u).prev = none := by
      intro u hu
      obtain ⟨hul, hur, hus, hup⟩ := h.deadState u hu
      rw [hsw.outside u hur, hsw.live]
      exact ⟨hul, fun hm => hur (hafter.mp hm).1, hus, hup⟩
    split_ifs at hd with hdead
    · have hstop : Stopped sys.sched c := .inl hdead
      rw [hd.2]
      intro u hu
      rcases mem_cons.mp hu with rfl | hu
      · refine ⟨hsw.live ▸ h.mem_live hcl, fun hm => (hafter.mp hm).2 hstop rfl, ?_,
          (hsw.deadLinks hdead).2⟩
        rw [hsw.state, if_neg hsw.ne.symm, if_neg (fun hs => hs.2 hstop), hdead]
      · exact hold u hu
    · rw [hd.2]
      exact hold
  · split_ifs at hd
    · rw [hd.1, hd.2]
      exact (h.log.cons c).trans perm_middle.symm
    · rw [hd.1, hd.2]
      exact h.log
  · intro m
    refine (h.queue m).congr fun u hu => ?_
    exact (fields_of_body (hsw.body u)).1
  · intro m u hu
    rw [hsw.live]
    exact ⟨(h.blocked m u hu).1, hqueued m u hu⟩

end

/-- Thread `n` runs after the handler. It is the only thread that can have become
running, blocked threads stay blocked, and other threads that can run are ready. -/
structure Handled (s s' : Scheduler) (c n : Nat) : Prop where
  live : s'.live = s.live
  current : s'.currentThread = some n
  running : (s'.threads n).state = .running
  blocked : ∀ u, (s.threads u).state = .blocked → (s'.threads u).state = .blocked
  others : ∀ u, u ≠ n → (s'.threads u).state = .running → u ≠ c ∧ (s.threads u).state = .running
  ready : ∀ u, u ≠ n → u = c ∧ ¬ Stopped s c ∨ (s.threads u).state = .ready →
    (s'.threads u).state = .ready

section

variable (h : RingCore K sys l d Q)
include h

/-- `scheduler_handler` when the running thread is not dead and, if it is blocked,
not alone in the ring. The handler blocks no thread. -/
lemma RingCore.handler (hc : sys.sched.currentThread = some c)
    (hnd : (sys.sched.threads c).state ≠ .dead) (hother : Stopped sys.sched c → l ≠ [c])
    (rsp : Nat) : ∃ s' r l' n, schedulerHandler sys.sched rsp = some (s', r) ∧
      RingCore K { sys with sched := s' } l' d Q ∧ Handled sys.sched s' c n ∧
      ∀ u, (s'.threads u).state = .blocked → (sys.sched.threads u).state = .blocked := by
  by_cases hone : l = [c]
  · have hring : ReadyRing sys.sched [c] := hone ▸ h.ring
    refine ⟨sys.sched, rsp, l, c, hring.schedulerHandler_alone rsp, h, ⟨rfl, hc, ?_, fun u hu => hu,
      fun u hu hs => ⟨hu, hs⟩, fun u hu hs => hs.resolve_left fun he => hu he.1⟩, fun u hu => hu⟩
    have hnr := h.not_ready hc
    cases hs : (sys.sched.threads c).state <;> simp_all [Stopped]
  · have hlen : 2 ≤ l.length := by
      have hcl := h.current_mem hc
      match l, hcl, hone with
      | [a], hcl, hone => exact absurd (by rw [mem_singleton.mp hcl]) hone
      | _ :: _ :: _, _, _ => simp
    obtain ⟨s', r, c', n, he, hc', hsw⟩ := h.switch hlen rsp
    obtain rfl : c = c' := some.inj (hc.symm.trans hc')
    refine ⟨s', r, _, n, he, h.switched hc hsw (by rw [if_neg hnd]; exact ⟨rfl, rfl⟩),
      ⟨hsw.live, hsw.current, by rw [hsw.state, if_pos rfl], ?_, ?_, ?_⟩, ?_⟩
    · intro u hu
      have hun : u ≠ n := by
        rintro rfl
        have hready := hsw.wasReady
        rw [hu] at hready
        cases hready
      rw [hsw.state, if_neg hun, if_neg, hu]
      rintro ⟨rfl, hs⟩
      exact hs (.inr hu)
    · intro u hun hrun
      rw [hsw.state, if_neg hun] at hrun
      split_ifs at hrun with huc
      refine ⟨?_, hrun⟩
      rintro rfl
      exact huc ⟨rfl, by rw [Stopped, hrun]; decide⟩
    · intro u hun hu
      rw [hsw.state, if_neg hun]
      split_ifs with huc
      · rfl
      · exact hu.resolve_left huc
    · intro u hu
      rw [hsw.state] at hu
      split_ifs at hu
      exact hu

/-! ## A thread enters the ring -/

lemma RingCore.enter (hw : Woken sys.sched s' l t) (htl : t ∉ l) (htd : t ∉ d)
    (hnodup : s'.live.Nodup) (hlive : ∀ u, u ∈ s'.live ↔ u = t ∨ u ∈ sys.sched.live)
    (hcur : s'.currentThread = sys.sched.currentThread)
    (hdead : s'.deadListHead = sys.sched.deadListHead) {mutexes : Nat → Mutex} {Q' : Nat → List Nat}
    (hq : ∀ m, WaitQueue s' (mutexes m) (Q' m)) (hsub : ∀ m, ∀ u ∈ Q' m, u ∈ Q m ∧ u ≠ t) :
    RingCore K { sys with sched := s', mutexes := mutexes } (l ++ [t]) d Q' := by
  obtain ⟨c, hc, hcl, hcs⟩ := h.current
  have hct : c ≠ t := fun he => htl (he ▸ h.current_mem hc)
  have hdt : ∀ u ∈ d, u ≠ t := fun u hu he => htd (he ▸ hu)
  refine ⟨hnodup, hw.ring, ?_, ⟨c, hcur.trans hc, (hlive c).mpr (.inr hcl), ?_⟩, ?_, ?_, ?_, h.log,
    hq, ?_, ?_⟩
  · intro u
    rw [mem_append, hcur, hlive, hw.state u, h.inRing u]
    by_cases hu : u = t
    · simp [hu]
    · simp [hu]
  · rw [hw.state, if_neg hct]
    exact hcs
  · intro u hu
    obtain ⟨hul, hus⟩ := h.keep u hu
    refine ⟨mem_append_left _ hul, ?_⟩
    rw [Stopped, hw.state u, if_neg fun he : u = t => htl (he ▸ hul)]
    exact hus
  · rw [hdead]
    exact h.dead.congr fun u hu =>
      congrArg Thread.next (hw.outside u (h.deadState u hu).2.1 (hdt u hu))
  · intro u hu
    obtain ⟨hul, hur, hus, hup⟩ := h.deadState u hu
    rw [hw.outside u hur (hdt u hu)]
    exact ⟨(hlive u).mpr (.inr hul), by simp [hur, hdt u hu], hus, hup⟩
  · intro m u hu
    obtain ⟨hum, hut⟩ := hsub m u hu
    rw [hw.state, if_neg hut]
    exact ⟨(hlive u).mpr (.inr (h.blocked m u hum).1), (h.blocked m u hum).2⟩
  · intro m1 m2 hne u h1 h2
    exact h.apart m1 m2 hne u (hsub m1 u h1).1 (hsub m2 u h2).1

lemma RingCore.set_mutex {mutex : Mutex} (hhead : mutex.blockedHead = (sys.mutexes m).blockedHead)
    (htail : mutex.blockedTail = (sys.mutexes m).blockedTail) :
    RingCore K { sys with mutexes := update sys.mutexes m mutex } l d Q := by
  refine ⟨h.liveNodup, h.ring, h.inRing, h.current, h.keep, h.dead, h.deadState, h.log,
    fun m' => ?_, h.blocked, h.apart⟩
  dsimp only
  by_cases hm : m' = m
  · subst hm
    rw [update_self]
    exact ⟨hhead ▸ (h.queue m').chain, htail.trans (h.queue m').tail⟩
  · rw [update_of_ne hm]
    exact h.queue m'

lemma RingCore.unlock_empty (hQ : Q m = []) : RingCore K (sys.unlock m) l d Q := by
  have hnone : (sys.mutexes m).blockedHead = none := by
    have hchain := (h.queue m).chain
    rw [hQ] at hchain
    exact hchain
  simp only [System.unlock, mutexUnlock, hnone]
  exact h.set_mutex hnone.symm rfl

/-- `mutex_unlock` with a waiting thread: the first one enters the ring. -/
lemma RingCore.unlock_head (hc : sys.sched.currentThread = some c) {q : List Nat}
    (hQ : Q m = t :: q) (htc : t ≠ c) :
    t ∉ l ∧ RingCore K (sys.unlock m) (l ++ [t]) d (update Q m q) := by
  have hq := h.queue m
  rw [hQ] at hq
  have htm : t ∈ Q m := hQ ▸ mem_cons_self
  obtain ⟨htl, htb⟩ := h.blocked m t htm
  have htq : t ∉ q := (nodup_cons.mp hq.chain.nodup).1
  have hnt := h.queued_outside hc htm htc
  have htd : t ∉ d := by
    intro hu
    rw [(h.deadState t hu).2.2.1] at htb
    cases htb
  obtain ⟨-, hq', hw, hg⟩ := hq.unlock h.ring hnt
  obtain ⟨hlive, hcur, hdead⟩ := globals_eq hg
  refine ⟨hnt, h.enter hw hnt htd (hlive ▸ h.liveNodup) ?_ hcur hdead ?_ ?_⟩
  · intro u
    rw [hlive]
    exact ⟨Or.inr, fun hu => hu.elim (fun he => he ▸ htl) id⟩
  · intro m'
    by_cases hm : m' = m
    · subst hm
      rw [update_self, update_self]
      exact hq'
    · rw [update_of_ne hm, update_of_ne hm]
      exact (h.queue m').congr fun u hu =>
        hw.nextBlocked u fun he => h.apart m' m hm u hu (he ▸ htm)
  · intro m' u hu
    by_cases hm : m' = m
    · subst hm
      rw [update_self] at hu
      exact ⟨hQ ▸ mem_cons_of_mem t hu, fun he => htq (he ▸ hu)⟩
    · rw [update_of_ne hm] at hu
      exact ⟨hu, fun he => h.apart m' m hm u hu (he ▸ htm)⟩

lemma RingCore.unlock (hc : sys.sched.currentThread = some c)
    (hrun : (sys.sched.threads c).state = .running) (m : Nat) :
    ∃ l' Q', RingCore K (sys.unlock m) l' d Q' := by
  cases hQ : Q m with
  | nil => exact ⟨l, Q, h.unlock_empty hQ⟩
  | cons t q =>
    have htc : t ≠ c := by
      rintro rfl
      have htb := (h.blocked m t (hQ ▸ mem_cons_self)).2
      rw [hrun] at htb
      cases htb
    exact ⟨l ++ [t], _, (h.unlock_head hc hQ htc).2⟩

/-- `create_thread`: a thread that was not allocated enters the ring. -/
lemma RingCore.create (ht : t ∉ sys.sched.live) (stack size : Nat) :
    RingCore K { sys with sched := createThread sys.sched t stack size } (l ++ [t]) d Q := by
  have htl : t ∉ l := fun hm => ht (h.mem_live hm)
  obtain ⟨hw, hlive, hcur, hdead⟩ := createThread_spec h.ring (fun u hu => h.mem_live hu)
    ht stack size
  refine h.enter hw htl (fun hu => ht (h.deadState t hu).1) ?_ ?_ hcur hdead ?_ ?_
  · rw [hlive]
    exact nodup_cons.mpr ⟨ht, h.liveNodup⟩
  · intro u
    rw [hlive, mem_cons]
  · intro m
    exact (h.queue m).congr fun u hu => hw.nextBlocked u fun he => ht (he ▸ (h.blocked m u hu).1)
  · intro m u hu
    exact ⟨hu, fun he => ht (he ▸ (h.blocked m u hu).1)⟩

end

/-! ## Where runs start -/

/-- The threads of `l` are in the ring, one of them running and the others ready. -/
structure RingStart (s : Scheduler) (l : List Nat) : Prop where
  ring : ReadyRing s l
  live : s.live.Perm l
  current : ∃ c ∈ l, s.currentThread = some c ∧ (s.threads c).state = .running
  ready : ∀ u ∈ l, s.currentThread ≠ some u → (s.threads u).state = .ready
  dead : s.deadListHead = none

lemma RingStart.running {s : Scheduler} (h : RingStart s l) (hc : s.currentThread = some c) :
    (s.threads c).state = .running := by
  obtain ⟨c', -, hc', hrun⟩ := h.current
  exact some.inj (hc'.symm.trans hc) ▸ hrun

/-- Without waiting threads, any set of threads of the ring may be those that never
stop. -/
lemma RingStart.core {s : Scheduler} (h : RingStart s l) (hK : ∀ u ∈ K, u ∈ l)
    {mutexes : Nat → Mutex} (hm : ∀ m, WaitQueue s (mutexes m) []) :
    RingCore K ⟨s, mutexes, [], []⟩ l [] fun _ => [] := by
  obtain ⟨c, hcl, hc, hrun⟩ := h.current
  refine ⟨h.live.nodup_iff.mpr h.ring.ring.nodup, h.ring, ?_,
    ⟨c, hc, h.live.mem_iff.mpr hcl, by rw [hrun]; decide⟩, ?_, h.dead, by simp, .nil,
    hm, by simp, by simp⟩
  · intro u
    constructor
    · intro hu
      by_cases huc : s.currentThread = some u
      · exact .inl huc
      · exact .inr ⟨h.live.mem_iff.mpr hu, h.ready u hu huc⟩
    · rintro (hu | ⟨hu, -⟩)
      · exact some.inj (hc.symm.trans hu) ▸ hcl
      · exact h.live.mem_iff.mp hu
  · intro u hu
    refine ⟨hK u hu, ?_⟩
    by_cases huc : s.currentThread = some u
    · rw [Stopped, h.running huc]
      decide
    · rw [Stopped, h.ready u (hK u hu) huc]
      decide

end DestinX.Sched
