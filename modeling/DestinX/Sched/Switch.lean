import DestinX.Sched.ReadyRing

/-!
# The effect of `scheduler_handler`

With at least two threads in the ring, all ready except the running one, the
handler always returns. The running thread leaves the ring when it is blocked or
dead, and the thread that runs next was ready.
-/

namespace DestinX.Sched

open Base List

variable {s s₁ : Scheduler} {l l' : List Nat} {t u c n rsp : Nat}

/-- The thread cannot run on. -/
def Stopped (s : Scheduler) (c : Nat) : Prop :=
  (s.threads c).state = .dead ∨ (s.threads c).state = .blocked

instance : Decidable (Stopped s c) := inferInstanceAs (Decidable (_ ∨ _))

/-- The ring without a thread that cannot run on. -/
def ringAfter (s : Scheduler) (l : List Nat) (c : Nat) : List Nat :=
  if Stopped s c then l.erase c else l

/-- What `scheduler_handler` does to the running thread `c` before it looks for the
next one. -/
structure Suspended (s s₁ : Scheduler) (l : List Nat) (c : Nat) : Prop where
  ring : ReadyRing s₁ (ringAfter s l c)
  state : ∀ u, (s₁.threads u).state = if u = c ∧ ¬ Stopped s c then .ready else (s.threads u).state
  body : ∀ u, (s₁.threads u).body = (s.threads u).body
  outside : ∀ u ∉ l, s₁.threads u = s.threads u
  live : s₁.live = s.live
  current : s₁.currentThread = s.currentThread
  deadHead : s₁.deadListHead = if (s.threads c).state = .dead then some c else s.deadListHead
  deadLinks : (s.threads c).state = .dead →
    (s₁.threads c).next = s.deadListHead ∧ (s₁.threads c).prev = none

section

variable (h : ReadyRing s l)
include h

lemma ReadyRing.suspend_dead (hc : c ∈ l) (hd : (s.threads c).state = .dead) :
    Suspended s (suspend s c rsp) l c := by
  have hstop : Stopped s c := .inl hd
  obtain ⟨hlive, hcur, hdead⟩ := globals_eq (dequeueThread_globals (s := s) (t := c))
  have hun : ∀ u, ((suspend s c rsp).threads u).unlinked = (s.threads u).unlinked := by
    intro u
    simp only [suspend, hd, if_true]
    exact (modify_unlinked fun _ => by rfl).trans dequeueThread_unlinked
  have hother : ∀ u, u ≠ c → (suspend s c rsp).threads u = (dequeueThread s c).threads u := by
    intro u hu
    simp [suspend, hd, hu]
  have hcm : c ∉ l.erase c := h.ring.nodup.not_mem_erase
  refine ⟨?_, ?_, fun u => body_of_unlinked (hun u), ?_, ?_, ?_, ?_, ?_⟩
  · rw [ringAfter, if_pos hstop]
    refine (h.dequeue hc).congr (by simp [suspend, hd]) ?_ ?_
    · intro u hu
      rw [hother u fun he => hcm (he ▸ hu)]
    · intro u hu
      rw [hother u fun he => hcm (he ▸ hu)]
  · intro u
    rw [if_neg fun hn => hn.2 hstop]
    exact state_of_unlinked (hun u)
  · intro u hu
    rw [hother u fun he => hu (he ▸ hc), h.dequeue_other hc hu]
  · rw [← hlive]
    simp only [suspend, hd, if_true]
    rfl
  · rw [← hcur]
    simp only [suspend, hd, if_true]
    rfl
  · simp [suspend, hd]
  · intro _
    simp [suspend, hd, hdead, dequeueThread_self.1]

lemma ReadyRing.suspend_blocked (hc : c ∈ l) (hb : (s.threads c).state = .blocked) :
    Suspended s (suspend s c rsp) l c := by
  have hstop : Stopped s c := .inr hb
  have hnd : (s.threads c).state ≠ .dead := by rw [hb]; decide
  have heq : suspend s c rsp = dequeueThread (s.modify c (Thread.setRsp rsp)) c := by
    rw [suspend, if_neg hnd, if_pos hb]
  obtain ⟨hlive, hcur, hdead⟩ : (suspend s c rsp).live = s.live ∧
      (suspend s c rsp).currentThread = s.currentThread ∧
      (suspend s c rsp).deadListHead = s.deadListHead :=
    globals_eq (by rw [heq, dequeueThread_globals, modify_globals])
  have hr : ReadyRing (s.modify c (Thread.setRsp rsp)) l := by
    refine h.congr rfl ?_ ?_ <;> intro u _ <;> rw [modify_threads] <;> split_ifs with hu <;>
      simp [hu]
  refine ⟨?_, ?_, ?_, ?_, hlive, hcur, ?_, ?_⟩
  · rw [ringAfter, if_pos hstop, heq]
    exact hr.dequeue hc
  · intro u
    rw [if_neg fun hn => hn.2 hstop, heq, state_of_unlinked dequeueThread_unlinked, modify_threads]
    split_ifs with hu <;> simp [hu]
  · intro u
    rw [heq, body_of_unlinked dequeueThread_unlinked, modify_threads]
    split_ifs with hu <;> simp [hu]
  · intro u hu
    rw [heq, hr.dequeue_other hc hu, modify_threads, if_neg fun he : u = c => hu (he ▸ hc)]
  · rw [if_neg hnd, hdead]
  · exact fun hd => absurd hd hnd

lemma ReadyRing.suspend_running (hc : c ∈ l) (hs : ¬ Stopped s c) :
    Suspended s (suspend s c rsp) l c := by
  obtain ⟨hnd, hnb⟩ := not_or.mp hs
  have heq : suspend s c rsp = s.modify c fun x => (x.setRsp rsp).setState .ready := by
    rw [suspend, if_neg hnd, if_neg hnb]
  rw [heq]
  refine ⟨?_, ?_, ?_, ?_, rfl, rfl, ?_, fun hd => absurd hd hnd⟩
  · rw [ringAfter, if_neg hs]
    refine h.congr rfl ?_ ?_ <;> intro u _ <;> rw [modify_threads] <;> split_ifs with hu <;>
      simp [hu]
  · intro u
    by_cases hu : u = c
    · simp [hu, hs]
    · simp [hu]
  · intro u
    rw [modify_threads]
    split_ifs with hu <;> simp [hu]
  · intro u hu
    rw [modify_threads, if_neg fun he : u = c => hu (he ▸ hc)]
  · rw [if_neg hnd]
    rfl

lemma ReadyRing.suspend (hc : c ∈ l) : Suspended s (suspend s c rsp) l c := by
  by_cases hs : Stopped s c
  · rcases hs with hd | hb
    · exact h.suspend_dead hc hd
    · exact h.suspend_blocked hc hb
  · exact h.suspend_running hc hs

end

/-! ## The switch -/

lemma switchProcess_threads : (switchProcess s c n).threads = s.threads := by
  unfold switchProcess
  split_ifs
  · rfl
  · split <;> split <;> rfl

/-- The lists of threads and the running thread. -/
def Scheduler.lists (s : Scheduler) : List Nat × Option Nat × Option Nat × Option Nat :=
  (s.live, s.readyListHead, s.currentThread, s.deadListHead)

lemma switchProcess_lists : (switchProcess s c n).lists = s.lists := by
  unfold switchProcess
  split_ifs
  · rfl
  · split <;> split <;> rfl

lemma switchTo_threads :
    (switchTo s c n).1.threads u = if u = n then (s.threads n).setState .running
      else s.threads u := by
  rw [← modify_threads (f := Thread.setState .running)]
  exact congrFun switchProcess_threads u

lemma switchTo_lists :
    (switchTo s c n).1.lists = (s.live, s.readyListHead, some n, s.deadListHead) :=
  switchProcess_lists

/-- The whole of `scheduler_handler`: `c` stops running, `n` runs. -/
structure Switched (s s' : Scheduler) (l : List Nat) (c n : Nat) : Prop where
  ring : ReadyRing s' (ringAfter s l c)
  current : s'.currentThread = some n
  mem : n ∈ ringAfter s l c
  ne : n ≠ c
  wasReady : (s.threads n).state = .ready
  state : ∀ u, (s'.threads u).state =
    if u = n then .running else if u = c ∧ ¬ Stopped s c then .ready else (s.threads u).state
  body : ∀ u, (s'.threads u).body = (s.threads u).body
  outside : ∀ u ∉ l, s'.threads u = s.threads u
  live : s'.live = s.live
  deadHead : s'.deadListHead = if (s.threads c).state = .dead then some c else s.deadListHead
  deadLinks : (s.threads c).state = .dead →
    (s'.threads c).next = s.deadListHead ∧ (s'.threads c).prev = none

lemma Suspended.switchTo (h : Suspended s s₁ l c) (hn : n ∈ ringAfter s l c) (hne : n ≠ c)
    (hready : (s.threads n).state = .ready) : Switched s (switchTo s₁ c n).1 l c n := by
  have hlists : (Sched.switchTo s₁ c n).1.lists =
      (s₁.live, s₁.readyListHead, some n, s₁.deadListHead) :=
    switchTo_lists
  obtain ⟨hlive, hhead, hcur, hdead⟩ : (Sched.switchTo s₁ c n).1.live = s₁.live ∧
      (Sched.switchTo s₁ c n).1.readyListHead = s₁.readyListHead ∧
      (Sched.switchTo s₁ c n).1.currentThread = some n ∧
      (Sched.switchTo s₁ c n).1.deadListHead = s₁.deadListHead := by
    simpa [Scheduler.lists] using hlists
  have hsub : ∀ {u}, u ∈ ringAfter s l c → u ∈ l := by
    intro u hu
    rw [ringAfter] at hu
    split_ifs at hu
    · exact mem_of_mem_erase hu
    · exact hu
  refine ⟨?_, hcur, hn, hne, hready, ?_, ?_, ?_, hlive.trans h.live, hdead.trans h.deadHead, ?_⟩
  · refine h.ring.congr hhead ?_ ?_ <;> intro u _ <;> rw [switchTo_threads] <;>
      split_ifs with hu <;> simp [hu]
  · intro u
    rw [switchTo_threads]
    by_cases hu : u = n
    · simp [hu]
    · rw [if_neg hu, if_neg hu, h.state u]
  · intro u
    rw [switchTo_threads]
    split_ifs with hu
    · rw [setState_body, hu, h.body n]
    · exact h.body u
  · intro u hu
    rw [switchTo_threads, if_neg fun he : u = n => hu (he ▸ hsub hn), h.outside u hu]
  · intro hd
    rw [switchTo_threads, if_neg hne.symm]
    exact h.deadLinks hd

/-- With a single thread in the ring `scheduler_handler` does nothing. -/
lemma ReadyRing.schedulerHandler_alone (h : ReadyRing s [c]) (rsp : Nat) :
    Sched.schedulerHandler s rsp = some (s, rsp) := by
  have hhead : s.readyListHead = some c := h.head
  have hnext : (s.threads c).next = some c := h.ring.next_head
  simp only [Sched.schedulerHandler, hhead, hnext, if_true]

/-- `scheduler_handler` returns, and switches to another thread: the next one, or the first
one when the running thread has left the ring. -/
lemma ReadyRing.schedulerHandler (h : ReadyRing s l) (hcur : s.currentThread = some c)
    (hc : c ∈ l) (hlen : 2 ≤ l.length) (hready : ∀ u ∈ l, u ≠ c → (s.threads u).state = .ready)
    (rsp : Nat) : ∃ s' r n, schedulerHandler s rsp = some (s', r) ∧ Switched s s' l c n ∧
      (if Stopped s c then (l.erase c).head? else (s.threads c).next) = some n := by
  have hone : ∀ {a}, l ≠ [a] := by
    rintro a rfl
    simp at hlen
  obtain ⟨a, l0, rfl⟩ : ∃ a l0, l = a :: l0 := exists_cons_of_ne_nil (by rintro rfl; simp at hc)
  obtain ⟨b, -, hb, hba⟩ := h.ring.next_mem (mem_cons_self : a ∈ a :: l0)
  have hsingle : (s.threads a).next ≠ some a := by
    intro he
    exact hone (hba.mp (Option.some.inj (hb.symm.trans he)))
  have hsus : Suspended s (Sched.suspend s c rsp) (a :: l0) c := h.suspend hc
  -- the thread the search starts at is ready, so the loop ends at once
  have hhead : (if Stopped s c then (Sched.suspend s c rsp).readyListHead else (s.threads c).next) =
      if Stopped s c then ((a :: l0).erase c).head? else (s.threads c).next := by
    split_ifs with hs
    · have hr := hsus.ring.head
      rwa [ringAfter, if_pos hs] at hr
    · rfl
  obtain ⟨n, hn, hne, hstart⟩ : ∃ n, n ∈ ringAfter s (a :: l0) c ∧ n ≠ c ∧
      (if Stopped s c then ((a :: l0).erase c).head? else (s.threads c).next) = some n := by
    by_cases hs : Stopped s c
    · have hne : (a :: l0).erase c ≠ [] := by
        intro he
        have := length_erase_of_mem hc
        rw [he] at this
        simp at this hlen
        omega
      obtain ⟨n, l1, hl1⟩ := exists_cons_of_ne_nil hne
      have hn : n ∈ (a :: l0).erase c := hl1 ▸ mem_cons_self
      refine ⟨n, by rwa [ringAfter, if_pos hs], ?_, ?_⟩
      · rintro rfl
        exact h.ring.nodup.not_mem_erase hn
      · rw [if_pos hs, hl1]
        rfl
    · obtain ⟨n, hn, hnext, hnc⟩ := h.ring.next_mem hc
      refine ⟨n, by rwa [ringAfter, if_neg hs], fun he => hone (hnc.mp he), ?_⟩
      rw [if_neg hs]
      exact hnext
  have hnl : n ∈ a :: l0 := by
    rw [ringAfter] at hn
    split_ifs at hn
    · exact mem_of_mem_erase hn
    · exact hn
  have hnr := hready n hnl hne
  have hnr1 : ((Sched.suspend s c rsp).threads n).state = .ready := by
    rw [hsus.state n, if_neg fun he => hne he.1, hnr]
  have hsearch : ∀ k, search (Sched.suspend s c rsp) n (k + 1) n = some (some n) := by
    intro k
    simp [search, hnr1]
  refine ⟨_, (switchTo (Sched.suspend s c rsp) c n).2, n, ?_, hsus.switchTo hn hne hnr, hstart⟩
  unfold Sched.schedulerHandler
  simp only [h.head, head?_cons, hsingle, if_false, hcur]
  rw [show (if (s.threads c).state = .dead ∨ (s.threads c).state = .blocked then
      (Sched.suspend s c rsp).readyListHead else (s.threads c).next) = some n from
    hhead.trans hstart]
  simp only [hsearch]

end DestinX.Sched
