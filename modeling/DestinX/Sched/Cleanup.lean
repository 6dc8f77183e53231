import DestinX.Sched.RingInvariant

/-!
# Destroying dead threads

`destroy_thread` of a thread without a user stack only frees memory. For a thread
with a user stack and a process it also writes to the neighbours that
`next_pthread` and `prev_pthread` name, but to their `prev` and `next` fields,
which belong to the ready ring.
-/

namespace DestinX.Sched

open Base List Option

/-- `destroy_thread` takes the branch that releases a user stack. -/
def Releases (s : Scheduler) (t : Nat) : Prop :=
  (s.threads t).userStackBottom ≠ none ∧ (s.threads t).process ≠ none

variable {K : List Nat} {sys : System} {l d : List Nat} {Q : Nat → List Nat} {s s' : Scheduler}
  {t kr fuel : Nat} {p : Option Nat} {ds : List Nat}

lemma destroyThread_plain (h : ¬ Releases s t) :
    destroyThread s t = { s with live := s.live.erase t } := by
  have h' : ¬ ((s.threads t).userStackBottom ≠ none ∧ (s.threads t).process ≠ none) := h
  rw [destroyThread]
  simp only [h', if_false]

/-! ## Threads without a user stack -/

lemma destroyAll_plain :
    ∀ (d : List Nat) (s : Scheduler) (p : Option Nat) (fuel : Nat), Chain s.next p d →
      d.length ≤ fuel → (∀ t ∈ d, ¬ Releases s t) →
      destroyAll fuel s p = some ({ s with live := s.live.diff d }, d) := by
  intro d
  induction d with
  | nil =>
    intro s p fuel hchain _ _
    have hnone : p = none := hchain
    rw [hnone]
    cases fuel <;> rfl
  | cons t d ih =>
    intro s p fuel hchain hlen hplain
    obtain ⟨rfl, htail⟩ := hchain
    obtain ⟨fuel, rfl⟩ : ∃ k, fuel = k + 1 := ⟨fuel - 1, by simp at hlen; omega⟩
    have hrec := ih { s with live := s.live.erase t } _ fuel htail (by simpa using hlen)
      fun u hu => hplain u (mem_cons_of_mem t hu)
    rw [destroyAll, destroyThread_plain (hplain t mem_cons_self), diff_cons]
    exact congrArg (Option.map fun r => (r.1, t :: r.2)) hrec

/-- `cleanup_dead_threads` when no dead thread has a user stack. -/
lemma RingCore.cleanup (h : RingCore K sys l d Q) (hplain : ∀ t ∈ d, ¬ Releases sys.sched t) :
    cleanupDeadThreads sys.sched =
        some ({ sys.sched with deadListHead := none, live := sys.sched.live.diff d }, d) ∧
      RingCore K { sys with
        sched := { sys.sched with deadListHead := none, live := sys.sched.live.diff d }
        destroyed := d ++ sys.destroyed } l [] Q := by
  have hlen : d.length ≤ sys.sched.live.length :=
    (subperm_of_subset h.dead.nodup fun u hu => (h.deadState u hu).1).length_le
  have hmem : ∀ {u}, u ∈ sys.sched.live → (sys.sched.threads u).state ≠ .dead →
      u ∈ sys.sched.live.diff d := fun hu hs =>
    h.liveNodup.mem_sdiff_iff.mpr ⟨hu, fun hd => hs (h.deadState _ hd).2.2.1⟩
  refine ⟨destroyAll_plain d { sys.sched with deadListHead := none } _ _ h.dead hlen hplain, ?_⟩
  obtain ⟨c, hc, hcl, hcs⟩ := h.current
  refine ⟨h.liveNodup.diff, h.ring.congr rfl (fun _ _ => rfl) (fun _ _ => rfl), ?_,
    ⟨c, hc, ?_, hcs⟩,
    h.keep, rfl, by simp, ?_, fun m => (h.queue m).congr fun _ _ => rfl, ?_, h.apart⟩
  · intro u
    refine (h.inRing u).trans (or_congr_right ⟨?_, ?_⟩)
    · rintro ⟨hu, hs⟩
      exact ⟨hmem hu (by rw [hs]; decide), hs⟩
    · rintro ⟨hu, hs⟩
      exact ⟨(h.liveNodup.mem_sdiff_iff.mp hu).1, hs⟩
  · exact h.liveNodup.mem_sdiff_iff.mpr ⟨hcl, fun hd => (h.deadState c hd).2.1 (h.current_mem hc)⟩
  · rw [append_nil]
    exact h.log.trans perm_append_comm
  · intro m u hu
    obtain ⟨hul, hub⟩ := h.blocked m u hu
    exact ⟨hmem hul (by rw [hub]; decide), hub⟩

/-! ## A thread with a user stack -/

/-- While the loop stays among threads without a user stack, it writes to no thread. -/
lemma destroyAll_threads {S : Set Nat} :
    ∀ (fuel : Nat) (s : Scheduler) (p : Option Nat), (∀ t, p = some t → t ∈ S) →
      (∀ t ∈ S, ¬ Releases s t) → (∀ t ∈ S, ∀ u, s.next t = some u → u ∈ S) →
      destroyAll fuel s p = some (s', ds) →
      s'.threads = s.threads ∧ s'.currentThread = s.currentThread ∧
        ∀ u ∉ S, u ∈ s.live → u ∈ s'.live := by
  intro fuel
  induction fuel generalizing ds with
  | zero =>
    intro s p _ _ _ he
    cases p with
    | none => cases he; exact ⟨rfl, rfl, fun _ _ hu => hu⟩
    | some t => cases he
  | succ fuel ih =>
    intro s p hp hplain hclosed he
    cases p with
    | none => cases he; exact ⟨rfl, rfl, fun _ _ hu => hu⟩
    | some t =>
      have ht := hp t rfl
      rw [destroyAll, destroyThread_plain (hplain t ht)] at he
      obtain ⟨⟨s1, ds1⟩, he1, hr⟩ := map_eq_some_iff.mp he
      obtain rfl : s1 = s' := (Prod.mk.inj hr).1
      obtain ⟨hthreads, hcur, hlive⟩ := ih { s with live := s.live.erase t } _
        (hclosed t ht) hplain hclosed he1
      refine ⟨hthreads, hcur, fun u hu hul => hlive u hu ?_⟩
      exact (mem_erase_of_ne fun he : u = t => hu (he ▸ ht)).mpr hul

/-- The writes of `destroy_thread` for a thread with a user stack. -/
lemma destroyThread_releases (h : Releases s t) (hkt : kr ≠ t)
    (hkr : (s.threads t).nextPthread = some kr) (u : Nat) :
    (destroyThread s t).threads u = if (s.threads t).prevPthread = some u then
        ((s.modify kr (Thread.setPrev (s.threads t).prev)).threads u).setNext (s.threads t).next
      else (s.modify kr (Thread.setPrev (s.threads t).prev)).threads u := by
  have h' : (s.threads t).userStackBottom ≠ none ∧ (s.threads t).process ≠ none := h
  have ht : (s.modify kr (Thread.setPrev (s.threads t).prev)).threads t = s.threads t :=
    modify_threads.trans (if_neg hkt.symm)
  rw [destroyThread]
  simp only [if_pos h', hkr]
  rw [show (s.modifyAt (some kr) (Thread.setPrev (s.threads t).prev)) =
    s.modify kr (Thread.setPrev (s.threads t).prev) from rfl, ht]
  exact modifyAt_threads

lemma destroyThread_lists : (destroyThread s t).currentThread = s.currentThread ∧
      (destroyThread s t).live = s.live.erase t := by
  unfold destroyThread
  dsimp only
  split_ifs
  · have hg : ∀ {a : Scheduler} {p q : Option Nat} {f g : Thread → Thread},
        ((a.modifyAt p f).modifyAt q g).globals = a.globals :=
      modifyAt_globals.trans modifyAt_globals
    exact ⟨(globals_eq hg).2.1, congrArg (List.erase · t) (globals_eq hg).1⟩
  · exact ⟨rfl, rfl⟩

/-- Destroying a dead thread with a user stack clears the `prev` link of the thread
that its `next_pthread` names. -/
lemma destroyAll_releases :
    ∀ (d1 d2 : List Nat) (s : Scheduler) (p : Option Nat) (fuel : Nat) (ds : List Nat),
      Chain s.next p (d1 ++ t :: d2) → (∀ u ∈ d1, ¬ Releases s u) → Releases s t →
      (∀ u ∈ d2, ¬ Releases s u) → (s.threads t).nextPthread = some kr →
      (s.threads t).prev = none → kr ∉ d1 ++ t :: d2 → kr ∈ s.live →
      destroyAll fuel s p = some (s', ds) →
      (s'.threads kr).prev = none ∧ (s'.threads kr).state = (s.threads kr).state ∧
        s'.currentThread = s.currentThread ∧ kr ∈ s'.live := by
  intro d1
  induction d1 with
  | nil =>
    intro d2 s p fuel ds hchain _ ht hplain hkr hprev hkd hlive he
    obtain ⟨rfl, htail⟩ := hchain
    have hkt : kr ≠ t := fun he => hkd (he ▸ mem_cons_self)
    have hkd2 : kr ∉ d2 := fun hm => hkd (mem_cons_of_mem t hm)
    cases fuel with
    | zero => cases he
    | succ fuel =>
      obtain ⟨⟨s1, ds1⟩, he1, hr⟩ := map_eq_some_iff.mp he
      obtain rfl : s1 = s' := (Prod.mk.inj hr).1
      have hthreads := destroyThread_releases ht hkt hkr
      have hbody : ∀ u, ((destroyThread s t).threads u).body = (s.threads u).body := by
        intro u
        rw [hthreads u]
        split_ifs <;> rw [modify_threads] <;> split_ifs with hu <;> simp [hu, Thread.body]
      obtain ⟨hcur, hlive'⟩ := destroyThread_lists (s := s) (t := t)
      have hkl : kr ∈ (destroyThread s t).live := by
        rw [hlive']
        exact (mem_erase_of_ne hkt).mpr hlive
      have hplain' : ∀ u ∈ d2, ¬ Releases (destroyThread s t) u := by
        intro u hu hrel
        obtain ⟨-, hstack, hproc, -⟩ := fields_of_body (hbody u)
        exact hplain u hu ⟨hstack ▸ hrel.1, hproc ▸ hrel.2⟩
      -- a link that changes leads to the first thread of the rest
      have hclosed : ∀ u ∈ d2, ∀ v, (destroyThread s t).next u = some v → v ∈ d2 := by
        intro u hu v hv
        have huk : u ≠ kr := fun he => hkd2 (he ▸ hu)
        rw [Scheduler.next, hthreads u, modify_threads] at hv
        split_ifs at hv
        · exact htail.mem_of_head hv
        · exact htail.next_mem hu hv
      obtain ⟨h1, h2, h3⟩ := destroyAll_threads (S := {u | u ∈ d2}) fuel (destroyThread s t) _
        (fun u hu => htail.mem_of_head hu) hplain' hclosed he1
      rw [h1, h2, hthreads kr]
      refine ⟨?_, ?_, hcur, h3 kr hkd2 hkl⟩
      · split_ifs <;> simp [hprev]
      · split_ifs <;> simp [Thread.setNext, Thread.setPrev]
  | cons a d1 ih =>
    intro d2 s p fuel ds hchain hplain1 ht hplain hkr hprev hkd hlive he
    obtain ⟨rfl, htail⟩ := hchain
    cases fuel with
    | zero => cases he
    | succ fuel =>
      rw [destroyAll, destroyThread_plain (hplain1 a mem_cons_self)] at he
      obtain ⟨⟨s1, ds1⟩, he1, hr⟩ := map_eq_some_iff.mp he
      obtain rfl : s1 = s' := (Prod.mk.inj hr).1
      refine ih d2 { s with live := s.live.erase a } _ fuel ds1 htail
        (fun u hu => hplain1 u (mem_cons_of_mem a hu)) ht hplain hkr hprev
        (fun hm => hkd (mem_cons_of_mem a hm)) ?_ he1
      exact (mem_erase_of_ne fun he : kr = a => hkd (he ▸ mem_cons_self)).mpr hlive

end DestinX.Sched
