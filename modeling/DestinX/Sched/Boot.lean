import DestinX.Sched.RingInvariant

/-!
# The state after `init_scheduler`

The memory of the threads is arbitrary before the call. Afterwards the main thread
runs, and the two threads that `init_scheduler` creates are ready.
-/

namespace DestinX.Sched

open Base List

/-- The state before `init_scheduler`. The records of threads are arbitrary memory. -/
structure Boot (s : Scheduler) (mutexes : Nat → Mutex) (main kr cln : Nat) : Prop where
  ready : s.readyListHead = none
  dead : s.deadListHead = none
  live : s.live = []
  apart : main ≠ kr ∧ main ≠ cln ∧ kr ≠ cln
  idle : ∀ m, (mutexes m).blockedHead = none ∧ (mutexes m).blockedTail = none

/-- `init_scheduler` up to the last `create_thread`. -/
def initThreads (s : Scheduler) (kp main kr cln krStack clnStack : Nat) : Scheduler :=
  createThread (createThread (initMain s kp main) kr krStack 4096) cln clnStack 4096

variable {s : Scheduler} {mutexes : Nat → Mutex} {kp main kr cln krStack clnStack : Nat}

/-- The last writes of `init_scheduler` only concern `next_pthread`. -/
lemma initScheduler_threads (hmk : main ≠ kr) (u : Nat) :
    (initScheduler s kp main kr cln krStack clnStack).threads u = if u = kr then
        ((initThreads s kp main kr cln krStack clnStack).threads u).setNextPthread (some cln)
      else if u = main then
        ((initThreads s kp main kr cln krStack clnStack).threads u).setNextPthread (some kr)
      else (initThreads s kp main kr cln krStack clnStack).threads u := by
  refine modify_threads.trans ?_
  by_cases huk : u = kr
  · simp [huk, hmk.symm, initThreads]
  · simp only [huk, if_false]
    refine modify_threads.trans ?_
    by_cases hum : u = main <;> simp [hum, initThreads]

lemma initScheduler_fields (s : Scheduler) (kp cln krStack clnStack : Nat) (hmk : main ≠ kr)
    (u : Nat) : let x := (initScheduler s kp main kr cln krStack clnStack).threads u
    let y := (initThreads s kp main kr cln krStack clnStack).threads u
    x.state = y.state ∧ x.next = y.next ∧ x.prev = y.prev ∧ x.process = y.process := by
  rw [initScheduler_threads hmk]
  split_ifs <;> exact ⟨rfl, rfl, rfl, rfl⟩

section

variable (hboot : Boot s mutexes main kr cln)
include hboot

lemma Boot.initMain (kp : Nat) :
    ReadyRing (initMain s kp main) [main] ∧ ((initMain s kp main).threads main).state = .running ∧
      (initMain s kp main).live = [main] ∧ (initMain s kp main).deadListHead = none := by
  let b : Scheduler := { s.modify main fun x => { x with
      state := .running, rsp := 0, kernelStackBottom := none, process := some kp }
    with
      processes := Function.update s.processes kp ⟨s.cr3, none, none, none⟩
      live := main :: s.live }
  have hb : ReadyRing b [] := ⟨hboot.ready, ring_nil⟩
  have hring : ReadyRing (enqueueThread b main) [main] := hb.enqueue not_mem_nil
  obtain ⟨hlive, -, hdead⟩ := globals_eq (enqueueThread_globals (s := b) (t := main))
  refine ⟨⟨hring.head, hring.ring⟩, ?_, ?_, hdead.trans hboot.dead⟩
  · exact (state_of_unlinked enqueueThread_unlinked).trans (by simp)
  · exact hlive.trans (congrArg (List.cons main) hboot.live)

lemma Boot.initThreads (kp krStack clnStack : Nat) :
    let a := initThreads s kp main kr cln krStack clnStack
    ReadyRing a [main, kr, cln] ∧ a.live = [cln, kr, main] ∧ a.currentThread = some main ∧
      a.deadListHead = none ∧
      (∀ u, (a.threads u).state = if u = cln ∨ u = kr then .ready
        else ((Sched.initMain s kp main).threads u).state) ∧
      (a.threads kr).process = none ∧ (a.threads cln).process = none := by
  obtain ⟨hmk, hmc, hkc⟩ := hboot.apart
  obtain ⟨hr1, -, hl1, hd1⟩ := hboot.initMain kp
  have hkr : kr ∉ (Sched.initMain s kp main).live := by
    rw [hl1]
    simpa using hmk.symm
  obtain ⟨hw2, hl2, hc2, hd2⟩ := createThread_spec hr1 (by simp [hl1]) hkr krStack 4096
  have hcln : cln ∉ (createThread (Sched.initMain s kp main) kr krStack 4096).live := by
    rw [hl2, hl1]
    simpa using ⟨hkc.symm, hmc.symm⟩
  obtain ⟨hw3, hl3, hc3, hd3⟩ :=
    createThread_spec hw2.ring (by simp [hl2, hl1]) hcln clnStack 4096
  refine ⟨hw3.ring, by rw [Sched.initThreads, hl3, hl2, hl1], hc3.trans hc2,
    hd3.trans (hd2.trans hd1), fun u => ?_, ?_, createThread_process⟩
  · rw [Sched.initThreads, hw3.state u, hw2.state u]
    by_cases huc : u = cln <;> by_cases huk : u = kr <;> simp [huc, huk]
  · exact (fields_of_body (hw3.body kr hkc)).2.2.1.trans createThread_process

lemma Boot.ringStart (kp krStack clnStack : Nat) :
    RingStart (initScheduler s kp main kr cln krStack clnStack) [main, kr, cln] := by
  obtain ⟨hmk, hmc, hkc⟩ := hboot.apart
  obtain ⟨hring, hlive, hcur, hdead, hstate, -⟩ := hboot.initThreads kp krStack clnStack
  have hsame := initScheduler_fields s kp cln krStack clnStack hmk
  refine ⟨hring.congr rfl (fun u _ => (hsame u).2.1) (fun u _ => (hsame u).2.2.1), ?_,
    ⟨main, by simp, hcur, ?_⟩, ?_, hdead⟩
  · rw [show (initScheduler s kp main kr cln krStack clnStack).live = _ from hlive]
    exact reverse_perm [main, kr, cln]
  · rw [(hsame main).1, hstate, if_neg (by simp [hmc, hmk])]
    exact (hboot.initMain kp).2.1
  · intro u hu hne
    have hum : u ≠ main := fun he => hne (he ▸ hcur)
    rw [(hsame u).1, hstate, if_pos (by simp [hum] at hu; tauto)]

/-- Only the main thread has a process, and `kr` is its neighbour. -/
lemma Boot.owners {u : Nat} (hu : u ∈ (initScheduler s kp main kr cln krStack clnStack).live)
    (hp : ((initScheduler s kp main kr cln krStack clnStack).threads u).process ≠ none) : u = main ∧
      ((initScheduler s kp main kr cln krStack clnStack).threads u).nextPthread = some kr := by
  obtain ⟨hmk, hmc, hkc⟩ := hboot.apart
  obtain ⟨-, hlive, -, -, -, hkr, hcln⟩ := hboot.initThreads kp krStack clnStack
  rw [(initScheduler_fields s kp cln krStack clnStack hmk u).2.2.2] at hp
  rw [show (initScheduler s kp main kr cln krStack clnStack).live = _ from hlive] at hu
  simp only [mem_cons, not_mem_nil, or_false] at hu
  rcases hu with rfl | rfl | rfl
  · exact absurd hcln hp
  · exact absurd hkr hp
  · rw [initScheduler_threads hmk, if_neg hmk, if_pos rfl]
    exact ⟨rfl, rfl⟩

end

end DestinX.Sched
