import DestinX.Sched.Switch
import DestinX.Vm.UserStacks

/-!
# The area lists of the processes

`mmap` and `munmap` work on the list of a global variable, and `scheduler_handler` puts the lists
of the next process there. This is refined against a kernel in which every process has its lists
in a memory of its own, which a switch does not touch. What `munmap` does to the page table is
left out.
-/

namespace DestinX.Vm

open Base Fs Sched Function List Option

/-- The scheduler and the memory that holds the areas of all processes. -/
structure AreaSystem where
  sched : Scheduler
  area : Nat → VmArea

/-- The process of the running thread. -/
def runningProcess (s : Scheduler) : Option Nat :=
  s.currentThread.bind fun t => (s.threads t).process

def AreaSystem.running (sys : AreaSystem) : Option Nat := runningProcess sys.sched

def AreaSystem.mmaps (sys : AreaSystem) : AreaList := ⟨sys.area, sys.sched.mmapListHead⟩

def AreaSystem.ustacks (sys : AreaSystem) : AreaList := ⟨sys.area, sys.sched.usListHead⟩

/-- The list is changed, and `current_thread->process->mmap_infos = mmap_list_head`. There
is no result when the thread has no process. -/
def AreaSystem.store (sys : AreaSystem) (areas : AreaList) : Option AreaSystem :=
  sys.running.map fun p =>
    { sched := { sys.sched with
        mmapListHead := areas.head
        processes := update sys.sched.processes p
          { sys.sched.processes p with mmapInfos := areas.head } }
      area := areas.area }

/-- `mmap` on the global list. `mmap_infos` is not assigned when the call fails. -/
def AreaSystem.mmap (sys : AreaSystem) (fuel : Nat) (fdTable : Nat → Option Nat)
    (block : Option (Nat × VmArea)) (call : MmapCall) : Option (AreaSystem × Nat) :=
  (Vm.mmap fuel sys.mmaps fdTable block call).bind fun r =>
    if call.Refused ∨ block = none then some (sys, r.2)
    else (sys.store r.1).map fun sys' => (sys', r.2)

/-- `munmap` on the global list. -/
def AreaSystem.munmap (sys : AreaSystem) (fuel ptr : Nat) : Option AreaSystem :=
  (findArea sys.mmaps ptr fuel sys.mmaps.head).bind fun found =>
    match found with
    | some i => sys.store (removeFromList sys.mmaps i)
    | none => some sys

/-! ## Runs -/

/-- The system, and beside it the lists of each process in a memory of its own. -/
structure OwnState where
  sys : AreaSystem
  (mmaps ustacks : Nat → AreaList)

/-- A call of the running thread acts on the list of its process. -/
def OwnState.call (st : OwnState) (f : AreaList → Option AreaList) : Nat → AreaList :=
  match st.sys.running with
  | none => st.mmaps
  | some p => update st.mmaps p ((f (st.mmaps p)).getD (st.mmaps p))

inductive OwnAction where
  | switch (rsp : Nat)
  | mmap (fdTable : Nat → Option Nat) (block : Option (Nat × VmArea)) (call : MmapCall) (ret : Nat)
  | munmap (ptr : Nat)
  | other

def AreaList.Has (s : AreaList) (i : Nat) : Prop := Reaches s.next s.head i

/-- The block is on no list of any process. -/
def OwnState.Unused (st : OwnState) (block : Option (Nat × VmArea)) : Prop :=
  ∀ i b, block = some (i, b) → ∀ p, ¬ (st.mmaps p).Has i ∧ ¬ (st.ustacks p).Has i

/-- Other code of the kernel may create, block and wake threads, but it leaves the lists
and the process of the running thread alone. -/
structure SameLists (s s' : Scheduler) : Prop where
  current : s'.currentThread = s.currentThread
  process : ∀ t, s.currentThread = some t → (s'.threads t).process = (s.threads t).process
  processes : s'.processes = s.processes
  mmapHead : s'.mmapListHead = s.mmapListHead
  usHead : s'.usListHead = s.usListHead

inductive OwnStep : OwnState → OwnAction → OwnState → Prop
  | switch {st : OwnState} {sched : Scheduler} {rsp r : Nat}
      (hcall : schedulerHandler st.sys.sched rsp = some (sched, r)) :
      OwnStep st (.switch rsp) { st with sys := ⟨sched, st.sys.area⟩ }
  | mmap {st : OwnState} {sys : AreaSystem} {fdTable : Nat → Option Nat}
      {block : Option (Nat × VmArea)} {call : MmapCall} {fuel ret : Nat}
      (hunused : st.Unused block)
      (hcall : st.sys.mmap fuel fdTable block call = some (sys, ret)) :
      OwnStep st (.mmap fdTable block call ret)
        ⟨sys, st.call fun s => (Vm.mmap fuel s fdTable block call).map Prod.fst, st.ustacks⟩
  | munmap {st : OwnState} {sys : AreaSystem} {fuel ptr : Nat}
      (hcall : st.sys.munmap fuel ptr = some sys) :
      OwnStep st (.munmap ptr) ⟨sys, st.call fun s => munmapList fuel s ptr, st.ustacks⟩
  | other {st : OwnState} {sched : Scheduler} (hsame : SameLists st.sys.sched sched) :
      OwnStep st .other { st with sys := ⟨sched, st.sys.area⟩ }

/-- The list is doubly linked, and its areas are the same in the other memory. -/
structure SameList (s own : AreaList) : Prop where
  links : ∃ l, DList s.next s.prev s.head l
  head : own.head = s.head
  areas : ∀ i, s.Has i → own.area i = s.area i

/-- The lists of all processes are apart from each other. -/
structure OwnApart (st : OwnState) : Prop where
  mmaps : ∀ p q i, p ≠ q → (st.mmaps p).Has i → ¬ (st.mmaps q).Has i
  ustacks : ∀ p q i, (st.mmaps p).Has i → ¬ (st.ustacks q).Has i

/-- At the start the own copies are taken from the memory, where all lists are doubly
linked. The lists of the running process, if there is one, are those of the global
variables. -/
structure OwnLoaded (st : OwnState) : Prop where
  mmaps : ∀ p, st.mmaps p = ⟨st.sys.area, (st.sys.sched.processes p).mmapInfos⟩
  ustacks : ∀ p, st.ustacks p = ⟨st.sys.area, (st.sys.sched.processes p).ustacksInfos⟩
  links : ∀ p, (∃ l, DList (st.mmaps p).next (st.mmaps p).prev (st.mmaps p).head l) ∧
    ∃ l, DList (st.ustacks p).next (st.ustacks p).prev (st.ustacks p).head l
  mmapHead : st.sys.sched.mmapListHead =
    st.sys.running.bind fun p => (st.sys.sched.processes p).mmapInfos
  usHead : st.sys.sched.usListHead =
    st.sys.running.bind fun p => (st.sys.sched.processes p).ustacksInfos
  apart : OwnApart st

/-- What a process finds is its own copy: behind the global variables while it runs, and
behind those of the process while it does not. -/
structure OwnLists (st : OwnState) : Prop where
  running : ∀ p, st.sys.running = some p →
    SameList st.sys.mmaps (st.mmaps p) ∧ SameList st.sys.ustacks (st.ustacks p)
  waiting : ∀ p, st.sys.running ≠ some p →
    SameList ⟨st.sys.area, (st.sys.sched.processes p).mmapInfos⟩ (st.mmaps p) ∧
      SameList ⟨st.sys.area, (st.sys.sched.processes p).ustacksInfos⟩ (st.ustacks p)
  kernel : st.sys.running = none → st.sys.mmaps.head = none ∧ st.sys.ustacks.head = none
  apart : OwnApart st

def ownMachine : Machine OwnState OwnAction where
  start := OwnLoaded
  step := OwnStep

/-- The runs that begin in a given state. -/
def ownMachineAt (st : OwnState) : Machine OwnState OwnAction where
  start st' := st' = st
  step := OwnStep

/-- The step is a call of `mmap` or `munmap` by process `p`. -/
def OwnState.CallBy (st : OwnState) (p : Nat) : OwnAction → Prop
  | .mmap .. | .munmap _ => st.sys.running = some p
  | _ => False

/-- The list of a process changes only by its own calls. -/
def OnlyOwnCalls (st : OwnState) : Prop :=
  ∀ act st', OwnStep st act st' → ∀ p, ¬ st.CallBy p act → st'.mmaps p = st.mmaps p ∧
      ∀ i, (st.mmaps p).Has i ∨ (st.ustacks p).Has i → st'.sys.area i = st.sys.area i

/-- What `munmap` finds is an area of the process that calls it. -/
def FindsOwn (st : OwnState) : Prop :=
  ∀ p ptr fuel i, st.sys.running = some p →
    findArea st.sys.mmaps ptr fuel st.sys.mmaps.head = some (some i) →
    (st.mmaps p).Has i ∧ ∀ q, q ≠ p → ¬ (st.mmaps q).Has i

/-- A process that runs again without having called in between finds the lists that it
had: the same heads and the same areas. -/
def FindsAgain (st : OwnState) : Prop :=
  ∀ p st', st.sys.running = some p → st'.sys.running = some p →
    (ownMachineAt st).Reached (fun st act => ¬ st.CallBy p act) st' →
    st'.sys.mmaps.head = st.sys.mmaps.head ∧ st'.sys.ustacks.head = st.sys.ustacks.head ∧
      ∀ i, st.sys.mmaps.Has i ∨ st.sys.ustacks.Has i → st'.sys.area i = st.sys.area i

variable {s s' own own' : AreaList} {st st' : OwnState} {sys sys' : AreaSystem} {act : OwnAction}
  {sched sched' : Scheduler} {fdTable : Nat → Option Nat} {block : Option (Nat × VmArea)}
  {b : VmArea} {call : MmapCall} {l l' l1 l2 : List Nat}
  {start n fuel c i p q t ptr ret rsp r : Nat}
  {next : Option Nat}

/-! ## The same list in two memories -/

/-- The list is `l`, in both memories. -/
structure CopiedList (s own : AreaList) (l : List Nat) : Prop where
  links : DList s.next s.prev s.head l
  head : own.head = s.head
  areas : ∀ i ∈ l, own.area i = s.area i

lemma SameList.copied (h : SameList s own) : ∃ l, CopiedList s own l := by
  obtain ⟨l, hl⟩ := h.links
  exact ⟨l, hl, h.head, fun i hi => h.areas i (hl.chain.reaches_iff.mpr hi)⟩

lemma CopiedList.sameList (h : CopiedList s own l) : SameList s own :=
  ⟨⟨l, h.links⟩, h.head, fun i hi => h.areas i (h.links.chain.reaches_iff.mp hi)⟩

lemma CopiedList.has_iff (h : CopiedList s own l) : own.Has i ↔ i ∈ l := by
  have hown : Chain own.next own.head l := by
    rw [h.head]
    refine (h.links.congr (fun j hj => ?_) fun j _ => rfl).chain
    rw [AreaList.next, h.areas j hj, AreaList.next]
  exact hown.reaches_iff

/-- Writes outside the list do not matter. -/
lemma CopiedList.frame (h : CopiedList s own l) (hhead : s'.head = s.head)
    (harea : ∀ i ∈ l, s'.area i = s.area i) : CopiedList s' own l := by
  refine ⟨?_, h.head.trans hhead.symm, fun i hi => (h.areas i hi).trans (harea i hi).symm⟩
  rw [hhead]
  refine h.links.congr (fun i hi => ?_) (fun i hi => ?_)
  · rw [AreaList.next, harea i hi, AreaList.next]
  · rw [AreaList.prev, harea i hi, AreaList.prev]

lemma SameList.has_iff (h : SameList s own) : own.Has i ↔ s.Has i := by
  obtain ⟨l, hl⟩ := h.copied
  rw [hl.has_iff]
  exact hl.links.chain.reaches_iff.symm

lemma SameList.frame (h : SameList s own) (hhead : s'.head = s.head)
    (harea : ∀ i, own.Has i → s'.area i = s.area i) : SameList s' own := by
  obtain ⟨l, hl⟩ := h.copied
  exact (hl.frame hhead fun i hi => harea i (hl.has_iff.mpr hi)).sameList

lemma findGap_copied (hc : Chain s.next (some c) (c :: l))
    (harea : ∀ i ∈ c :: l, own.area i = s.area i) :
    findGap own n fuel c (own.next c) = findGap s n fuel c (s.next c) := by
  induction fuel generalizing c l with
  | zero => rfl
  | succ fuel ih =>
    have hnext : own.next c = s.next c := congrArg VmArea.next (harea c mem_cons_self)
    cases l with
    | nil =>
      have hnull : s.next c = none := hc.2
      rw [hnext, hnull]
      rfl
    | cons d l =>
      have hd : s.next c = some d := hc.2.1
      rw [hnext, hd, findGap, findGap, harea c (by simp), harea d (by simp)]
      split_ifs with hgap
      · rfl
      · exact ih ⟨rfl, hc.2.2⟩ fun i hi => harea i (mem_cons_of_mem c hi)

/-- Both memories get the new area at the same place; areas of other lists stay. -/
lemma CopiedList.add (h : CopiedList s own l) (hi : i ∉ l) (hnew : own.area i = s.area i)
    (hadd : addToList start fuel s i = some s') :
    ∃ own' l1 l2, addToList start fuel own i = some own' ∧ l = l1 ++ l2 ∧
      CopiedList s' own' (l1 ++ i :: l2) ∧ ∀ p, p ≠ i → p ∉ l → s'.area p = s.area p := by
  cases l with
  | nil =>
    have hhead : s.head = none := h.links.chain
    rw [addToList, hhead] at hadd
    cases hadd
    have hown : addToList start fuel own i = some { own.assign i fun a =>
        { a with base := start, prev := none, next := none } with head := some i } := by
      rw [addToList, h.head, hhead]
    refine ⟨_, [], [], hown, rfl, ⟨(first_inserted s i start).links, rfl, fun j hj => ?_⟩,
      fun p hp _ => ?_⟩
    · obtain rfl : j = i := by simpa using hj
      simp only [assign_area, if_true, hnew]
    · simp only [assign_area, if_neg hp]
  | cons c l =>
    have hchain : Chain s.next (some c) (c :: l) := ⟨rfl, h.links.chain.2⟩
    have hhead : s.head = some c := h.links.chain.1
    rw [addToList, hhead] at hadd
    obtain ⟨⟨q, next⟩, hfind, rfl⟩ := map_eq_some_iff.mp hadd
    obtain ⟨l1, l2, hsplit, rfl⟩ := findGap_split hchain hfind
    have hq : own.area q = s.area q := h.areas q (by rw [hsplit]; simp)
    have hown : addToList start fuel own i = some (insertBetween own i q l2.head?) := by
      rw [addToList, h.head, hhead]
      simp only [hnew, findGap_copied hchain h.areas, hfind, map_some]
    have hins := placeBetween_inserted (hsplit ▸ h.links) (hsplit ▸ hi) (s.area q).lower
    refine ⟨_, l1 ++ [q], l2, hown, by rw [hsplit]; simp, ⟨hins.links, ?_, fun j hj => ?_⟩,
      fun p hp hpl => ?_⟩
    · simp only [insertBetween, assignAt_head, assign_head, h.head]
    · have hj' : own.area j = s.area j := by
        by_cases hji : j = i
        · rw [hji, hnew]
        · exact h.areas j (by rw [hsplit]; simpa [hji] using hj)
      simp only [insertBetween, assignAt_area, assign_area, hj', hq]
    · have hpq : p ≠ q := by
        rintro rfl
        exact hpl (by rw [hsplit]; simp)
      have hpn : l2.head? ≠ some p := fun hh =>
        hpl (by rw [hsplit]; simp [mem_of_mem_head? hh])
      simp only [insertBetween, assignAt_area, assign_area, if_neg hp, if_neg hpq, if_neg hpn]

lemma CopiedList.remove (h : CopiedList s own (l1 ++ i :: l2)) :
    CopiedList (removeFromList s i) (removeFromList own i) (l1 ++ l2) ∧
      ∀ p, p ∉ l1 ++ i :: l2 → (removeFromList s i).area p = s.area p := by
  have hi : own.area i = s.area i := h.areas i (by simp)
  have hnext : own.next i = s.next i := congrArg VmArea.next hi
  have hprev : own.prev i = s.prev i := congrArg VmArea.prev hi
  refine ⟨⟨removeFromList_links h.links, ?_, fun j hj => ?_⟩, fun p hp => ?_⟩
  · simp only [removeFromList, assignAt_head, assign_head, h.head, hnext]
  · have hj' : own.area j = s.area j := h.areas j (by simp at hj ⊢; tauto)
    simp only [removeFromList, assignAt_area, assign_area, hj', hnext, hprev]
  · have hpi : p ≠ i := by
      rintro rfl
      exact hp (by simp)
    have hsi : s.next i = l2.head? := h.links.chain.next_eq
    have hip : s.prev i = l1.getLast? := by simpa using h.links.backed.prev_eq
    have hnp : s.next i ≠ some p := by
      rw [hsi]
      exact fun hh => hp (by simp [mem_of_mem_head? hh])
    have hpp : s.prev i ≠ some p := by
      rw [hip]
      exact fun hh => hp (by simp [mem_of_mem_getLast? hh])
    simp only [removeFromList, assignAt_area, assign_area, if_neg hpi, if_neg hnp, if_neg hpp]

lemma findArea_copied {h : Option Nat} (hc : Chain s.next h l)
    (harea : ∀ i ∈ l, own.area i = s.area i) : findArea own ptr fuel h = findArea s ptr fuel h := by
  induction fuel generalizing h l with
  | zero => rfl
  | succ fuel ih =>
    cases l with
    | nil =>
      rw [chain_nil.mp hc]
      rfl
    | cons c l =>
      have hc' : own.area c = s.area c := harea c mem_cons_self
      have hnext : own.next c = s.next c := congrArg VmArea.next hc'
      rw [hc.1, findArea, findArea, hc', hnext]
      split_ifs with hlow
      · rfl
      · exact ih hc.2 fun i hi => harea i (mem_cons_of_mem c hi)

lemma findArea_mem {h : Option Nat} (hc : Chain s.next h l)
    (hfind : findArea s ptr fuel h = some (some i)) : i ∈ l := by
  rw [findArea_eq_search] at hfind
  exact hc.reaches_iff.mp (searchArea_found hfind).2

/-- The call does the same in both memories, and nothing to the areas of other lists. -/
lemma CopiedList.mmap (h : CopiedList s own l) (hblock : ∀ i b, block = some (i, b) → i ∉ l)
    (hcall : Vm.mmap fuel s fdTable block call = some (s', ret)) :
    ∃ own' l', Vm.mmap fuel own fdTable block call = some (own', ret) ∧ CopiedList s' own' l' ∧
      (∀ p ∈ l', p ∈ l ∨ ∃ b, block = some (p, b)) ∧
      ∀ p, p ∉ l → (∀ b, block ≠ some (p, b)) → s'.area p = s.area p := by
  by_cases href : call.Refused
  · rw [mmap_refused href] at hcall
    cases hcall
    exact ⟨own, l, mmap_refused href, h, fun p hp => .inl hp, fun _ _ _ => rfl⟩
  cases block with
  | none =>
    rw [mmap_no_block href] at hcall
    cases hcall
    exact ⟨own, l, mmap_no_block href, h, fun p hp => .inl hp, fun _ _ _ => rfl⟩
  | some block =>
    obtain ⟨i, b⟩ := block
    have hi : i ∉ l := hblock i b rfl
    rw [mmap_block href] at hcall
    obtain ⟨s1, hadd, heq⟩ := map_eq_some_iff.mp hcall
    cases heq
    have hfill : CopiedList (s.assign i fun _ => call.fill (call.lookup fdTable) b)
        (own.assign i fun _ => call.fill (call.lookup fdTable) b) l := by
      have hframe : ∀ f, CopiedList (s.assign i f) own l :=
        fun f => h.frame rfl (assign_area_of_not_mem hi)
      refine ⟨(hframe _).links, h.head, fun j hj => ?_⟩
      rw [assign_area_of_not_mem hi j hj, assign_area_of_not_mem hi j hj, h.areas j hj]
    obtain ⟨own', l1, l2, hown, rfl, hcopy, hframe⟩ :=
      hfill.add hi (by rw [assign_area, assign_area, if_pos rfl, if_pos rfl]) hadd
    refine ⟨own', l1 ++ i :: l2, ?_, hcopy, fun p hp => ?_, fun p hp hpb => ?_⟩
    · rw [mmap_block href, hown, map_some, hcopy.areas i (by simp)]
    · by_cases hpi : p = i
      · exact .inr ⟨b, by rw [hpi]⟩
      · exact .inl (by simpa [hpi] using hp)
    · have hpi : p ≠ i := by
        rintro rfl
        exact hpb b rfl
      rw [hframe p hpi hp, assign_area, if_neg hpi]

/-! ## Switches -/

/-- The list of a process, wherever it is kept. -/
def keptMmaps (s : Scheduler) (p : Nat) : Option Nat :=
  if runningProcess s = some p then s.mmapListHead else (s.processes p).mmapInfos

def keptStacks (s : Scheduler) (p : Nat) : Option Nat :=
  if runningProcess s = some p then s.usListHead else (s.processes p).ustacksInfos

/-- No process can tell the difference. -/
structure SameView (s s' : Scheduler) : Prop where
  mmaps : ∀ p, keptMmaps s' p = keptMmaps s p
  ustacks : ∀ p, keptStacks s' p = keptStacks s p
  kernel : runningProcess s' = none → s'.mmapListHead = none ∧ s'.usListHead = none

/-- Without a process there are no lists. -/
def KernelBare (s : Scheduler) : Prop :=
  runningProcess s = none → s.mmapListHead = none ∧ s.usListHead = none

lemma SameLists.sameView (h : SameLists sched sched') (hbare : KernelBare sched) :
    SameView sched sched' := by
  have hrun : runningProcess sched' = runningProcess sched := by
    rw [runningProcess, runningProcess, h.current]
    cases hcur : sched.currentThread with
    | none => rfl
    | some t => exact h.process t hcur
  refine ⟨fun p => ?_, fun p => ?_, fun hnone => ?_⟩
  · rw [keptMmaps, keptMmaps, hrun, h.mmapHead, h.processes]
  · rw [keptStacks, keptStacks, hrun, h.usHead, h.processes]
  · rw [h.mmapHead, h.usHead]
    exact hbare (hrun ▸ hnone)

lemma suspend_sameLists (sched : Scheduler) (c rsp : Nat) : SameLists sched (suspend sched c rsp) ∧
    ∀ t, ((suspend sched c rsp).threads t).process = (sched.threads t).process := by
  have hglobals : ((suspend sched c rsp).currentThread, (suspend sched c rsp).processes,
      (suspend sched c rsp).mmapListHead, (suspend sched c rsp).usListHead) =
      (sched.currentThread, sched.processes, sched.mmapListHead, sched.usListHead) := by
    have hdeq := fun s : Scheduler => dequeueThread_globals (s := s) (t := c)
    have hview := fun s : Scheduler => congrArg
      (fun s : Scheduler => (s.currentThread, s.processes, s.mmapListHead, s.usListHead)) (hdeq s)
    rw [suspend]
    split_ifs
    · exact hview sched
    · exact hview (sched.modify c (Thread.setRsp rsp))
    · rfl
  have hprocess : ∀ t, ((suspend sched c rsp).threads t).process = (sched.threads t).process := by
    intro t
    refine (fields_of_body ?_).2.2.1
    rw [suspend]
    split_ifs
    · exact (body_of_unlinked (modify_unlinked fun _ => by rfl)).trans
        (body_of_unlinked dequeueThread_unlinked)
    · refine (body_of_unlinked dequeueThread_unlinked).trans ?_
      rw [modify_threads]
      split_ifs with ht
      · rw [ht, setRsp_body]
      · rfl
    · rw [modify_threads]
      split_ifs with ht
      · rw [ht, setState_body, setRsp_body]
      · rfl
  obtain ⟨hcur, hprocs, hmmap, hus⟩ := by simpa using hglobals
  exact ⟨⟨hcur, fun t _ => hprocess t, hprocs, hmmap, hus⟩, hprocess⟩

lemma modify_process (sched : Scheduler) (n : Nat) {f : Thread → Thread}
    (hf : ∀ x, (f x).process = x.process) (u : Nat) :
    ((sched.modify n f).threads u).process = (sched.threads u).process := by
  rw [modify_threads]
  split_ifs with hu
  · rw [hf, hu]
  · rfl

/-- What is saved and what is loaded, by the processes of the two threads. -/
lemma switchProcess_heads (sched : Scheduler) {P N : Option Nat}
    (hP : (sched.threads c).process = P)
    (hN : (sched.threads n).process = N) :
    (P = N → switchProcess sched c n = sched) ∧
    (P ≠ N → (∀ p, (switchProcess sched c n).processes p =
        if P = some p then { sched.processes p with
          ustacksInfos := sched.usListHead, mmapInfos := sched.mmapListHead }
        else sched.processes p) ∧
      (switchProcess sched c n).mmapListHead = N.bind (fun q => (sched.processes q).mmapInfos) ∧
      (switchProcess sched c n).usListHead = N.bind fun q => (sched.processes q).ustacksInfos) := by
  refine ⟨fun heq => if_pos (by rw [hP, hN, heq]), fun hne => ?_⟩
  rw [switchProcess, if_neg (by rwa [hP, hN]), hP, hN]
  cases P with
  | none =>
    cases N with
    | none => exact absurd rfl hne
    | some q => exact ⟨fun _ => rfl, rfl, rfl⟩
  | some p =>
    have hsaved : ∀ r, update sched.processes p { sched.processes p with
        ustacksInfos := sched.usListHead, mmapInfos := sched.mmapListHead } r =
        if some p = some r then { sched.processes r with
          ustacksInfos := sched.usListHead, mmapInfos := sched.mmapListHead }
        else sched.processes r := by
      intro r
      by_cases hr : p = r
      · rw [hr, update_self, if_pos rfl]
      · rw [update_of_ne (Ne.symm hr), if_neg (by simpa using hr)]
    cases N with
    | none => exact ⟨hsaved, rfl, rfl⟩
    | some q =>
      have hpq : some p ≠ some q := hne
      refine ⟨hsaved, ?_, ?_⟩
      · dsimp only
        rw [hsaved, if_neg hpq]
        rfl
      · dsimp only
        rw [hsaved, if_neg hpq]
        rfl

/-- The lists that are loaded are those that were saved for the next process. -/
lemma switchTo_sameView (hcur : sched.currentThread = some c) (hbare : KernelBare sched) :
    SameView sched (switchTo sched c n).1 := by
  have hrun : runningProcess sched = (sched.threads c).process := by
    rw [runningProcess, hcur]
    rfl
  have hrun' : runningProcess (switchTo sched c n).1 = (sched.threads n).process := by
    have hnew : (switchTo sched c n).1.lists = _ := switchTo_lists
    rw [runningProcess, show (switchTo sched c n).1.currentThread = some n from
      congrArg (fun l => l.2.2.1) hnew, bind_some, switchTo_threads, if_pos rfl]
    rfl
  have hprocess := modify_process sched n (f := Thread.setState .running) fun _ => rfl
  obtain ⟨hsame, hdiff⟩ := switchProcess_heads
    { sched.modify n (Thread.setState .running) with currentThread := some n }
    (hprocess c) (hprocess n)
  by_cases heq : (sched.threads c).process = (sched.threads n).process
  · have hview : ∀ p, keptMmaps (switchTo sched c n).1 p = keptMmaps sched p ∧
        keptStacks (switchTo sched c n).1 p = keptStacks sched p := by
      intro p
      rw [keptMmaps, keptMmaps, keptStacks, keptStacks, hrun', hrun, heq, switchTo, hsame heq]
      exact ⟨rfl, rfl⟩
    refine ⟨fun p => (hview p).1, fun p => (hview p).2, fun hnone => ?_⟩
    rw [switchTo, hsame heq]
    exact hbare (by rw [hrun, heq, ← hrun', hnone])
  · obtain ⟨hprocs, hmmap, hus⟩ := hdiff heq
    have hview : ∀ p, keptMmaps (switchTo sched c n).1 p = keptMmaps sched p ∧
        keptStacks (switchTo sched c n).1 p = keptStacks sched p := by
      intro p
      rw [keptMmaps, keptMmaps, keptStacks, keptStacks, hrun', hrun, switchTo]
      rw [hmmap, hus, hprocs]
      by_cases hp : (sched.threads n).process = some p
      · rw [if_pos hp, if_pos hp, if_neg (fun h => heq (h.trans hp.symm)),
          if_neg (fun h => heq (h.trans hp.symm)), hp]
        exact ⟨rfl, rfl⟩
      · split_ifs <;> exact ⟨rfl, rfl⟩
    refine ⟨fun p => (hview p).1, fun p => (hview p).2, fun hnone => ?_⟩
    rw [hrun'] at hnone
    rw [hnone] at hmmap hus
    exact ⟨hmmap, hus⟩

lemma SameView.trans {a b c : Scheduler} (h : SameView a b) (h' : SameView b c) : SameView a c :=
  ⟨fun p => (h'.mmaps p).trans (h.mmaps p), fun p => (h'.ustacks p).trans (h.ustacks p), h'.kernel⟩

lemma schedulerHandler_sameView (hbare : KernelBare sched)
    (hcall : schedulerHandler sched rsp = some (sched', r)) : SameView sched sched' := by
  have hrefl : SameView sched sched := ⟨fun _ => rfl, fun _ => rfl, hbare⟩
  unfold schedulerHandler at hcall
  split at hcall
  · cases hcall
    exact hrefl
  split_ifs at hcall
  · cases hcall
    exact hrefl
  split at hcall
  · cases hcall
  rename_i c hcur
  obtain ⟨hsus, hprocess⟩ := suspend_sameLists sched c rsp
  have hview := hsus.sameView hbare
  dsimp only at hcall
  split at hcall
  · cases hcall
    exact hview
  split at hcall
  · cases hcall
  · cases hcall
    exact hview.trans (switchTo_sameView (hsus.current.trans hcur) hview.kernel)
  · split_ifs at hcall
    cases hcall
    have hback : SameLists (suspend sched c rsp)
        ((suspend sched c rsp).modify c (Thread.setState .running)) :=
      ⟨rfl, fun t _ => modify_process _ c (f := Thread.setState .running) (fun _ => rfl) t,
        rfl, rfl, rfl⟩
    exact hview.trans (hback.sameView hview.kernel)

/-! ## Every step -/

lemma OwnLoaded.ownLists (h : OwnLoaded st) : OwnLists st := by
  have hcopy : ∀ p, SameList ⟨st.sys.area, (st.sys.sched.processes p).mmapInfos⟩ (st.mmaps p) ∧
      SameList ⟨st.sys.area, (st.sys.sched.processes p).ustacksInfos⟩ (st.ustacks p) := by
    intro p
    obtain ⟨hlinks, hlinks'⟩ := h.links p
    rw [h.mmaps p] at hlinks ⊢
    rw [h.ustacks p] at hlinks' ⊢
    exact ⟨⟨hlinks, rfl, fun _ _ => rfl⟩, ⟨hlinks', rfl, fun _ _ => rfl⟩⟩
  refine ⟨fun p hp => ?_, fun p _ => hcopy p, fun hnone => ?_, h.apart⟩
  · rw [AreaSystem.mmaps, AreaSystem.ustacks, h.mmapHead, h.usHead, hp]
    exact hcopy p
  · rw [AreaSystem.mmaps, AreaSystem.ustacks, h.mmapHead, h.usHead, hnone]
    exact ⟨rfl, rfl⟩

/-- The lists of a process, wherever they are kept, are its own. -/
def KeptOwn (st : OwnState) (p : Nat) : Prop :=
  SameList ⟨st.sys.area, keptMmaps st.sys.sched p⟩ (st.mmaps p) ∧
    SameList ⟨st.sys.area, keptStacks st.sys.sched p⟩ (st.ustacks p)

lemma OwnLists.kept (h : OwnLists st) (p : Nat) : KeptOwn st p := by
  rw [KeptOwn, keptMmaps, keptStacks]
  split_ifs with hp
  · exact h.running p hp
  · exact h.waiting p hp

lemma OwnLists.of_kept (hkept : ∀ p, KeptOwn st p) (hbare : KernelBare st.sys.sched)
    (hapart : OwnApart st) : OwnLists st := by
  refine ⟨fun p hp => ?_, fun p hp => ?_, hbare, hapart⟩
  · have hp' := hkept p
    rw [AreaSystem.running] at hp
    rwa [KeptOwn, keptMmaps, keptStacks, if_pos hp, if_pos hp] at hp'
  · have hp' := hkept p
    rw [AreaSystem.running] at hp
    rwa [KeptOwn, keptMmaps, keptStacks, if_neg hp, if_neg hp] at hp'

lemma OwnLists.sameView (h : OwnLists st) (hview : SameView st.sys.sched sched) :
    OwnLists { st with sys := ⟨sched, st.sys.area⟩ } := by
  refine OwnLists.of_kept (fun p => ?_) hview.kernel ⟨h.apart.mmaps, h.apart.ustacks⟩
  rw [KeptOwn, hview.mmaps, hview.ustacks]
  exact h.kept p

lemma call_of_running {f : AreaList → Option AreaList} (hp : st.sys.running = some p)
    (hf : f (st.mmaps p) = some own') : st.call f = update st.mmaps p own' := by
  rw [OwnState.call, hp]
  simp only [hf, getD_some]

lemma call_unchanged {f : AreaList → Option AreaList}
    (hf : ∀ p, st.sys.running = some p → f (st.mmaps p) = some (st.mmaps p)) :
    st.call f = st.mmaps := by
  cases hp : st.sys.running with
  | none => rw [OwnState.call, hp]
  | some p =>
    rw [call_of_running hp (hf p hp)]
    exact update_eq_self p st.mmaps

/-- What a step does that is no call of process `q`. -/
def Untouched (st : OwnState) (sys : AreaSystem) : Prop :=
  ∀ q, st.sys.running ≠ some q → ∀ i, (st.mmaps q).Has i ∨ (st.ustacks q).Has i →
    sys.area i = st.sys.area i

/-- The list of the running process is replaced by one with at most new areas that are on
no list, and other areas are not written. -/
lemma OwnLists.store (h : OwnLists st) (unused : Nat → Prop) (hp : st.sys.running = some p)
    (hl : CopiedList st.sys.mmaps (st.mmaps p) l) (hl' : CopiedList s' own' l')
    (hmem : ∀ i ∈ l', i ∈ l ∨ unused i)
    (hunused : ∀ i, unused i → ∀ q, ¬ (st.mmaps q).Has i ∧ ¬ (st.ustacks q).Has i)
    (hframe : ∀ i, i ∉ l → ¬ unused i → s'.area i = st.sys.area i)
    (hstore : st.sys.store s' = some sys) {f : AreaList → Option AreaList}
    (hf : f (st.mmaps p) = some own') :
    OwnLists ⟨sys, st.call f, st.ustacks⟩ ∧ Untouched st sys := by
  rw [call_of_running hp hf]
  rw [AreaSystem.store, hp] at hstore
  cases hstore
  have hnew : ∀ i ∈ l', ∀ q, (q ≠ p → ¬ (st.mmaps q).Has i) ∧ ¬ (st.ustacks q).Has i := by
    intro i hi q
    rcases hmem i hi with hi | hi
    · have hhas : (st.mmaps p).Has i := hl.has_iff.mpr hi
      exact ⟨fun hq => h.apart.mmaps p q i (Ne.symm hq) hhas, h.apart.ustacks p q i hhas⟩
    · exact ⟨fun _ => (hunused i hi q).1, (hunused i hi q).2⟩
  have hkeep : ∀ i q, (q ≠ p ∧ (st.mmaps q).Has i) ∨ (st.ustacks q).Has i →
      s'.area i = st.sys.area i := by
    intro i q hi
    refine hframe i (fun hil => ?_) fun hu => ?_
    · have hhas : (st.mmaps p).Has i := hl.has_iff.mpr hil
      rcases hi with ⟨hq, hi⟩ | hi
      · exact h.apart.mmaps p q i (Ne.symm hq) hhas hi
      · exact h.apart.ustacks p q i hhas hi
    · rcases hi with ⟨-, hi⟩ | hi
      · exact (hunused i hu q).1 hi
      · exact (hunused i hu q).2 hi
  refine ⟨⟨fun q hq => ?_, fun q hq => ?_, fun hnone => ?_, fun q r i hqr hi => ?_,
    fun q r i hi => ?_⟩, fun q hq i hi => ?_⟩
  · obtain rfl : p = q := Option.some.inj (hp.symm.trans hq)
    refine ⟨?_, (h.running p hp).2.frame rfl fun i hi => hkeep i p (.inr hi)⟩
    dsimp only
    rw [update_self]
    exact hl'.sameList
  · have hqp : q ≠ p := by
      rintro rfl
      exact hq hp
    obtain ⟨hmmap, hus⟩ := h.waiting q fun hq' => hq hq'
    dsimp only
    rw [update_of_ne hqp, update_of_ne hqp]
    exact ⟨hmmap.frame rfl fun i hi => hkeep i q (.inl ⟨hqp, hi⟩),
      hus.frame rfl fun i hi => hkeep i q (.inr hi)⟩
  · cases hp.symm.trans hnone
  · dsimp only at hi ⊢
    by_cases hq : q = p
    · subst hq
      rw [update_self, hl'.has_iff] at hi
      rw [update_of_ne (Ne.symm hqr)]
      exact (hnew i hi r).1 (Ne.symm hqr)
    · rw [update_of_ne hq] at hi
      by_cases hr : r = p
      · subst hr
        rw [update_self, hl'.has_iff]
        exact fun hi' => (hnew i hi' q).1 hq hi
      · rw [update_of_ne hr]
        exact h.apart.mmaps q r i hqr hi
  · dsimp only at hi ⊢
    by_cases hq : q = p
    · subst hq
      rw [update_self, hl'.has_iff] at hi
      exact (hnew i hi r).2
    · rw [update_of_ne hq] at hi
      exact h.apart.ustacks q r i hi
  · exact hkeep i q (hi.imp_left fun hi => ⟨fun heq => hq (heq ▸ hp), hi⟩)

lemma mmap_fails (fuel : Nat) (fdTable : Nat → Option Nat) (hfail : call.Refused ∨ block = none) :
    ∃ ret, ∀ s, Vm.mmap fuel s fdTable block call = some (s, ret) := by
  by_cases href : call.Refused
  · exact ⟨_, fun s => mmap_refused href⟩
  · obtain rfl := hfail.resolve_left href
    exact ⟨_, fun s => mmap_no_block href⟩

section

variable (h : OwnLists st)
include h

lemma OwnLists.mmap (hunused : st.Unused block)
    (hcall : st.sys.mmap fuel fdTable block call = some (sys, ret)) :
    OwnLists ⟨sys, st.call fun s => (Vm.mmap fuel s fdTable block call).map Prod.fst, st.ustacks⟩ ∧
      Untouched st sys := by
  obtain ⟨⟨s', ret'⟩, hmmap, hstore⟩ := bind_eq_some_iff.mp hcall
  by_cases hfail : call.Refused ∨ block = none
  · rw [if_pos hfail] at hstore
    cases hstore
    obtain ⟨_, hsame⟩ := mmap_fails fuel fdTable hfail
    rw [call_unchanged fun p _ => by rw [hsame, map_some]]
    exact ⟨h, fun _ _ _ _ => rfl⟩
  · rw [if_neg hfail] at hstore
    obtain ⟨sys', hstored, heq⟩ := map_eq_some_iff.mp hstore
    cases heq
    cases hp : st.sys.running with
    | none =>
      rw [AreaSystem.store, hp] at hstored
      cases hstored
    | some p =>
      obtain ⟨l, hl⟩ := (h.running p hp).1.copied
      obtain ⟨own', l', hown, hl', hmem, hframe⟩ := hl.mmap (fun i b hb hi =>
        (hunused i b hb p).1 (hl.has_iff.mpr hi)) hmmap
      exact h.store (fun i => ∃ b, block = some (i, b)) hp hl hl' hmem
        (fun i ⟨b, hb⟩ => hunused i b hb)
        (fun i hi hb => hframe i hi fun b hb' => hb ⟨b, hb'⟩) hstored (by rw [hown, map_some])

lemma OwnLists.munmap (hcall : st.sys.munmap fuel ptr = some sys) :
    OwnLists ⟨sys, st.call fun s => munmapList fuel s ptr, st.ustacks⟩ ∧ Untouched st sys := by
  obtain ⟨found, hfind, hstore⟩ := bind_eq_some_iff.mp hcall
  have hown : ∀ p, st.sys.running = some p →
      findArea (st.mmaps p) ptr fuel (st.mmaps p).head = some found := by
    intro p hp
    obtain ⟨l, hl⟩ := (h.running p hp).1.copied
    rw [hl.head, findArea_copied hl.links.chain hl.areas, hfind]
  cases found with
  | none =>
    cases hstore
    rw [call_unchanged fun p hp => by rw [munmapList, hown p hp, map_some]]
    exact ⟨h, fun _ _ _ _ => rfl⟩
  | some i =>
    have hstored : st.sys.store (removeFromList st.sys.mmaps i) = some sys := hstore
    cases hp : st.sys.running with
    | none =>
      rw [AreaSystem.store, hp] at hstored
      cases hstored
    | some p =>
      obtain ⟨l, hl⟩ := (h.running p hp).1.copied
      obtain ⟨l1, l2, rfl⟩ := append_of_mem (findArea_mem hl.links.chain hfind)
      obtain ⟨hl', hframe⟩ := hl.remove
      exact h.store (fun _ => False) hp hl hl'
        (fun j hj => .inl (by simp at hj ⊢; tauto)) (fun j hj => hj.elim)
        (fun j hj _ => hframe j hj) hstored (by rw [munmapList, hown p hp, map_some])

lemma OwnStep.ownLists (hstep : OwnStep st act st') : OwnLists st' := by
  cases hstep with
  | switch hcall => exact h.sameView (schedulerHandler_sameView h.kernel hcall)
  | mmap hunused hcall => exact (h.mmap hunused hcall).1
  | munmap hcall => exact (h.munmap hcall).1
  | other hsame => exact h.sameView (hsame.sameView h.kernel)

lemma OwnLists.onlyOwnCalls : OnlyOwnCalls st := by
  have hcall : ∀ {f p}, st.sys.running ≠ some p → st.call f p = st.mmaps p := by
    intro f p hp
    rw [OwnState.call]
    cases hrun : st.sys.running with
    | none => rfl
    | some q => exact update_of_ne (fun hpq => hp (by rw [hrun, hpq])) _ _
  intro act st' hstep p hp
  cases hstep with
  | switch hcall => exact ⟨rfl, fun _ _ => rfl⟩
  | mmap hunused hmmap =>
    dsimp only
    exact ⟨hcall hp, (h.mmap hunused hmmap).2 p hp⟩
  | munmap hmunmap =>
    dsimp only
    exact ⟨hcall hp, (h.munmap hmunmap).2 p hp⟩
  | other hsame => exact ⟨rfl, fun _ _ => rfl⟩

lemma OwnLists.findsOwn : FindsOwn st := by
  intro p ptr fuel i hp hfind
  obtain ⟨l, hl⟩ := (h.running p hp).1.copied
  have hi : (st.mmaps p).Has i := hl.has_iff.mpr (findArea_mem hl.links.chain hfind)
  exact ⟨hi, fun q hq => h.apart.mmaps p q i (Ne.symm hq) hi⟩

end

lemma OwnStep.ustacks (hstep : OwnStep st act st') : st'.ustacks = st.ustacks := by
  cases hstep <;> rfl

/-- Without calls of a process its own copies stay as they are. -/
lemma own_without_calls (h : OwnLists st)
    (run : (ownMachineAt st).Reached (fun st act => ¬ st.CallBy p act) st') :
    OwnLists st' ∧ st'.mmaps p = st.mmaps p ∧ st'.ustacks = st.ustacks := by
  have hstart : ∀ st1, (ownMachineAt st).start st1 →
      OwnLists st1 ∧ st1.mmaps p = st.mmaps p ∧ st1.ustacks = st.ustacks := by
    rintro _ rfl
    exact ⟨h, rfl, rfl⟩
  refine run.invariant hstart fun st1 act st2 ⟨hown, hmmaps, hus⟩ hact hstep => ?_
  exact ⟨OwnStep.ownLists hown hstep, ((hown.onlyOwnCalls act st2 hstep p hact).1).trans hmmaps,
    (OwnStep.ustacks hstep).trans hus⟩

lemma OwnLists.findsAgain (h : OwnLists st) : FindsAgain st := by
  intro p st' hp hp' run
  obtain ⟨h', hmmaps, hus⟩ := own_without_calls h run
  obtain ⟨hm, hu⟩ := h.running p hp
  obtain ⟨hm', hu'⟩ := h'.running p hp'
  rw [hmmaps] at hm'
  rw [hus] at hu'
  refine ⟨hm'.head.symm.trans hm.head, hu'.head.symm.trans hu.head, fun i hi => ?_⟩
  rcases hi with hi | hi
  · have hown := hm.has_iff.mpr hi
    exact (hm'.areas i (hm'.has_iff.mp hown)).symm.trans (hm.areas i hi)
  · have hown := hu.has_iff.mpr hi
    exact (hu'.areas i (hu'.has_iff.mp hown)).symm.trans (hu.areas i hi)

/-! ## Main result -/

/-- Over every run of switches and calls, a process that runs finds its own lists behind the
global variables, changes and finds no others, and finds them again after it has waited. -/
theorem area_lists_survive_switches (run : ownMachine.Reached (fun _ _ => True) st) :
    OwnLists st ∧ OnlyOwnCalls st ∧ FindsOwn st ∧ FindsAgain st := by
  have h : OwnLists st :=
    run.invariant (fun _ hst => OwnLoaded.ownLists hst) fun _ _ _ h _ hstep =>
      OwnStep.ownLists h hstep
  exact ⟨h, h.onlyOwnCalls, h.findsOwn, h.findsAgain⟩

/-- Thread 0 of process 0 runs, and thread 1 of process 1 is ready. -/
def twoProcesses : Scheduler :=
  { blankScheduler zeroThread with
    threads := fun t => { zeroThread with
      state := if t = 0 then .running else .ready
      process := some t
      next := some (1 - t)
      prev := some (1 - t) }
    live := [0, 1]
    readyListHead := some 0
    currentThread := some 0 }

def noLists : OwnState :=
  ⟨⟨twoProcesses, fun _ => blankArea⟩, fun _ => ⟨fun _ => blankArea, none⟩,
    fun _ => ⟨fun _ => blankArea, none⟩⟩

/-- Process 0 maps a page. -/
def mappedSystem : AreaSystem :=
  ((noLists.sys.mmap 1 (fun _ => none) (some (5, blankArea)) (anonymous 4096)).getD
    (noLists.sys, 0)).1

def onePageMapped : OwnState :=
  ⟨mappedSystem, noLists.call fun s =>
    (mmap 1 s (fun _ => none) (some (5, blankArea)) (anonymous 4096)).map Prod.fst, noLists.ustacks⟩

/-- And then process 1 runs. -/
def onePageWaiting : OwnState :=
  { onePageMapped with sys :=
      ⟨((schedulerHandler mappedSystem.sched 0).getD (mappedSystem.sched, 0)).1,
        mappedSystem.area⟩ }

lemma onePageWaiting_reached : ownMachine.Reached (fun _ _ => True) onePageWaiting := by
  have hempty : ∀ i p, ¬ (noLists.mmaps p).Has i ∧ ¬ (noLists.ustacks p).Has i := by
    intro i p
    have hmmaps : Chain (noLists.mmaps p).next (noLists.mmaps p).head [] := rfl
    have hus : Chain (noLists.ustacks p).next (noLists.ustacks p).head [] := rfl
    exact ⟨fun h => not_mem_nil (hmmaps.reaches_iff.mp h),
      fun h => not_mem_nil (hus.reaches_iff.mp h)⟩
  have hstart : ownMachine.start noLists := by
    refine ⟨fun _ => rfl, fun _ => rfl, fun p => ⟨⟨[], rfl, trivial⟩, [], rfl, trivial⟩, rfl, rfl,
      fun p _ i _ hi => absurd hi (hempty i p).1, fun p _ i hi => absurd hi (hempty i p).1⟩
  have hmap : OwnStep noLists (.mmap (fun _ => none) (some (5, blankArea)) (anonymous 4096)
      (mmapStart - 4096)) onePageMapped :=
    .mmap (fun i _ _ p => hempty i p) rfl
  have hswitch : OwnStep onePageMapped (.switch 0) onePageWaiting := .switch rfl
  exact .step (.step (.start hstart) trivial hmap) trivial hswitch

/-- Process 0 has a page and waits, process 1 runs without any. -/
theorem area_lists_survive_switches_waiting :
    onePageWaiting.sys.running = some 1 ∧ onePageWaiting.sys.mmaps.head = none ∧
      (onePageWaiting.mmaps 0).head = some 5 ∧ OwnLists onePageWaiting ∧
      OnlyOwnCalls onePageWaiting ∧ FindsOwn onePageWaiting ∧ FindsAgain onePageWaiting :=
  ⟨rfl, rfl, rfl, area_lists_survive_switches onePageWaiting_reached⟩

end DestinX.Vm
