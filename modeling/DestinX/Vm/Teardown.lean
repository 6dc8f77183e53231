import DestinX.Vm.UserStacks

/-!
# The last thread of a process

`destroy_thread` with everything it releases, as a list of events. If `process->threads` is null,
the process is taken down as well: its mapped areas, heap, open files, the `process_t` and the
page tables.

The statement that should take the thread from the list is a comparison, so the second part is
never executed. It would not work either: the loop over the areas reads the link of an area that
has just been unlinked, the files are those of the running thread, and the page tables are looked
up in the `process_t` that has been freed.
-/

namespace DestinX.Vm

open Base Fs Function List Option

/-- What is given to `kfree`. -/
inductive Object where
  | thread (t : Nat)
  | kernelStack (t : Nat)
  | file (f : Nat)
  | process (p : Nat)
  deriving DecidableEq, Repr

inductive Event where
  | kfree (o : Object)
  /-- `pmm_free_page` -/
  | freed (frame : Nat)
  /-- A field of an area is read that is on no list any more. -/
  | readArea (i : Nat)
  /-- A field of a `process_t` is read that has been freed. -/
  | readProcess (p : Nat)
  deriving DecidableEq, Repr

/-! ## The code -/

/-- The frame that unmapping the page frees. -/
def Kernel.freedBy (k : Kernel) (cr3 vaddr : Nat) : List Event :=
  match k.pages cr3 (pageStart vaddr) with
  | some (paddr, _) => [.freed paddr]
  | none => []

def unmapNext (cr3 : Nat) (r : Kernel × List Event) (v : Nat) : Kernel × List Event :=
  (r.1.unmapFree cr3 v, r.2 ++ r.1.freedBy cr3 v)

/-- Unmap and free the pages one after the other. -/
def Kernel.unmapPages (k : Kernel) (cr3 : Nat) (vs : List Nat) : Kernel × List Event :=
  vs.foldl (unmapNext cr3) (k, [])

def VmArea.pages (a : VmArea) : List Nat := (loopOffsets a.size).map (add64 a.lower ·)

/-- The loop over the mapped areas. `mmap_remove_from_list` compares the area with the
head of the running thread's list, so that the head of this one stays; the links of the
area are cleared before the loop reads the next one. -/
def Kernel.munmapInfos (k : Kernel) (p : Nat) : Nat → Option Nat → Option (Kernel × List Event)
  | _, none => some (k, [])
  | 0, some _ => none
  | fuel + 1, some i =>
    let pr := k.process p
    let r := k.unmapPages pr.cr3 (pr.mmaps.area i).pages
    let s := { removeFromList pr.mmaps i with head := pr.mmaps.head }
    ((r.1.setProcess p fun pr => { pr with mmaps := s }).munmapInfos p fuel (s.next i)).map
      fun r' => (r'.1, r.2 ++ .readArea i :: r'.2)

def Kernel.freeHeap (k : Kernel) (p : Nat) : Kernel × List Event :=
  let pr := k.process p
  k.unmapPages pr.cr3 ((List.range pr.pagesAlloced).map fun i => add64 pr.heapStart (4096 * i))

/-- The open files of the process that runs. -/
def Kernel.freeFiles (k : Kernel) (current : Nat) : List Event :=
  (List.range' 3 125).filterMap fun i =>
    ((k.process current).fdTable i).map fun f => .kfree (.file f)

/-- The process is taken down. Without a process of the running thread, the files are read
through a null pointer. -/
def Kernel.teardown (k : Kernel) (fuel p : Nat) (current : Option Nat) :
    Option (Kernel × List Event) :=
  (k.munmapInfos p fuel (k.process p).mmaps.head).bind fun r =>
    let heap := r.1.freeHeap p
    current.map fun q =>
      (heap.1, r.2 ++ heap.2 ++ heap.1.freeFiles q ++
        [.kfree (.process p), .readProcess p, .freed (heap.1.process p).cr3])

/-- `user_free_stack` with what it frees. -/
def Kernel.freeStack (k : Kernel) (fuel p ptr : Nat) : Option (Kernel × List Event) :=
  let pr := k.process p
  (searchArea pr.ustacks (fun a => a.base = ptr) fuel pr.ustacks.head).map fun found =>
    match found with
    | some i =>
      let r := k.unmapPages pr.cr3 (pr.ustacks.area i).pages
      (r.1.setProcess p fun pr => { pr with ustacks := removeFromList pr.ustacks i }, r.2)
    | none => (k, [])

/-- `destroy_thread`, executed by a thread of the process `current`. -/
def Kernel.releaseThread (k : Kernel) (fuel t : Nat) (current : Option Nat) :
    Option (Kernel × List Event) :=
  (k.thread t).bind fun th =>
    let done := fun (r : Kernel × List Event) =>
      (({ r.1 with thread := update r.1.thread t none } : Kernel),
        .kfree (.kernelStack t) :: r.2 ++ [.kfree (.thread t)])
    if th.stackBottom = 0 then some (done (k, []))
    else
      (k.freeStack fuel th.process th.stackBottom).bind fun r =>
        if (r.1.process th.process).threads = none then
          (r.1.teardown fuel th.process current).map fun r' => done (r'.1, r.2 ++ r'.2)
        else some (done r)

/-! ## Runs -/

inductive ProcessAction where
  | create (p t size : Nat) (block : Option (Nat × VmArea))
  | destroy (t : Nat) (current : Option Nat)

inductive ProcessStep : Kernel → ProcessAction → Kernel → Prop
  | create {k k' : Kernel} {p t size fuel : Nat} {block : Option (Nat × VmArea)}
      (hcall : k.createUserThread fuel p t size block = some k') :
      ProcessStep k (.create p t size block) k'
  | destroy {k k' : Kernel} {t fuel : Nat} {current : Option Nat} {events : List Event}
      (hcall : k.releaseThread fuel t current = some (k', events)) :
      ProcessStep k (.destroy t current) k'

/-- Processes with any mapped areas, files and heaps, and no threads yet. -/
def processMachine : Machine Kernel ProcessAction where
  start k := ∀ t, k.thread t = none
  step := ProcessStep

/-- The process is taken down: it is released with its page tables, its files and the
frames of its mapped pages, each once, and nothing is read too late. -/
structure TakenDown (k k' : Kernel) (p : Nat) (events : List Event) : Prop where
  process : events.count (.kfree (.process p)) = 1
  tables : events.count (.freed (k.process p).cr3) = 1
  files : ∀ i f, 3 ≤ i → i < 128 → (k.process p).fdTable i = some f →
    events.count (.kfree (.file f)) = 1
  areas : ∀ i, Reaches (k.process p).mmaps.next (k.process p).mmaps.head i →
    ∀ v ∈ ((k.process p).mmaps.area i).pages, ∀ f flags,
      k.pages (k.process p).cr3 (pageStart v) = some (f, flags) →
        k'.pages (k.process p).cr3 (pageStart v) = none ∧ events.count (.freed f) = 1
  inTime : ∀ e ∈ events, (∀ i, e ≠ .readArea i) ∧ ∀ q, e ≠ .readProcess q

variable {k k' : Kernel} {th : UserThread} {act : ProcessAction} {events : List Event}
  {block : Option (Nat × VmArea)} {current : Option Nat} {fuel p q t size cr3 : Nat}

lemma unmapFree_pages (k : Kernel) (cr3 w c v : Nat) : (k.unmapFree cr3 w).pages c v =
    if c = cr3 ∧ v = pageStart w then none else k.pages c v := by
  rw [Kernel.unmapFree]
  split
  next hnone =>
    split_ifs with hat
    · rw [hat.1, hat.2, hnone]
    · rfl
  · rfl

lemma unmapPages_pages (k : Kernel) (cr3 : Nat) (vs : List Nat) (c v : Nat) :
    (k.unmapPages cr3 vs).1.pages c v =
      if c = cr3 ∧ v ∈ vs.map pageStart then none else k.pages c v := by
  have hfold : ∀ r : Kernel × List Event, (vs.foldl (unmapNext cr3) r).1.pages c v =
        if c = cr3 ∧ v ∈ vs.map pageStart then none else r.1.pages c v := by
    induction vs with
    | nil => simp
    | cons w vs ih =>
      intro r
      rw [foldl_cons, ih, unmapNext, unmapFree_pages]
      by_cases hc : c = cr3
      · by_cases hv : v = pageStart w
        · simp [hc, hv]
        · simp [hc, hv]
      · simp [hc]
  exact hfold (k, [])

/-- Pages that are different are freed with the frames that they had before the loop. -/
lemma unmapPages_events {vs : List Nat} (hvs : (vs.map pageStart).Nodup) :
    (k.unmapPages cr3 vs).2 = vs.flatMap (k.freedBy cr3) := by
  have hfold : ∀ (k : Kernel) (events : List Event), (vs.foldl (unmapNext cr3) (k, events)).2 =
        events ++ vs.flatMap (k.freedBy cr3) := by
    induction vs with
    | nil => simp
    | cons w vs ih =>
      intro k events
      obtain ⟨hw, hvs⟩ := nodup_cons.mp hvs
      have hsame : ∀ v ∈ vs, (k.unmapFree cr3 w).freedBy cr3 v = k.freedBy cr3 v := by
        intro v hv
        have hne : pageStart v ≠ pageStart w := fun heq => hw (heq ▸ mem_map_of_mem hv)
        rw [Kernel.freedBy, unmapFree_pages, if_neg fun h => hne h.2, Kernel.freedBy]
      rw [foldl_cons, unmapNext, ih hvs, flatMap_cons, append_assoc, flatMap_congr hsame]
  exact hfold k []

/-- Unmapping frees frames and leaves processes and threads alone. -/
lemma unmapPages_spec (k : Kernel) (cr3 : Nat) (vs : List Nat) :
    (k.unmapPages cr3 vs).1.process = k.process ∧ (k.unmapPages cr3 vs).1.thread = k.thread ∧
      ∀ e ∈ (k.unmapPages cr3 vs).2, ∃ f, e = .freed f := by
  have hfold : ∀ (vs : List Nat) (r : Kernel × List Event), (∀ e ∈ r.2, ∃ f, e = .freed f) →
      (vs.foldl (unmapNext cr3) r).1.process = r.1.process ∧
        (vs.foldl (unmapNext cr3) r).1.thread = r.1.thread ∧
        ∀ e ∈ (vs.foldl (unmapNext cr3) r).2, ∃ f, e = .freed f := by
    intro vs
    induction vs with
    | nil => exact fun r hr => ⟨rfl, rfl, hr⟩
    | cons v vs ih =>
      intro r hr
      have hnew : ∀ e ∈ r.2 ++ r.1.freedBy cr3 v, ∃ f, e = Event.freed f := by
        intro e he
        rcases mem_append.mp he with he | he
        · exact hr e he
        · rw [Kernel.freedBy] at he
          split at he
          · exact ⟨_, mem_singleton.mp he⟩
          · cases he
      obtain ⟨hp, ht, he⟩ := ih (unmapNext cr3 r v) hnew
      exact ⟨hp.trans (unmapFree_process _ _ _), ht.trans (unmapFree_thread _ _ _), he⟩
  exact hfold vs (k, []) (by simp)

lemma freeStack_spec {ptr : Nat} {r : Kernel × List Event}
    (hcall : k.freeStack fuel p ptr = some r) :
    (∀ q, (r.1.process q).threads = (k.process q).threads) ∧ r.1.thread = k.thread ∧
      ∀ e ∈ r.2, ∃ f, e = .freed f := by
  obtain ⟨found, -, rfl⟩ := map_eq_some_iff.mp hcall
  cases found with
  | none => exact ⟨fun _ => rfl, rfl, by simp⟩
  | some i =>
    obtain ⟨hprocess, hthread, hevents⟩ := unmapPages_spec k (k.process p).cr3
      ((k.process p).ustacks.area i).pages
    refine ⟨fun q => ?_, hthread, hevents⟩
    rw [setProcess_process, hprocess]
    split_ifs <;> rfl

/-- Every process with a thread has a pointer to its threads. -/
def ThreadsKnown (k : Kernel) : Prop :=
  ∀ t th, k.thread t = some th → (k.process th.process).threads ≠ none

/-- A thread of such a process is destroyed: the process stays. -/
lemma ThreadsKnown.release (h : ThreadsKnown k)
    (hcall : k.releaseThread fuel t current = some (k', events)) :
    ThreadsKnown k' ∧ ∀ e ∈ events, (∃ f, e = .freed f) ∨ e = .kfree (.kernelStack t) ∨
      e = .kfree (.thread t) := by
  obtain ⟨th, hth, hcall⟩ := bind_eq_some_iff.mp hcall
  have hdone : ∀ r : Kernel × List Event,
      (∀ q, (r.1.process q).threads = (k.process q).threads) → r.1.thread = k.thread →
      (∀ e ∈ r.2, ∃ f, e = Event.freed f) →
      ThreadsKnown { r.1 with thread := update r.1.thread t none } ∧
        ∀ e ∈ Event.kfree (.kernelStack t) :: r.2 ++ [.kfree (.thread t)],
          (∃ f, e = .freed f) ∨ e = .kfree (.kernelStack t) ∨ e = .kfree (.thread t) := by
    intro r hthreads hthread hevents
    refine ⟨fun u w hu => ?_, fun e he => ?_⟩
    · rw [hthread] at hu
      rw [hthreads]
      rcases update_eq_cases hu with ⟨-, hu⟩ | ⟨hut, hu⟩
      · cases hu
      · exact h u w hu
    · simp only [cons_append, mem_cons, mem_append, not_mem_nil, or_false] at he
      rcases he with rfl | he | rfl
      · exact .inr (.inl rfl)
      · exact .inl (hevents e he)
      · exact .inr (.inr rfl)
  split_ifs at hcall with hbottom
  · cases hcall
    exact hdone (k, []) (fun _ => rfl) rfl (by simp)
  · obtain ⟨r, hfree, hcall⟩ := bind_eq_some_iff.mp hcall
    obtain ⟨hthreads, hthread, hevents⟩ := freeStack_spec hfree
    have hsome : (r.1.process th.process).threads ≠ none := by
      rw [hthreads]
      exact h t th hth
    rw [if_neg hsome] at hcall
    cases hcall
    exact hdone r hthreads hthread hevents

lemma createUserThread_threads (hcall : k.createUserThread fuel p t size block = some k') :
    (∀ q, (k'.process q).threads = if q = p then some t else (k.process q).threads) ∧
      ∀ u th, k'.thread u = some th → k.thread u = some th ∨ th.process = p := by
  have halloc : ∀ k : Kernel, ∀ r, k.userAllocStack fuel p size block = some r →
      (∀ q, (r.1.process q).threads = (k.process q).threads) ∧ r.1.thread = k.thread := by
    intro k r hr
    unfold Kernel.userAllocStack at hr
    split_ifs at hr
    · cases hr
      exact ⟨fun _ => rfl, rfl⟩
    · cases block with
      | none =>
        cases hr
        exact ⟨fun _ => rfl, rfl⟩
      | some b =>
        obtain ⟨s', -, rfl⟩ := map_eq_some_iff.mp hr
        refine ⟨fun q => ?_, rfl⟩
        simp only [Kernel.mapPage, Kernel.allocPage, setProcess_process]
        split_ifs <;> rfl
  obtain ⟨r, hr, rfl⟩ := map_eq_some_iff.mp hcall
  obtain ⟨hthreads, hthread⟩ := halloc _ r hr
  have hfirst : ∀ q, (r.1.process q).threads = if q = p then some t else (k.process q).threads := by
    intro q
    rw [hthreads, setProcess_process]
    split_ifs <;> rfl
  cases r.2 with
  | none => exact ⟨hfirst, fun u th hu => .inl (by rw [hthread] at hu; exact hu)⟩
  | some top =>
    refine ⟨hfirst, fun u th hu => ?_⟩
    simp only [Kernel.setThread] at hu
    by_cases hut : u = t
    · rw [hut, update_self] at hu
      cases hu
      exact .inr rfl
    · rw [update_of_ne hut, hthread] at hu
      exact .inl hu

lemma ThreadsKnown.create (h : ThreadsKnown k)
    (hcall : k.createUserThread fuel p t size block = some k') : ThreadsKnown k' := by
  obtain ⟨hthreads, hthread⟩ := createUserThread_threads hcall
  intro u th hu
  rw [hthreads]
  split_ifs with hp
  · exact some_ne_none t
  · exact h u th ((hthread u th hu).resolve_right hp)

/-- What `destroy_thread` does in any state of any run: it frees frames of a stack, the
kernel stack and the thread. No process is ever taken down, also not by its last
thread. -/
theorem process_never_taken_down (run : processMachine.Reached (fun _ _ => True) k)
    (hcall : k.releaseThread fuel t current = some (k', events)) :
    (∀ e ∈ events, (∃ f, e = .freed f) ∨ e = .kfree (.kernelStack t) ∨ e = .kfree (.thread t)) ∧
      ∀ p, ¬ TakenDown k k' p events := by
  have hknown : ThreadsKnown k := by
    refine run.invariant (fun k hstart t th hth => ?_) fun k act k' h _ hstep => ?_
    · rw [hstart t] at hth
      cases hth
    · cases hstep with
      | create hcall => exact h.create hcall
      | destroy hcall => exact (h.release hcall).1
  have hevents := (hknown.release hcall).2
  refine ⟨hevents, fun p hdown => ?_⟩
  have hmem : Event.kfree (.process p) ∈ events := by rw [← one_le_count_iff, hdown.process]
  rcases hevents _ hmem with ⟨f, heq⟩ | heq | heq <;> cases heq

/-! ## The model without events -/

lemma unmapPages_eq (k : Kernel) (cr3 : Nat) (a : VmArea) :
    (k.unmapPages cr3 a.pages).1 = k.unmapArea cr3 a := by
  have hfold : ∀ (js : List Nat) (r : Kernel × List Event), ((js.map (add64 a.lower ·)).foldl
        (unmapNext cr3) r).1 = js.foldl (fun k j => k.unmapFree cr3 (add64 a.lower j)) r.1 := by
    intro js
    induction js with
    | nil => exact fun _ => rfl
    | cons j js ih => exact fun r => ih _
  exact hfold _ (k, [])

/-- For a process with threads it is the function of the other results. -/
lemma releaseThread_destroyThread (h : ThreadsKnown k)
    (hcall : k.releaseThread fuel t current = some (k', events)) :
    k.destroyThread fuel t = some k' := by
  obtain ⟨th, hth, hcall⟩ := bind_eq_some_iff.mp hcall
  rw [Kernel.destroyThread, hth, bind_some]
  split_ifs at hcall ⊢ with hbottom
  · cases hcall
    rfl
  · obtain ⟨r, hfree, hcall⟩ := bind_eq_some_iff.mp hcall
    have hsome : (r.1.process th.process).threads ≠ none := by
      rw [(freeStack_spec hfree).1]
      exact h t th hth
    have hstack : k.userFreeStack fuel th.process th.stackBottom = some r.1 := by
      obtain ⟨found, hfound, rfl⟩ := map_eq_some_iff.mp hfree
      rw [Kernel.userFreeStack, hfound]
      cases found with
      | none => rfl
      | some i =>
        dsimp only
        rw [unmapPages_eq]
        rfl
    rw [if_neg hsome] at hcall
    cases hcall
    rw [hstack, bind_some, if_neg hsome]

/-! ## A process with one thread -/

/-- The only thread of a process is destroyed by the thread that cleans up, which belongs
to no process. -/
lemma oneStack_reached : processMachine.Reached (fun _ _ => True) oneStack :=
  .step (.start fun _ => rfl) (show (fun _ _ => True) stackKernel
    (ProcessAction.create 0 0 8192 (some (1, blankArea))) from trivial) (.create oneStack_eq)

lemma oneStack_release : (oneStack.releaseThread 2 0 none).map Prod.snd =
      some [.kfree (.kernelStack 0), .kfree (.thread 0)] := by decide +kernel

theorem process_never_taken_down_single :
    ∃ k' events, oneStack.releaseThread 2 0 none = some (k', events) ∧
      (∀ e ∈ events, (∃ f, e = .freed f) ∨ e = .kfree (.kernelStack 0) ∨ e = .kfree (.thread 0)) ∧
      ∀ p, ¬ TakenDown oneStack k' p events := by
  obtain ⟨⟨k', events⟩, hcall, -⟩ := map_eq_some_iff.mp oneStack_release
  exact ⟨k', events, hcall, process_never_taken_down oneStack_reached hcall⟩

/-- Not even the stack is released: the process, its page tables and its stack stay. -/
theorem last_thread_leaves_process : ∃ k', processMachine.Reached (fun _ _ => True) oneStack ∧
      oneStack.releaseThread 2 0 none = some (k', [.kfree (.kernelStack 0), .kfree (.thread 0)]) ∧
      ¬ TakenDown oneStack k' 0 [.kfree (.kernelStack 0), .kfree (.thread 0)] := by
  obtain ⟨⟨k', events⟩, hcall, hevents⟩ := map_eq_some_iff.mp oneStack_release
  subst hevents
  refine ⟨k', oneStack_reached, hcall, fun hdown => ?_⟩
  have hcount := hdown.process
  revert hcount
  decide

end DestinX.Vm
