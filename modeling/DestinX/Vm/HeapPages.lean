import DestinX.Fs.Transfer
import DestinX.Vm.Teardown

/-!
# Heap pages

The handler maps the heap page that a program touches and counts it in `pages_alloced`. The
release loop of `destroy_thread` goes over so many pages from `heap_start` on. The two agree as
long as the pages are touched in ascending order.
-/

namespace DestinX.Vm

open Base Fs Paging Function List Nat

/-- A kernel, and the pages that faults in the heap of the process have mapped. -/
structure HeapRun extends Kernel where
  heap : List Nat

inductive HeapAction where
  | brk (addr : Nat)
  | fault (t va : Nat)

/-- The address is in the guard page of the thread, which the handler looks at first. -/
abbrev UserThread.Guards (th : UserThread) (va : Nat) : Prop :=
  va < th.pageGuardMax ∧ th.pageGuardMin ≤ va

/-- Calls of `brk`, and faults of threads of process `p` inside the heap. There are faults only
where nothing is mapped. -/
inductive HeapStep (p : Nat) (s : HeapRun) : HeapAction → HeapRun → Prop
  | brk {addr : Nat} : HeapStep p s (.brk addr) ⟨(s.brk p addr).1, s.heap⟩
  | fault {t va fuel : Nat} {th : UserThread} {k' : Kernel} {e : FaultEnd}
      (hth : s.thread t = some th) (hp : th.process = p)
      (hlow : (s.process p).heapStart ≤ va)
      (hhigh : va < (s.process p).currentHeapEnd)
      (hnone : s.pages (s.process p).cr3 (pageStart va) = none)
      (hcall : s.pageFaultHandler fuel t va = some (k', e)) :
      HeapStep p s (.fault t va) ⟨k', if th.Guards va then s.heap else pageStart va :: s.heap⟩

/-- A new process: `heap_start` is a page of the user half, and no page is counted. -/
def heapMachine (p : Nat) : Machine HeapRun HeapAction where
  start s := s.heap = [] ∧ (s.process p).pagesAlloced = 0 ∧ 4096 ∣ (s.process p).heapStart ∧
    (s.process p).heapStart < userEnd
  step := HeapStep p

/-- The page with number `i` of the heap. -/
def Process.heapPage (pr : Process) (i : Nat) : Nat := pr.heapStart + 4096 * i

/-- The mapped heap pages are those that are counted. -/
structure HeapCounted (p : Nat) (s : HeapRun) : Prop where
  pages : ∀ v, v ∈ s.heap ↔ ∃ i < (s.process p).pagesAlloced, v = (s.process p).heapPage i
  mapped : ∀ v ∈ s.heap, s.pages (s.process p).cr3 v ≠ none

/-- The release loop unmaps all heap pages and frees the frame of each once. -/
structure HeapExact (p : Nat) (s : HeapRun) : Prop extends HeapCounted p s where
  frees : (s.freeHeap p).2 = (List.range (s.process p).pagesAlloced).flatMap fun i =>
    s.freedBy (s.process p).cr3 ((s.process p).heapPage i)
  unmaps : ∀ v ∈ s.heap, (s.freeHeap p).1.pages (s.process p).cr3 v = none

/-- A heap fault is in the page behind the last one. -/
def InOrder (p : Nat) (s : HeapRun) : HeapAction → Prop
  | .brk _ => True
  | .fault t va => ∀ th, s.thread t = some th → ¬ th.Guards va →
      pageStart va = (s.process p).heapPage (s.process p).pagesAlloced

/-- What holds in order. -/
structure HeapKept (p : Nat) (s : HeapRun) : Prop extends HeapCounted p s where
  aligned : 4096 ∣ (s.process p).heapStart
  fits : (s.process p).heapPage (s.process p).pagesAlloced ≤ 2 ^ 64

variable {k : Kernel} {s s' : HeapRun} {act : HeapAction} {p i v : Nat}

/-! ## The release loop -/

lemma HeapKept.exact (h : HeapKept p s) : HeapExact p s := by
  have haligned := h.aligned
  have hfits := h.fits
  rw [Process.heapPage] at hfits
  have hloop : s.freeHeap p = s.unmapPages (s.process p).cr3
      ((List.range (s.process p).pagesAlloced).map (s.process p).heapPage) := by
    rw [Kernel.freeHeap]
    refine congrArg _ (map_congr_left fun i hi => ?_)
    have hi := mem_range.mp hi
    rw [add64, Process.heapPage]
    omega
  have hmap : ((List.range (s.process p).pagesAlloced).map (s.process p).heapPage).map pageStart =
      (List.range (s.process p).pagesAlloced).map (s.process p).heapPage := by
    rw [map_map]
    refine map_congr_left fun i hi => ?_
    have hi := mem_range.mp hi
    rw [comp_apply, Process.heapPage, pageStart_eq (by omega)]
    omega
  refine ⟨h.toHeapCounted, ?_, fun v hv => ?_⟩
  · rw [hloop, unmapPages_events, flatMap_map]
    rw [hmap]
    refine nodup_range.map fun i j hij => ?_
    simp only [Process.heapPage] at hij
    omega
  · obtain ⟨i, hi, rfl⟩ := (h.pages v).mp hv
    rw [hloop, unmapPages_pages, hmap, if_pos ⟨rfl, mem_map_of_mem (mem_range.mpr hi)⟩]

/-! ## Faults -/

/-- A fault in the heap outside of the guard. -/
lemma heapFault_eq {t va fuel : Nat} {th : UserThread} {e : FaultEnd} {k' : Kernel}
    (hth : k.thread t = some th) (hp : th.process = p) (hlow : (k.process p).heapStart ≤ va)
    (hhigh : va < (k.process p).currentHeapEnd) (hguard : ¬ th.Guards va)
    (hcall : k.pageFaultHandler fuel t va = some (k', e)) : k' = k.expandHeap p va := by
  rw [Kernel.pageFaultHandler, hth, Option.bind_some] at hcall
  rw [hp, if_neg hguard, if_pos ⟨hlow, hhigh⟩] at hcall
  cases hcall
  rfl

lemma expandHeap_process (hfits : (k.process p).heapPage (k.process p).pagesAlloced ≤ 2 ^ 64)
    (va : Nat) :
    (k.expandHeap p va).process p =
      { k.process p with pagesAlloced := (k.process p).pagesAlloced + 1 } := by
  rw [Process.heapPage] at hfits
  have hnext : add64 (k.process p).pagesAlloced 1 = (k.process p).pagesAlloced + 1 :=
    mod_eq_of_lt (by omega)
  rw [← hnext]
  exact update_self ..

lemma expandHeap_pages (k : Kernel) (p va c v : Nat) : (k.expandHeap p va).pages c v =
    if c = (k.process p).cr3 ∧ v = pageStart va then
      some ((pmmAllocPage k.fs).1, pteWritable ||| pteUser) else k.pages c v := rfl

/-- A guard fault changes nothing of the heap. -/
lemma HeapKept.guarded {t va fuel : Nat} {th : UserThread} {e : FaultEnd} {k' : Kernel}
    (h : HeapKept p s) (hth : s.thread t = some th) (hguard : th.Guards va)
    (hcall : s.pageFaultHandler fuel t va = some (k', e)) : HeapKept p ⟨k', s.heap⟩ := by
  rw [Kernel.pageFaultHandler, hth, Option.bind_some] at hcall
  rw [if_pos hguard] at hcall
  split_ifs at hcall
  · cases hcall
    refine ⟨⟨h.pages, fun v hv hnone => h.mapped v hv ?_⟩, h.aligned, h.fits⟩
    change (if _ ∧ _ then _ else s.pages (s.process p).cr3 v) = none at hnone
    split_ifs at hnone
    exact hnone
  · cases hcall
    exact h

lemma HeapKept.fault {va : Nat} (h : HeapKept p s)
    (hpage : pageStart va = (s.process p).heapPage (s.process p).pagesAlloced) :
    HeapKept p ⟨s.expandHeap p va, pageStart va :: s.heap⟩ := by
  have hprocess := expandHeap_process h.fits va
  refine ⟨⟨fun v => ?_, fun v hv => ?_⟩, ?_, ?_⟩
  · rw [hprocess, mem_cons, h.pages, hpage]
    constructor
    · rintro (rfl | ⟨i, hi, rfl⟩)
      · exact ⟨_, lt_succ_self _, rfl⟩
      · exact ⟨i, hi.trans (lt_succ_self _), rfl⟩
    · rintro ⟨i, hi, rfl⟩
      rcases Nat.lt_succ_iff_lt_or_eq.mp hi with hi | rfl
      · exact .inr ⟨i, hi, rfl⟩
      · exact .inl rfl
  · rw [hprocess, expandHeap_pages]
    split_ifs with hat
    · exact Option.some_ne_none _
    · rcases mem_cons.mp hv with rfl | hv
      · exact absurd ⟨rfl, rfl⟩ hat
      · exact h.mapped v hv
  · rw [hprocess]
    exact h.aligned
  · -- the last page begins at a multiple of 4096 below the end of the addresses
    have hlast : pageStart va ≤ 0xFFFFFFFFFFFFF000 := Nat.and_le_right
    rw [hpage, Process.heapPage] at hlast
    rw [hprocess]
    simp only [Process.heapPage]
    omega

lemma HeapKept.step (h : HeapKept p s) (hgood : InOrder p s act) (hstep : HeapStep p s act s') :
    HeapKept p s' := by
  cases hstep with
  | brk =>
    rw [Kernel.brk]
    split_ifs
    · exact h
    · have hprocess : ∀ f, (s.setProcess p f).process p = f (s.process p) := fun f => update_self ..
      refine ⟨⟨?_, ?_⟩, ?_, ?_⟩ <;> rw [hprocess]
      exacts [h.pages, h.mapped, h.aligned, h.fits]
  | @fault t va fuel th k' e hth hp hlow hhigh hnone hcall =>
    by_cases hguard : th.Guards va
    · rw [if_pos hguard]
      exact h.guarded hth hguard hcall
    · rw [if_neg hguard, heapFault_eq hth hp hlow hhigh hguard hcall]
      exact h.fault (hgood th hth hguard)

/-- A page out of order is not among those that are counted. -/
lemma HeapKept.not_exact (h : HeapKept p s) (hstep : HeapStep p s act s')
    (hbad : ¬ InOrder p s act) : ¬ HeapExact p s' := by
  cases hstep with
  | brk => exact absurd trivial hbad
  | @fault t va fuel th k' e hth hp hlow hhigh hnone hcall =>
    simp only [InOrder, not_forall] at hbad
    obtain ⟨th', hth', hguard, hbad⟩ := hbad
    cases hth.symm.trans hth'
    rw [if_neg hguard, heapFault_eq hth hp hlow hhigh hguard hcall]
    intro hexact
    obtain ⟨i, hi, heq⟩ := (hexact.pages (pageStart va)).mp mem_cons_self
    rw [expandHeap_process h.fits va] at hi heq
    rcases Nat.lt_succ_iff_lt_or_eq.mp hi with hi | rfl
    · exact h.mapped _ ((h.pages _).mpr ⟨i, hi, heq⟩) hnone
    · exact hbad heq

/-- A process with one thread, and two free frames. -/
def heapKernel : Kernel := { newKernel with fs := stackKernel.fs, totalPages := 3 }

/-- The program asks for two pages. -/
def twoHeapPages : HeapRun := ⟨(heapKernel.brk 0 0x602000).1, []⟩

lemma twoHeapPages_reached : (heapMachine 0).Reached (InOrder 0) twoHeapPages :=
  .step (.start ⟨rfl, rfl, by decide, by decide⟩) (show InOrder 0 ⟨heapKernel, []⟩ (.brk 0x602000)
    from trivial) .brk

end DestinX.Vm
