import DestinX.Vm.Mmap
import DestinX.Paging.Vmm
import Mathlib.Data.List.Sort

/-!
# The page fault handler

`page_fault_handler` of `mm/page_fault.c` with the processes, their heaps, mapped areas and user
stacks, the page tables, the page cache and the free pages. With it stand `brk`, `mmap`, `munmap`
and the part of `destroy_thread` that releases the stack.

The page tables are maps from pages to frames, one for each `cr3`. The frames that the tables
themselves take are not part of this model.
-/

namespace DestinX.Vm

open Base Fs Paging Function Option

/-- What a mapped area needs of a `FILE`: its path and the inode behind
`private_data`. -/
structure OpenFile where
  fp : List UInt8
  inode : Inode
  deriving DecidableEq, Repr

/-- The fields of `process_t` that concern its memory. -/
structure Process where
  cr3 : Nat
  threads : Option Nat
  (ustacks mmaps : AreaList)
  fdTable : Nat → Option Nat
  (heapStart currentHeapEnd pagesAlloced : Nat)

/-- The fields of `thread_t` that concern its user stack. -/
structure UserThread where
  (process stackBottom stackTop pageGuardMin pageGuardMax : Nat)
  deriving DecidableEq, Repr

structure Kernel where
  fs : FsState
  totalPages : Nat
  /-- The frame and the flags of a mapped page, by `cr3` and address. -/
  pages : Nat → Nat → Option (Nat × Nat)
  process : Nat → Process
  thread : Nat → Option UserThread
  file : Nat → Option OpenFile

def Kernel.setProcess (k : Kernel) (p : Nat) (f : Process → Process) : Kernel :=
  { k with process := update k.process p (f (k.process p)) }

def Kernel.setThread (k : Kernel) (t : Nat) (th : UserThread) : Kernel :=
  { k with thread := update k.thread t (some th) }

/-- `vmm_map_page` of one 4 KiB page. -/
def Kernel.mapPage (k : Kernel) (cr3 paddr vaddr flags : Nat) : Kernel :=
  { k with pages := fun c v => if c = cr3 ∧ v = vaddr then some (paddr, flags) else k.pages c v }

def Kernel.allocPage (k : Kernel) : Nat × Kernel :=
  let r := pmmAllocPage k.fs
  (r.1, { k with fs := r.2 })

/-! ## Mapped areas -/

def protWrite : Nat := 0x2

/-- The position in the file of the page that the fault is in. -/
def VmArea.position (a : VmArea) (fault : Nat) : Nat :=
  add64 (sub64 (add64 a.filePgoff (pageStart fault)) a.base) a.size

/-- The page is writable by `PROT_WRITE` in `flags`, not in `prot`. -/
def VmArea.pteFlags (a : VmArea) : Nat :=
  if a.flags &&& protWrite = 0 then pteUser else pteUser ||| pteWritable

/-- How a fault ends. A fault that is handled returns, with or without a page mapped. -/
inductive FaultEnd where
  | mapped (page flags : Nat)
  | skipped
  | exits
  | hangs
  deriving DecidableEq, Repr

/-- A private mapping gets a page of its own, which `dfs_read` fills. -/
def Kernel.fillPrivate (k : Kernel) (fuel : Nat) (file : OpenFile) (position : Nat) :
    Option (Nat × Kernel) :=
  let r := k.allocPage
  (dfsRead fuel r.2.fs file.fp (direct r.1) position 4096).map fun s =>
    (r.1, { r.2 with fs := s.1 })

/-- A shared mapping gets a new page from the disk, which is put into the cache. That
an entry for it exists makes no difference: the statement `cache->addr;` has no effect.
After a failed read there is no page. -/
def Kernel.fillShared (k : Kernel) (file : OpenFile) (position : Nat) : Option Nat × Kernel :=
  let r := k.allocPage
  let d := ahciRead r.2.fs (add64 (position / 512) (file.inode.startBlock * 8)) r.1
  if d.2 then
    (some r.1, { r.2 with fs := addPageToCache d.1 file.inode.inodeNum (position / 4096) r.1 0 })
  else (none, { r.2 with fs := pmmFreePage d.1 r.1 })

/-- A fault in the area. -/
def Kernel.areaFault (k : Kernel) (fuel cr3 : Nat) (a : VmArea) (fault : Nat) :
    Option (Kernel × FaultEnd) :=
  let page := pageStart fault
  if a.flags &&& mapAnonymous ≠ 0 then
    let r := k.allocPage
    some (r.2.mapPage cr3 r.1 page a.pteFlags, .mapped page a.pteFlags)
  else if a.flags &&& mapPrivate ≠ 0 then
    (k.file a.file).bind fun file =>
      (k.fillPrivate fuel file (a.position fault)).map fun r =>
        (r.2.mapPage cr3 r.1 page a.pteFlags, .mapped page a.pteFlags)
  else if a.flags &&& mapShared ≠ 0 then
    (k.file a.file).map fun file =>
      match k.fillShared file (a.position fault) with
      | (some paddr, k') => (k'.mapPage cr3 paddr page a.pteFlags, .mapped page a.pteFlags)
      | (none, k') => (k', .skipped)
  else some (k, .skipped)

/-! ## The handler -/

def Kernel.expandStack (k : Kernel) (t : Nat) (th : UserThread) : Kernel :=
  let r := k.allocPage
  (r.2.mapPage (k.process th.process).cr3 r.1 th.pageGuardMin (pteWritable ||| pteUser)).setThread t
    { th with
      pageGuardMax := sub64 th.pageGuardMax 4096
      pageGuardMin := sub64 th.pageGuardMin 4096 }

def Kernel.expandHeap (k : Kernel) (p fault : Nat) : Kernel :=
  let r := k.allocPage
  (r.2.mapPage (k.process p).cr3 r.1 (pageStart fault) (pteWritable ||| pteUser)).setProcess p
    fun pr => { pr with pagesAlloced := add64 pr.pagesAlloced 1 }

/-- `page_fault_handler` for a fault of thread `t`. -/
def Kernel.pageFaultHandler (k : Kernel) (fuel t fault : Nat) : Option (Kernel × FaultEnd) :=
  (k.thread t).bind fun th =>
    let pr := k.process th.process
    if fault < th.pageGuardMax ∧ th.pageGuardMin ≤ fault then
      if th.pageGuardMax ≠ th.stackBottom then
        some (k.expandStack t th, .mapped th.pageGuardMin (pteWritable ||| pteUser))
      else some (k, .exits)
    else if pr.heapStart ≤ fault ∧ fault < pr.currentHeapEnd then
      some (k.expandHeap th.process fault, .mapped (pageStart fault) (pteWritable ||| pteUser))
    else
      (searchArea pr.mmaps (fun a => a.lower ≤ fault ∧ fault < a.base) fuel pr.mmaps.head).bind
        fun found =>
          match found with
          | some i => k.areaFault fuel pr.cr3 (pr.mmaps.area i) fault
          | none => some (k, .hangs)

/-! ## Calls that change the regions -/

/-- `brk` by a thread of process `p`. -/
def Kernel.brk (k : Kernel) (p addr : Nat) : Kernel × Nat :=
  let pr := k.process p
  if addr < pr.heapStart then (k, pr.currentHeapEnd)
  else (k.setProcess p fun pr => { pr with currentHeapEnd := addr }, pr.currentHeapEnd)

def Kernel.mmap (k : Kernel) (fuel p : Nat) (block : Option (Nat × VmArea)) (call : MmapCall) :
    Option (Kernel × Nat) :=
  (Vm.mmap fuel (k.process p).mmaps (k.process p).fdTable block call).map fun r =>
    (k.setProcess p fun pr => { pr with mmaps := r.1 }, r.2)

/-- The free pages after `pmm_free_page`, in ascending order. -/
def freePage (total : Nat) (free : List Nat) (paddr : Nat) : List Nat :=
  if paddr = 0 ∨ total ≤ paddr / 4096 ∨ paddr / 4096 * 4096 ∈ free then free
  else free.orderedInsert (· ≤ ·) (paddr / 4096 * 4096)

/-- `vmm_unmap_page` and `pmm_free_page` for the page of the address. -/
def Kernel.unmapFree (k : Kernel) (cr3 vaddr : Nat) : Kernel :=
  match k.pages cr3 (pageStart vaddr) with
  | none => k
  | some (paddr, _) =>
    { k with
      pages := fun c v => if c = cr3 ∧ v = pageStart vaddr then none else k.pages c v
      fs := { k.fs with free := freePage k.totalPages k.fs.free paddr } }

/-- The values of `j` in `for (int j = 0; j < size; j += PAGE_SIZE_4KB)`.

To leave the range of an `int` is undefined in C. In the whole model a counter that is only added
to an address then goes on, as in the compiled code, where it has 64 bits: every page is visited.
The product that `pmm_alloc_pages` returns has 32 bits in the compiled code and wraps. Functions
in which an `int` counts pages of a file or of a segment have no result. -/
def loopOffsets (size : Nat) : List Nat := (List.range ((size + 4095) / 4096)).map (4096 * ·)

/-- The loop over the pages of an area. -/
def Kernel.unmapArea (k : Kernel) (cr3 : Nat) (a : VmArea) : Kernel :=
  (loopOffsets a.size).foldl (fun k j => k.unmapFree cr3 (add64 a.lower j)) k

def Kernel.munmapByInfo (k : Kernel) (p i : Nat) : Kernel :=
  (k.unmapArea (k.process p).cr3 ((k.process p).mmaps.area i)).setProcess p fun pr =>
    { pr with mmaps := removeFromList pr.mmaps i }

def Kernel.munmap (k : Kernel) (fuel p ptr : Nat) : Option Kernel :=
  (findArea (k.process p).mmaps ptr fuel (k.process p).mmaps.head).map fun found =>
    match found with
    | some i => k.munmapByInfo p i
    | none => k

/-- `user_free_stack` compares the address with the upper end of the areas. -/
def Kernel.userFreeStack (k : Kernel) (fuel p ptr : Nat) : Option Kernel :=
  let pr := k.process p
  (searchArea pr.ustacks (fun a => a.base = ptr) fuel pr.ustacks.head).map fun found =>
    match found with
    | some i =>
      (k.unmapArea pr.cr3 (pr.ustacks.area i)).setProcess p fun pr =>
        { pr with ustacks := removeFromList pr.ustacks i }
    | none => k

/-- The part of `destroy_thread` that concerns user memory. The process stays: its
field `threads` is compared and never assigned, so that it is not null. If it were, the
code that follows would read through `current_thread->process`, which is null for the
thread that cleans up. -/
def Kernel.destroyThread (k : Kernel) (fuel t : Nat) : Option Kernel :=
  (k.thread t).bind fun th =>
    if th.stackBottom = 0 then some { k with thread := update k.thread t none }
    else
      (k.userFreeStack fuel th.process th.stackBottom).bind fun k' =>
        if (k'.process th.process).threads = none then none
        else some { k' with thread := update k'.thread t none }

/-! ## What the handler does -/

variable {k k' : Kernel} {a : VmArea} {e : FaultEnd} {fuel cr3 t p fault : Nat}

lemma mapPage_self (k : Kernel) (cr3 paddr v flags : Nat) :
    (k.mapPage cr3 paddr v flags).pages cr3 v = some (paddr, flags) := if_pos (And.intro rfl rfl)

/-- The three kinds of mapping, and the two ways to return without a page. -/
lemma areaFault_cases (h : k.areaFault fuel cr3 a fault = some (k', e)) :
    (a.flags &&& mapAnonymous ≠ 0 ∧ e = .mapped (pageStart fault) a.pteFlags ∧
        k' = k.allocPage.2.mapPage cr3 k.allocPage.1 (pageStart fault) a.pteFlags) ∨
      (∃ file r, k.file a.file = some file ∧ k.fillPrivate fuel file (a.position fault) = some r ∧
        e = .mapped (pageStart fault) a.pteFlags ∧
        k' = r.2.mapPage cr3 r.1 (pageStart fault) a.pteFlags) ∨
      (∃ file paddr k1, k.file a.file = some file ∧ a.flags &&& mapAnonymous = 0 ∧
        a.flags &&& mapPrivate = 0 ∧ k.fillShared file (a.position fault) = (some paddr, k1) ∧
        e = .mapped (pageStart fault) a.pteFlags ∧
        k' = k1.mapPage cr3 paddr (pageStart fault) a.pteFlags) ∨
      (∃ file, k.file a.file = some file ∧ k.fillShared file (a.position fault) = (none, k') ∧
        e = .skipped) ∨
      (k' = k ∧ e = .skipped) := by
  rw [Kernel.areaFault] at h
  split_ifs at h with hanon hpriv hshared
  · cases h
    exact .inl ⟨hanon, rfl, rfl⟩
  · obtain ⟨file, hfile, h⟩ := bind_eq_some_iff.mp h
    obtain ⟨r, hr, h⟩ := map_eq_some_iff.mp h
    cases h
    exact .inr (.inl ⟨file, r, hfile, hr, rfl, rfl⟩)
  · obtain ⟨file, hfile, h⟩ := map_eq_some_iff.mp h
    cases hfill : k.fillShared file (a.position fault) with
    | mk got k1 =>
      rw [hfill] at h
      cases got with
      | some paddr =>
        cases h
        exact .inr (.inr (.inl ⟨file, paddr, k1, hfile, not_not.mp hanon,
          not_not.mp hpriv, hfill, rfl, rfl⟩))
      | none =>
        cases h
        exact .inr (.inr (.inr (.inl ⟨file, hfile, hfill, rfl⟩)))
  · cases h
    exact .inr (.inr (.inr (.inr ⟨rfl, rfl⟩)))

/-- The stack grows or has no page left, the heap grows, the fault is in an area, or
nobody expects it. -/
lemma pageFaultHandler_cases {th : UserThread} (hth : k.thread t = some th)
    (h : k.pageFaultHandler fuel t fault = some (k', e)) :
    (th.pageGuardMin ≤ fault ∧ fault < th.pageGuardMax ∧ th.pageGuardMax ≠ th.stackBottom ∧
        k' = k.expandStack t th ∧ e = .mapped th.pageGuardMin (pteWritable ||| pteUser)) ∨
      (k' = k ∧ (e = .exits ∨ e = .hangs)) ∨
      ((k.process th.process).heapStart ≤ fault ∧ fault < (k.process th.process).currentHeapEnd ∧
        k' = k.expandHeap th.process fault ∧
        e = .mapped (pageStart fault) (pteWritable ||| pteUser)) ∨
      ∃ i, searchArea (k.process th.process).mmaps (fun a => a.lower ≤ fault ∧ fault < a.base) fuel
          (k.process th.process).mmaps.head = some (some i) ∧
        k.areaFault fuel (k.process th.process).cr3 ((k.process th.process).mmaps.area i) fault =
          some (k', e) := by
  rw [Kernel.pageFaultHandler, hth, bind_some] at h
  dsimp only at h
  split_ifs at h with hguard hbottom hheap
  · cases h
    exact .inl ⟨hguard.2, hguard.1, hbottom, rfl, rfl⟩
  · cases h
    exact .inr (.inl ⟨rfl, .inl rfl⟩)
  · cases h
    exact .inr (.inr (.inl ⟨hheap.1, hheap.2, rfl, rfl⟩))
  · obtain ⟨found, hfound, h⟩ := bind_eq_some_iff.mp h
    cases found with
    | none =>
      cases h
      exact .inr (.inl ⟨rfl, .inr rfl⟩)
    | some i => exact .inr (.inr (.inr ⟨i, hfound, h⟩))

lemma areaFault_frame (h : k.areaFault fuel cr3 a fault = some (k', e)) :
    k'.process = k.process ∧ k'.thread = k.thread ∧ k'.file = k.file ∧
      k'.totalPages = k.totalPages ∧
      (e = .mapped (pageStart fault) a.pteFlags ∨ e = .skipped) := by
  have hshared : ∀ file position got k1, k.fillShared file position = (got, k1) →
      k1.process = k.process ∧ k1.thread = k.thread ∧ k1.file = k.file ∧
        k1.totalPages = k.totalPages := by
    intro file position got k1 hfill
    rw [Kernel.fillShared] at hfill
    split_ifs at hfill with hok
    · obtain ⟨-, rfl⟩ := Prod.mk.inj hfill
      exact ⟨rfl, rfl, rfl, rfl⟩
    · obtain ⟨-, rfl⟩ := Prod.mk.inj hfill
      exact ⟨rfl, rfl, rfl, rfl⟩
  rcases areaFault_cases h with ⟨-, rfl, rfl⟩ | ⟨file, r, -, hfill, rfl, rfl⟩ |
    ⟨file, paddr, k1, -, -, -, hfill, rfl, rfl⟩ | ⟨file, -, hfill, rfl⟩ | ⟨rfl, rfl⟩
  · exact ⟨rfl, rfl, rfl, rfl, .inl rfl⟩
  · obtain ⟨s, -, rfl⟩ := map_eq_some_iff.mp hfill
    exact ⟨rfl, rfl, rfl, rfl, .inl rfl⟩
  · obtain ⟨h1, h2, h3, h4⟩ := hshared _ _ _ _ hfill
    exact ⟨h1, h2, h3, h4, .inl rfl⟩
  · obtain ⟨h1, h2, h3, h4⟩ := hshared _ _ _ _ hfill
    exact ⟨h1, h2, h3, h4, .inr rfl⟩
  · exact ⟨rfl, rfl, rfl, rfl, .inr rfl⟩

/-! ## Unmapping -/

@[simp] lemma unmapFree_process (k : Kernel) (cr3 v : Nat) :
    (k.unmapFree cr3 v).process = k.process := by
  rw [Kernel.unmapFree]
  split <;> rfl

@[simp] lemma unmapFree_thread (k : Kernel) (cr3 v : Nat) :
    (k.unmapFree cr3 v).thread = k.thread := by
  rw [Kernel.unmapFree]
  split <;> rfl

/-- A property that unmapping one page keeps is kept by the loop. -/
lemma unmapArea_induct {P : Kernel → Prop} (hstep : ∀ k v, P k → P (k.unmapFree cr3 v))
    (h : P k) : P (k.unmapArea cr3 a) := by
  rw [Kernel.unmapArea]
  generalize loopOffsets a.size = js
  induction js generalizing k with
  | nil => exact h
  | cons j js ih => exact ih (hstep k _ h)

@[simp] lemma unmapArea_process (k : Kernel) (cr3 : Nat) (a : VmArea) :
    (k.unmapArea cr3 a).process = k.process :=
  unmapArea_induct (P := fun k' => k'.process = k.process)
    (fun k' v h => (unmapFree_process k' cr3 v).trans h) rfl

@[simp] lemma unmapArea_thread (k : Kernel) (cr3 : Nat) (a : VmArea) :
    (k.unmapArea cr3 a).thread = k.thread :=
  unmapArea_induct (P := fun k' => k'.thread = k.thread)
    (fun k' v h => (unmapFree_thread k' cr3 v).trans h) rfl

lemma munmap_mmaps {ptr : Nat} (h : k.munmap fuel p ptr = some k') :
    munmapList fuel (k.process p).mmaps ptr = some (k'.process p).mmaps ∧
      k'.thread = k.thread ∧ (k'.process p).heapStart = (k.process p).heapStart ∧
      (k'.process p).currentHeapEnd = (k.process p).currentHeapEnd := by
  obtain ⟨found, hfound, rfl⟩ := map_eq_some_iff.mp h
  rw [munmapList, hfound]
  cases found with
  | none => exact ⟨rfl, rfl, rfl, rfl⟩
  | some i => simp [Kernel.munmapByInfo, Kernel.setProcess]

end DestinX.Vm
