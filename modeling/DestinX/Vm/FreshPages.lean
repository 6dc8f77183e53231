import DestinX.Vm.UserStacks

/-!
# What a new page shows

Nobody clears the page that `page_fault_handler` maps for the heap, the stack or an anonymous
area, so it shows what the process wrote that had the frame before. This is a statement about
two runs that take the same steps and differ only in the bytes of free frames. They stay alike
exactly as long as every frame that is handed out holds the same bytes in both.
-/

namespace DestinX.Vm

open Base Fs Function List Option Nat

/-- The kernel over another memory. -/
def Kernel.withMem (k : Kernel) (m : Mem) : Kernel := { k with fs := { k.fs with mem := m } }

/-- The address is in the frame, where the kernel sees it. -/
def InFrame (f x : Nat) : Prop := direct f ≤ x ∧ x < direct f + 4096

/-- A byte of a page, as the process sees it. -/
def Kernel.byteAt (k : Kernel) (cr3 page offset : Nat) : Option UInt8 :=
  (k.pages cr3 page).map fun r => k.fs.mem (direct r.1 + offset)

/-- A process stores a byte in a page that is mapped. -/
def Kernel.store (k : Kernel) (cr3 page offset : Nat) (b : UInt8) : Option Kernel :=
  (k.pages cr3 page).map fun r => k.withMem (update k.fs.mem (direct r.1 + offset) b)

/-- The fault is in an area that maps a file. -/
def Kernel.FileFault (k : Kernel) (fuel t fault : Nat) : Prop :=
  ∃ th i, k.thread t = some th ∧
    searchArea (k.process th.process).mmaps (fun a => a.lower ≤ fault ∧ fault < a.base) fuel
      (k.process th.process).mmaps.head = some (some i) ∧
    ((k.process th.process).mmaps.area i).flags &&& mapAnonymous = 0

/-! ## Two runs -/

/-- The calls that take no frame. -/
inductive QuietCall where
  | mmap (p : Nat) (block : Option (Nat × VmArea)) (call : MmapCall)
  | munmap (p ptr : Nat)
  | brk (p addr : Nat)
  | destroy (t : Nat)

def QuietCall.run (fuel : Nat) (k : Kernel) : QuietCall → Option Kernel
  | .mmap p block call => (k.mmap fuel p block call).map Prod.fst
  | .munmap p ptr => k.munmap fuel p ptr
  | .brk p addr => some (k.brk p addr).1
  | .destroy t => k.destroyThread fuel t

/-- What is not modelled here, and reads and writes pages of files or takes frames that it fills:
faults in files, `dfs_read`, `dfs_write`, `dfs_file_sync` and `load_elf`. -/
inductive OtherOp where
  | fileFault | dfsRead | dfsWrite | sync | loadElf

inductive PairAction where
  | fault (t addr : Nat) (e : FaultEnd)
  | stack (p size : Nat) (block : Option (Nat × VmArea)) (top : Option Nat)
  | store (cr3 page offset : Nat) (b : UInt8)
  | quiet (call : QuietCall)
  | other (op : OtherOp)

/-- The kernels are the same except for what free frames hold. -/
structure DifferInFree (s : Kernel × Kernel) : Prop where
  rest : s.2 = s.1.withMem s.2.fs.mem
  mem : ∀ x, (∀ f ∈ s.1.fs.free, ¬ InFrame f x) → s.1.fs.mem x = s.2.fs.mem x

/-- The free frames are pages of the memory, each listed once. -/
structure FreeFrames (k : Kernel) : Prop where
  nodup : k.fs.free.Nodup
  pages : ∀ f ∈ k.fs.free, 4096 ∣ f ∧ f < 2 ^ 64
  total : k.totalPages * 4096 ≤ 2 ^ 64

/-- Both runs take the same step. The operations on files count as long as they keep the runs
alike. -/
inductive PairStep : Kernel × Kernel → PairAction → Kernel × Kernel → Prop
  | fault {k₁ k₂ k₁' k₂' : Kernel} {fuel t addr : Nat} {e e' : FaultEnd}
      (hfile : ¬ k₁.FileFault fuel t addr)
      (hfirst : k₁.pageFaultHandler fuel t addr = some (k₁', e))
      (hsecond : k₂.pageFaultHandler fuel t addr = some (k₂', e')) :
      PairStep (k₁, k₂) (.fault t addr e) (k₁', k₂')
  | stack {k₁ k₂ k₁' k₂' : Kernel} {fuel p size : Nat} {block : Option (Nat × VmArea)}
      {top top' : Option Nat} (hfirst : k₁.userAllocStack fuel p size block = some (k₁', top))
      (hsecond : k₂.userAllocStack fuel p size block = some (k₂', top')) :
      PairStep (k₁, k₂) (.stack p size block top) (k₁', k₂')
  | store {k₁ k₂ k₁' k₂' : Kernel} {cr3 page offset : Nat} {b : UInt8}
      (hfirst : k₁.store cr3 page offset b = some k₁')
      (hsecond : k₂.store cr3 page offset b = some k₂') :
      PairStep (k₁, k₂) (.store cr3 page offset b) (k₁', k₂')
  | quiet {k₁ k₂ k₁' k₂' : Kernel} {fuel : Nat} {call : QuietCall}
      (hfirst : call.run fuel k₁ = some k₁') (hsecond : call.run fuel k₂ = some k₂') :
      PairStep (k₁, k₂) (.quiet call) (k₁', k₂')
  | other {s s' : Kernel × Kernel} {op : OtherOp} (hdiffer : DifferInFree s')
      (hframes : FreeFrames s'.1) : PairStep s (.other op) s'

def pairMachine : Machine (Kernel × Kernel) PairAction where
  start s := DifferInFree s ∧ FreeFrames s.1
  step := PairStep

/-- The frame that the next allocation returns holds the same bytes in both. -/
def SameFrame (s : Kernel × Kernel) : Prop :=
  ∀ f, s.1.fs.free.head? = some f → ∀ x, InFrame f x → s.1.fs.mem x = s.2.fs.mem x

/-- A step that maps a new page gets such a frame for it. -/
def GivesSame (s : Kernel × Kernel) : PairAction → Prop
  | .fault _ _ (.mapped _ _) => SameFrame s
  | .stack _ _ _ (some _) => SameFrame s
  | _ => True

/-- The process sees the same page in both runs. -/
def ShowsSame (s : Kernel × Kernel) (cr3 page : Nat) : Prop :=
  ∀ offset < 4096, s.1.byteAt cr3 page offset = s.2.byteAt cr3 page offset

variable {k k' : Kernel} {s s' : Kernel × Kernel} {m : Mem} {act : PairAction} {e : FaultEnd}
  {th : UserThread} {block : Option (Nat × VmArea)} {call : QuietCall} {a : VmArea}
  {f g x p t fault fuel size cr3 page flags : Nat} {top : Option Nat}

/-! ## The memory is not looked at -/

@[simp] lemma withMem_mem (k : Kernel) (m : Mem) : (k.withMem m).fs.mem = m := rfl

lemma withMem_allocPage (k : Kernel) (m : Mem) :
    (k.withMem m).allocPage = (k.allocPage.1, k.allocPage.2.withMem m) := by
  cases hfree : k.fs.free with
  | nil => simp [Kernel.allocPage, pmmAllocPage, Kernel.withMem, hfree]
  | cons f fs => simp [Kernel.allocPage, pmmAllocPage, Kernel.withMem, hfree]

lemma withMem_expandStack (k : Kernel) (m : Mem) (t : Nat) (th : UserThread) :
    (k.withMem m).expandStack t th = (k.expandStack t th).withMem m := by
  rw [Kernel.expandStack, withMem_allocPage]
  rfl

lemma withMem_expandHeap (k : Kernel) (m : Mem) (p fault : Nat) :
    (k.withMem m).expandHeap p fault = (k.expandHeap p fault).withMem m := by
  rw [Kernel.expandHeap, withMem_allocPage]
  rfl

/-- The handler does the same over any memory, files apart. -/
lemma withMem_pageFaultHandler (hfile : ¬ k.FileFault fuel t fault) (m : Mem) :
    (k.withMem m).pageFaultHandler fuel t fault =
      (k.pageFaultHandler fuel t fault).map fun r => (r.1.withMem m, r.2) := by
  rw [Kernel.pageFaultHandler, Kernel.pageFaultHandler]
  cases hth : k.thread t with
  | none =>
    have hth' : (k.withMem m).thread t = none := hth
    rw [hth']
    rfl
  | some th =>
    have hth' : (k.withMem m).thread t = some th := hth
    rw [hth', bind_some, bind_some]
    dsimp only
    have hprocess : (k.withMem m).process = k.process := rfl
    rw [hprocess]
    split_ifs with hguard hbottom hheap
    · rw [withMem_expandStack]
      rfl
    · rfl
    · rw [withMem_expandHeap]
      rfl
    · cases hfound : searchArea (k.process th.process).mmaps
          (fun a => a.lower ≤ fault ∧ fault < a.base) fuel (k.process th.process).mmaps.head with
      | none => rfl
      | some found =>
        cases found with
        | none => rfl
        | some i =>
          have hanon : ((k.process th.process).mmaps.area i).flags &&& mapAnonymous ≠ 0 :=
            fun hzero => hfile ⟨th, i, hth, hfound, hzero⟩
          simp only [bind_some, Kernel.areaFault, if_pos hanon, withMem_allocPage, map_some]
          rfl

lemma withMem_userAllocStack (k : Kernel) (m : Mem) (fuel p size : Nat)
    (block : Option (Nat × VmArea)) : (k.withMem m).userAllocStack fuel p size block =
      (k.userAllocStack fuel p size block).map fun r => (r.1.withMem m, r.2) := by
  unfold Kernel.userAllocStack
  split_ifs with hzero
  · rfl
  cases block with
  | none => rfl
  | some b =>
    have hset : ∀ s, (k.withMem m).setProcess p (fun pr => { pr with ustacks := s }) =
        (k.setProcess p fun pr => { pr with ustacks := s }).withMem m := fun _ => rfl
    have hprocess : (k.withMem m).process = k.process := rfl
    dsimp only
    rw [hprocess]
    cases addToList userStackMax fuel
        ((k.process p).ustacks.assign b.1 fun _ => { b.2 with size := size }) b.1 with
    | none => rfl
    | some l =>
      simp only [map_some, hset, withMem_allocPage]
      rfl

lemma withMem_unmapFree (k : Kernel) (m : Mem) (cr3 v : Nat) :
    (k.withMem m).unmapFree cr3 v = (k.unmapFree cr3 v).withMem m := by
  have hpages : (k.withMem m).pages = k.pages := rfl
  rw [Kernel.unmapFree, Kernel.unmapFree, hpages]
  cases k.pages cr3 (pageStart v) <;> rfl

lemma withMem_unmapArea (k : Kernel) (m : Mem) (cr3 : Nat) (a : VmArea) :
    (k.withMem m).unmapArea cr3 a = (k.unmapArea cr3 a).withMem m := by
  rw [Kernel.unmapArea, Kernel.unmapArea]
  generalize loopOffsets a.size = js
  induction js generalizing k with
  | nil => rfl
  | cons j js ih =>
    rw [foldl_cons, withMem_unmapFree]
    exact ih _

lemma withMem_userFreeStack (k : Kernel) (m : Mem) (fuel p ptr : Nat) :
    (k.withMem m).userFreeStack fuel p ptr =
      (k.userFreeStack fuel p ptr).map fun k' => k'.withMem m := by
  have hprocess : (k.withMem m).process = k.process := rfl
  simp only [Kernel.userFreeStack, hprocess]
  cases searchArea (k.process p).ustacks (fun a => a.base = ptr) fuel
    (k.process p).ustacks.head with
  | none => rfl
  | some found =>
    cases found with
    | none => rfl
    | some i =>
      simp only [map_some, withMem_unmapArea]
      rfl

lemma withMem_run (call : QuietCall) (fuel : Nat) (k : Kernel) (m : Mem) :
    call.run fuel (k.withMem m) = (call.run fuel k).map fun k' => k'.withMem m := by
  have hprocess : (k.withMem m).process = k.process := rfl
  cases call with
  | mmap p block call =>
    simp only [QuietCall.run, Kernel.mmap, hprocess, Option.map_map]
    rfl
  | munmap p ptr =>
    simp only [QuietCall.run, Kernel.munmap, hprocess]
    cases findArea (k.process p).mmaps ptr fuel (k.process p).mmaps.head with
    | none => rfl
    | some found =>
      cases found with
      | none => rfl
      | some i =>
        simp only [map_some, Kernel.munmapByInfo, hprocess, withMem_unmapArea]
        rfl
  | brk p addr =>
    simp only [QuietCall.run, Kernel.brk, hprocess]
    split_ifs <;> rfl
  | destroy t =>
    simp only [QuietCall.run, Kernel.destroyThread]
    cases hth : k.thread t with
    | none =>
      have hth' : (k.withMem m).thread t = none := hth
      rw [hth']
      rfl
    | some th =>
      have hth' : (k.withMem m).thread t = some th := hth
      rw [hth', bind_some, bind_some, withMem_userFreeStack]
      split_ifs with hbottom
      · rfl
      cases k.userFreeStack fuel th.process th.stackBottom with
      | none => rfl
      | some k1 =>
        have hprocess1 : (k1.withMem m).process = k1.process := rfl
        simp only [map_some, bind_some, hprocess1]
        split_ifs <;> rfl

/-! ## What happens to the free frames -/

/-- Frames are given back, and the memory is not written. -/
structure Returned (k k' : Kernel) : Prop where
  mem : k'.fs.mem = k.fs.mem
  free : ∀ f ∈ k.fs.free, f ∈ k'.fs.free
  frames : FreeFrames k → FreeFrames k'

lemma Returned.refl (k : Kernel) : Returned k k := ⟨rfl, fun _ h => h, fun h => h⟩

lemma Returned.trans {k1 k2 k3 : Kernel} (h : Returned k1 k2) (h' : Returned k2 k3) :
    Returned k1 k3 :=
  ⟨h'.mem.trans h.mem, fun f hf => h'.free f (h.free f hf), fun hk => h'.frames (h.frames hk)⟩

/-- Processes and threads make no difference. -/
lemma Returned.of_fs (hfs : k'.fs = k.fs) (htotal : k'.totalPages = k.totalPages) :
    Returned k k' := by
  refine ⟨by rw [hfs], fun f hf => by rwa [hfs], fun h => ⟨?_, ?_, ?_⟩⟩
  · rw [hfs]
    exact h.nodup
  · rw [hfs]
    exact h.pages
  · rw [htotal]
    exact h.total

lemma unmapFree_returned (k : Kernel) (cr3 v : Nat) : Returned k (k.unmapFree cr3 v) := by
  rw [Kernel.unmapFree]
  cases hpage : k.pages cr3 (pageStart v) with
  | none => exact Returned.refl k
  | some r =>
    refine ⟨rfl, fun f hf => mem_freePage.mpr (.inl hf), fun h => ⟨?_, fun f hf => ?_, h.total⟩⟩
    · dsimp only [freePage]
      split_ifs with hkeep
      · exact h.nodup
      · refine (perm_orderedInsert _ _ _).nodup_iff.mpr ?_
        exact nodup_cons.mpr ⟨fun hmem => hkeep (.inr (.inr hmem)), h.nodup⟩
    · rcases mem_freePage.mp hf with hf | ⟨-, hbound, rfl⟩
      · exact h.pages f hf
      · have htotal := h.total
        exact ⟨dvd_mul_left _ _, by omega⟩

lemma unmapArea_returned (k : Kernel) (cr3 : Nat) (a : VmArea) : Returned k (k.unmapArea cr3 a) :=
  unmapArea_induct (P := Returned k) (fun k' v h => h.trans (unmapFree_returned k' cr3 v))
    (Returned.refl k)

lemma userFreeStack_returned {ptr : Nat} (h : k.userFreeStack fuel p ptr = some k') :
    Returned k k' := by
  obtain ⟨found, -, rfl⟩ := map_eq_some_iff.mp h
  cases found with
  | none => exact Returned.refl k
  | some i => exact (unmapArea_returned k _ _).trans (Returned.of_fs rfl rfl)

lemma run_returned (h : call.run fuel k = some k') : Returned k k' := by
  cases call with
  | mmap p block call =>
    obtain ⟨r, hr, rfl⟩ := map_eq_some_iff.mp h
    obtain ⟨r', -, rfl⟩ := map_eq_some_iff.mp hr
    exact Returned.of_fs rfl rfl
  | munmap p ptr =>
    obtain ⟨found, -, rfl⟩ := map_eq_some_iff.mp h
    cases found with
    | none => exact Returned.refl k
    | some i => exact (unmapArea_returned k _ _).trans (Returned.of_fs rfl rfl)
  | brk p addr =>
    cases h
    rw [Kernel.brk]
    split_ifs
    · exact Returned.refl k
    · exact Returned.of_fs rfl rfl
  | destroy t =>
    obtain ⟨th, hth, h⟩ := bind_eq_some_iff.mp h
    split_ifs at h with hbottom
    · cases h
      exact Returned.of_fs rfl rfl
    · obtain ⟨k1, hfree, h⟩ := bind_eq_some_iff.mp h
      split_ifs at h
      cases h
      exact (userFreeStack_returned hfree).trans (Returned.of_fs rfl rfl)

/-- A frame is taken, if there is one, and mapped as the page. -/
structure Mapped (k k' : Kernel) (cr3 page : Nat) : Prop where
  mem : k'.fs.mem = k.fs.mem
  free : k'.fs.free = k.fs.free.tail
  page : ∃ flags, k'.pages cr3 page = some (k.fs.free.headD 0, flags)
  total : k'.totalPages = k.totalPages

lemma allocPage_eq (k : Kernel) :
    k.allocPage.1 = k.fs.free.headD 0 ∧ k.allocPage.2.fs.free = k.fs.free.tail ∧
      k.allocPage.2.fs.mem = k.fs.mem := by
  simp only [Kernel.allocPage, pmmAllocPage]
  cases hfree : k.fs.free with
  | nil => simp [hfree]
  | cons f fs => simp

/-- Whatever is assigned to processes and threads besides. -/
lemma Mapped.of_fs {flags : Nat} (hfs : k'.fs = k.allocPage.2.fs)
    (hpages : k'.pages = (k.allocPage.2.mapPage cr3 k.allocPage.1 page flags).pages)
    (htotal : k'.totalPages = k.totalPages) : Mapped k k' cr3 page := by
  obtain ⟨hframe, hfree, hmem⟩ := allocPage_eq k
  refine ⟨by rw [hfs, hmem], by rw [hfs, hfree], ⟨flags, ?_⟩, htotal⟩
  rw [hpages, mapPage_self, hframe]

/-- A fault outside of files maps a new page or does nothing. -/
lemma fault_mapped (hth : k.thread t = some th) (hfile : ¬ k.FileFault fuel t fault)
    (h : k.pageFaultHandler fuel t fault = some (k', e)) :
    (k' = k ∧ ∀ page flags, e ≠ .mapped page flags) ∨
      ∃ page flags, e = .mapped page flags ∧ Mapped k k' (k.process th.process).cr3 page := by
  rcases pageFaultHandler_cases hth h with ⟨-, -, -, rfl, rfl⟩ | ⟨rfl, hend⟩ | ⟨-, -, rfl, rfl⟩ |
    ⟨i, hfound, harea⟩
  · exact .inr ⟨_, _, rfl, Mapped.of_fs rfl rfl rfl⟩
  · rcases hend with rfl | rfl
    · exact .inl ⟨rfl, fun _ _ => FaultEnd.noConfusion⟩
    · exact .inl ⟨rfl, fun _ _ => FaultEnd.noConfusion⟩
  · exact .inr ⟨_, _, rfl, Mapped.of_fs rfl rfl rfl⟩
  · have hanon : ((k.process th.process).mmaps.area i).flags &&& mapAnonymous ≠ 0 :=
      fun hzero => hfile ⟨th, i, hth, hfound, hzero⟩
    rw [Kernel.areaFault, if_pos hanon] at harea
    cases harea
    exact .inr ⟨_, _, rfl, Mapped.of_fs rfl rfl rfl⟩

lemma stack_mapped (h : k.userAllocStack fuel p size block = some (k', top)) :
    (k' = k ∧ top = none) ∨ (∃ top', top = some top') ∧ ∃ cr3 page, Mapped k k' cr3 page := by
  unfold Kernel.userAllocStack at h
  by_cases hzero : size = 0
  · rw [if_pos hzero] at h
    cases h
    exact .inl ⟨rfl, rfl⟩
  rw [if_neg hzero] at h
  cases block with
  | none =>
    cases h
    exact .inl ⟨rfl, rfl⟩
  | some b =>
    obtain ⟨l, -, heq⟩ := map_eq_some_iff.mp h
    cases heq
    exact .inr ⟨⟨_, rfl⟩, (k.process p).cr3, _, Mapped.of_fs rfl rfl rfl⟩

/-! ## One step of both runs -/

lemma frames_apart (hf : 4096 ∣ f ∧ f < 2 ^ 64) (hg : 4096 ∣ g ∧ g < 2 ^ 64) (hne : f ≠ g)
    (hx : InFrame f x) : ¬ InFrame g x := by
  obtain ⟨⟨a, rfl⟩, hf⟩ := hf
  obtain ⟨⟨b, rfl⟩, hg⟩ := hg
  simp only [InFrame, direct, add64, directOffset] at hx ⊢
  omega

structure PairKept (s : Kernel × Kernel) : Prop where
  differ : DifferInFree s
  frames : FreeFrames s.1

/-- The runs stay alike exactly when the frame holds the same bytes. -/
lemma PairKept.mapped_iff (h : PairKept s) (hmap : Mapped s.1 k' cr3 page) :
    DifferInFree (k', k'.withMem s.2.fs.mem) ↔ SameFrame s := by
  constructor
  · intro hdiff f hf x hx
    have hlist : s.1.fs.free = f :: s.1.fs.free.tail := by
      rw [← cons_head?_tail hf]
      rfl
    have hnodup := h.frames.nodup
    rw [hlist] at hnodup
    have hpage : ∀ g ∈ s.1.fs.free, 4096 ∣ g ∧ g < 2 ^ 64 := h.frames.pages
    have hout : ∀ g ∈ k'.fs.free, ¬ InFrame g x := by
      intro g hg
      rw [hmap.free] at hg
      have hne : f ≠ g := by
        rintro rfl
        exact (nodup_cons.mp hnodup).1 hg
      exact frames_apart (hpage f (mem_of_mem_head? hf)) (hpage g (mem_of_mem_tail hg)) hne hx
    have hsame := hdiff.mem x hout
    rwa [hmap.mem, withMem_mem] at hsame
  · intro hsame
    refine ⟨rfl, fun x hx => ?_⟩
    rw [hmap.mem]
    by_cases hframe : ∃ f, s.1.fs.free.head? = some f ∧ InFrame f x
    · obtain ⟨f, hf, hx'⟩ := hframe
      exact hsame f hf x hx'
    · refine h.differ.mem x fun f hf hx' => ?_
      cases hfree : s.1.fs.free with
      | nil =>
        rw [hfree] at hf
        cases hf
      | cons g fs =>
        rw [hfree] at hf
        rcases mem_cons.mp hf with rfl | hf
        · exact hframe ⟨f, by rw [hfree]; rfl, hx'⟩
        · have hmem : f ∈ k'.fs.free := by
            rw [hmap.free, hfree]
            exact hf
          exact hx f hmem hx'

/-- And then the process sees the same page. -/
lemma PairKept.shows_iff (h : PairKept s) (hmap : Mapped s.1 k' cr3 page) :
    ShowsSame (k', k'.withMem s.2.fs.mem) cr3 page ↔ SameFrame s := by
  obtain ⟨flags, hpage⟩ := hmap.page
  have hpage' : (k'.withMem s.2.fs.mem).pages cr3 page = some (s.1.fs.free.headD 0, flags) := hpage
  have hshows : ShowsSame (k', k'.withMem s.2.fs.mem) cr3 page ↔ ∀ offset < 4096,
      s.1.fs.mem (direct (s.1.fs.free.headD 0) + offset) =
        s.2.fs.mem (direct (s.1.fs.free.headD 0) + offset) := by
    simp only [ShowsSame, Kernel.byteAt, hpage, hpage', map_some, withMem_mem, hmap.mem, some_inj]
  rw [hshows]
  cases hfree : s.1.fs.free with
  | nil =>
    refine iff_of_true (fun offset _ => h.differ.mem _ fun f hf => ?_) fun f hf => ?_
    · rw [hfree] at hf
      cases hf
    · rw [hfree] at hf
      cases hf
  | cons f fs =>
    rw [SameFrame, hfree]
    constructor
    · intro hsame g hg x hx
      obtain rfl : f = g := some_inj.mp hg
      obtain ⟨hle, hlt⟩ := hx
      have hx := hsame (x - direct f) (by omega)
      rwa [headD_cons, Nat.add_sub_cancel' hle] at hx
    · intro hsame offset hoffset
      exact hsame f rfl _ ⟨le_add_right _ _, Nat.add_lt_add_left hoffset _⟩

lemma FreeFrames.mapped (h : FreeFrames k) (hmap : Mapped k k' cr3 page) : FreeFrames k' := by
  refine ⟨?_, fun f hf => ?_, ?_⟩
  · rw [hmap.free]
    exact h.nodup.tail
  · rw [hmap.free] at hf
    exact h.pages f (mem_of_mem_tail hf)
  · rw [hmap.total]
    exact h.total

section

variable (h : PairKept s)
include h

lemma PairKept.returned (hret : Returned s.1 k') : PairKept (k', k'.withMem s.2.fs.mem) := by
  refine ⟨⟨rfl, fun x hx => ?_⟩, hret.frames h.frames⟩
  rw [hret.mem]
  exact h.differ.mem x fun f hf => hx f (hret.free f hf)

lemma PairKept.store {m1 m2 : Kernel} {offset : Nat} {b : UInt8}
    (hfirst : s.1.store cr3 page offset b = some m1)
    (hsecond : s.2.store cr3 page offset b = some m2) : PairKept (m1, m2) := by
  obtain ⟨r, hr, rfl⟩ := map_eq_some_iff.mp hfirst
  obtain ⟨r', hr', rfl⟩ := map_eq_some_iff.mp hsecond
  have hrest := h.differ.rest
  obtain rfl : r = r' := by
    rw [hrest] at hr'
    exact some_inj.mp (hr.symm.trans hr')
  refine ⟨⟨?_, fun x hx => ?_⟩, ⟨h.frames.nodup, h.frames.pages, h.frames.total⟩⟩
  · rw [hrest]
    rfl
  · rw [withMem_mem, withMem_mem]
    by_cases heq : x = direct r.1 + offset
    · rw [heq, update_self, update_self]
    · rw [update_of_ne heq, update_of_ne heq]
      exact h.differ.mem x hx

/-- What a step does to both: nothing is taken, or a page is mapped in both. -/
lemma PairStep.cases (hstep : PairStep s act s') : (GivesSame s act ∧ PairKept s') ∨
      (∃ cr3 page, Mapped s.1 s'.1 cr3 page ∧ s'.2 = s'.1.withMem s.2.fs.mem) ∧
        (GivesSame s act ↔ SameFrame s) := by
  have hrest := h.differ.rest
  cases hstep with
  | @fault k1 k2 k1' k2' fuel t addr e e' hfile hfirst hsecond =>
    dsimp only at hrest
    rw [hrest, withMem_pageFaultHandler hfile, hfirst] at hsecond
    cases hsecond
    obtain ⟨th, hth, -⟩ := bind_eq_some_iff.mp hfirst
    rcases fault_mapped hth hfile hfirst with ⟨rfl, hend⟩ | ⟨page, flags, rfl, hmap⟩
    · refine .inl ⟨?_, h.returned (Returned.refl _)⟩
      cases e with
      | mapped page flags => exact absurd rfl (hend page flags)
      | _ => trivial
    · exact .inr ⟨⟨_, page, hmap, rfl⟩, Iff.rfl⟩
  | @stack k1 k2 k1' k2' fuel p size block top top' hfirst hsecond =>
    dsimp only at hrest
    rw [hrest, withMem_userAllocStack, hfirst] at hsecond
    cases hsecond
    rcases stack_mapped hfirst with ⟨rfl, rfl⟩ | ⟨⟨top', rfl⟩, cr3, page, hmap⟩
    · exact .inl ⟨trivial, h.returned (Returned.refl _)⟩
    · exact .inr ⟨⟨cr3, page, hmap, rfl⟩, Iff.rfl⟩
  | store hfirst hsecond => exact .inl ⟨trivial, h.store hfirst hsecond⟩
  | @quiet k1 k2 k1' k2' fuel call hfirst hsecond =>
    dsimp only at hrest
    rw [hrest, withMem_run, hfirst] at hsecond
    cases hsecond
    exact .inl ⟨trivial, h.returned (run_returned hfirst)⟩
  | other hdiffer hframes => exact .inl ⟨trivial, hdiffer, hframes⟩

lemma PairStep.kept (hact : GivesSame s act) (hstep : PairStep s act s') : PairKept s' := by
  rcases PairStep.cases h hstep with ⟨-, hkept⟩ | ⟨⟨cr3, page, hmap, hsecond⟩, hiff⟩
  · exact hkept
  · refine ⟨?_, h.frames.mapped hmap⟩
    have hdiff := (h.mapped_iff hmap).mpr (hiff.mp hact)
    rwa [← hsecond] at hdiff

lemma PairStep.differ (hstep : PairStep s act s') (hact : ¬ GivesSame s act) :
    ¬ DifferInFree s' := by
  rcases PairStep.cases h hstep with ⟨hgives, -⟩ | ⟨⟨cr3, page, hmap, hsecond⟩, hiff⟩
  · exact absurd hgives hact
  · intro hdiff
    have hpair : DifferInFree (s'.1, s'.1.withMem s.2.fs.mem) := by
      rw [← hsecond]
      exact hdiff
    exact hact (hiff.mpr ((h.mapped_iff hmap).mp hpair))

end

/-! ## Main result -/

/-- As long as the frames that are handed out hold the same bytes, the two runs differ only in
free frames; the first one that does not ends this. And a page that the fault handler maps
for the stack, the heap or an anonymous area shows the same in both exactly if its frame
does. -/
theorem fresh_pages_reveal_iff (run : pairMachine.Reached GivesSame s) :
    pairMachine.SafeExactlyWhen DifferInFree GivesSame s ∧
      ∀ t th addr page flags s', s.1.thread t = some th →
        PairStep s (.fault t addr (.mapped page flags)) s' →
        (ShowsSame s' (s.1.process th.process).cr3 page ↔ SameFrame s) := by
  refine ⟨run.safeExactlyWhen (fun _ hs => ⟨hs.1, hs.2⟩)
    (fun _ _ _ h hact hstep => hstep.kept h hact)
    (fun _ h => h.differ) fun _ _ _ h hstep hact => hstep.differ h hact, ?_⟩
  have h : PairKept s :=
    run.invariant (fun _ hs => ⟨hs.1, hs.2⟩) fun _ _ _ h hact hstep => PairStep.kept h hact hstep
  intro t th addr page flags s' hth hstep
  have hrest := h.differ.rest
  cases hstep with
  | fault hfile hfirst hsecond =>
    dsimp only at hrest hth
    rw [hrest, withMem_pageFaultHandler hfile, hfirst] at hsecond
    cases hsecond
    rcases fault_mapped hth hfile hfirst with ⟨-, hend⟩ | ⟨page', flags', heq, hmap⟩
    · exact absurd rfl (hend page flags)
    · cases heq
      exact h.shows_iff hmap

/-- Process 0 has a page in an anonymous area, and there are no free frames. -/
def ownerKernel : Kernel :=
  { newKernel with
    totalPages := 3
    pages := fun c v => if c = 0 ∧ v = mmapStart - 4096 then some (8192, 7) else none
    process := fun p =>
      { newProcess with cr3 := p, mmaps := if p = 0 then firstArea 4096 else noAreas.areas }
    thread := fun t => if t ≤ 1 then some { mainThread with process := t } else none }

/-- It has stored a byte there and given the page back. Now these frames are free. -/
def leftBehind (free : List Nat) (b : UInt8) : Kernel :=
  { ownerKernel with
    fs := { emptyFs with free := free, mem := update emptyFs.mem (direct 8192) b }
    pages := fun c v => if c = 0 ∧ v = mmapStart - 4096 then none else ownerKernel.pages c v
    process := update ownerKernel.process 0
      { newProcess with cr3 := 0, mmaps := removeFromList (firstArea 4096) 1 } }

/-- Then the stack of process 1 grows. -/
def stackGrown (free : List Nat) (b : UInt8) : Kernel :=
  (leftBehind free b).expandStack 1 { mainThread with process := 1 }

lemma loopOffsets_page : loopOffsets 4096 = [0] := by decide +kernel

lemma leftBehind_eq (b : UInt8) :
    (ownerKernel.store 0 (mmapStart - 4096) 0 b).bind (·.munmap 2 0 (mmapStart - 4096)) =
      some (leftBehind [8192] b) := by
  have hsize : ((firstArea 4096).area 1).size = 4096 := by decide
  have hlower : ((firstArea 4096).area 1).lower = mmapStart - 4096 := by decide
  have hfound : findArea (firstArea 4096) (mmapStart - 4096) 2 (firstArea 4096).head =
      some (some 1) := by decide
  have hstore : ownerKernel.store 0 (mmapStart - 4096) 0 b =
      some (ownerKernel.withMem (update emptyFs.mem (direct 8192) b)) := rfl
  have hprocess : ∀ m, (ownerKernel.withMem m).process 0 =
      { newProcess with cr3 := 0, mmaps := firstArea 4096 } := fun _ => rfl
  rw [hstore, bind_some, Kernel.munmap, hprocess, hfound, map_some]
  simp only [Kernel.munmapByInfo, Kernel.unmapArea, hprocess, hsize, hlower, loopOffsets_page,
    foldl_cons, foldl_nil]
  rfl

lemma leftBehind_reached {free : List Nat} (hlast : 8192 ∈ free) (hnodup : free.Nodup)
    (hpages : ∀ f ∈ free, 4096 ∣ f ∧ f < 2 ^ 64) (b c : UInt8) :
    pairMachine.Reached GivesSame (leftBehind free b, leftBehind free c) := by
  have htotal : (leftBehind free b).totalPages = 3 := rfl
  refine .start ⟨⟨rfl, fun x hx => ?_⟩, hnodup, hpages, by rw [htotal]; decide⟩
  have hne : x ≠ direct 8192 := by
    rintro rfl
    exact hx 8192 hlast ⟨le_refl _, by omega⟩
  exact (update_of_ne hne _ _).trans (update_of_ne hne _ _).symm

lemma stackGrown_step (free : List Nat) (b c : UInt8) :
    PairStep (leftBehind free b, leftBehind free c)
      (.fault 1 0x7FFFFFFFD000 (.mapped 0x7FFFFFFFD000 6))
      (stackGrown free b, stackGrown free c) := by
  have hfile : ¬ (leftBehind free b).FileFault 1 1 0x7FFFFFFFD000 := by
    rintro ⟨th, i, hth, hfound, -⟩
    cases hth
    cases hfound
  have hcall : ∀ b, (leftBehind free b).pageFaultHandler 1 1 0x7FFFFFFFD000 =
      some (stackGrown free b, .mapped 0x7FFFFFFFD000 6) := fun _ => rfl
  exact .fault hfile (hcall b) (hcall c)

/-- The page shows the byte that process 0 has stored. -/
lemma stackGrown_byte (b : UInt8) : (stackGrown [8192] b).byteAt 1 0x7FFFFFFFD000 0 = some b := by
  have hpage : (stackGrown [8192] b).pages 1 0x7FFFFFFFD000 = some (8192, 6) := rfl
  have hmem : (stackGrown [8192] b).fs.mem = update emptyFs.mem (direct 8192) b := rfl
  rw [Kernel.byteAt, hpage, map_some, hmem, add_zero, update_self]

/-- Two runs in which process 0 has stored 7 and 9, and another frame is handed out first. -/
theorem fresh_pages_reveal_same :
    pairMachine.SafeExactlyWhen DifferInFree GivesSame
        (leftBehind [4096, 8192] 7, leftBehind [4096, 8192] 9) ∧
      ShowsSame (stackGrown [4096, 8192] 7, stackGrown [4096, 8192] 9) 1 0x7FFFFFFFD000 := by
  have run := leftBehind_reached (by decide : 8192 ∈ [4096, 8192]) (by decide) (by decide) 7 9
  obtain ⟨hsafe, hshows⟩ := fresh_pages_reveal_iff run
  refine ⟨hsafe, (hshows 1 _ _ _ _ _ rfl (stackGrown_step _ 7 9)).mpr fun f hf x hx => ?_⟩
  have hne : x ≠ direct 8192 := by
    rintro rfl
    cases hf
    exact absurd hx (by simp only [InFrame]; decide)
  exact (update_of_ne hne _ _).trans (update_of_ne hne _ _).symm

/-- Process 0 stores 7 in one run and 9 in the other and unmaps the page. Then the stack of
process 1 grows, and process 1 reads that byte. -/
theorem fresh_page_shows_old_byte :
    (ownerKernel.store 0 (mmapStart - 4096) 0 7).bind (·.munmap 2 0 (mmapStart - 4096)) =
        some (leftBehind [8192] 7) ∧
      (ownerKernel.store 0 (mmapStart - 4096) 0 9).bind (·.munmap 2 0 (mmapStart - 4096)) =
        some (leftBehind [8192] 9) ∧
      pairMachine.Reached GivesSame (leftBehind [8192] 7, leftBehind [8192] 9) ∧
      PairStep (leftBehind [8192] 7, leftBehind [8192] 9)
        (.fault 1 0x7FFFFFFFD000 (.mapped 0x7FFFFFFFD000 6))
        (stackGrown [8192] 7, stackGrown [8192] 9) ∧
      (stackGrown [8192] 7).byteAt 1 0x7FFFFFFFD000 0 = some 7 ∧
      (stackGrown [8192] 9).byteAt 1 0x7FFFFFFFD000 0 = some 9 ∧
      ¬ ShowsSame (stackGrown [8192] 7, stackGrown [8192] 9) 1 0x7FFFFFFFD000 := by
  refine ⟨leftBehind_eq 7, leftBehind_eq 9,
    leftBehind_reached (by decide) (by decide) (by decide) 7 9, stackGrown_step [8192] 7 9,
    stackGrown_byte 7, stackGrown_byte 9, fun hsame => ?_⟩
  have hbyte := hsame 0 (by decide)
  exact absurd hbyte (by decide)

end DestinX.Vm
