import DestinX.Vm.PageFault
import DestinX.Pmm.FreeList

/-!
# Frames of the page cache and free frames

A frame in the page cache must not be free. Loading a page keeps that, also when the disk fails
or memory is exhausted. Unmapping does not: `munmap` and `user_free_stack` free every frame that
they find mapped, and a fault in a shared area has mapped a frame of the cache.
-/

namespace DestinX.Vm

open Base Fs Function List Option Prod Nat

/-- Frames are whole pages. Those in the cache are not free. -/
structure FramesKept (total : Nat) (st : FsState) : Prop where
  positive : 0 < total
  ascending : st.free.Pairwise (· < ·)
  free : ∀ f ∈ st.free, 0 < f ∧ 4096 ∣ f ∧ f / 4096 < total
  cached : ∀ c ∈ st.cache, c.addr ∉ st.free ∧ 4096 ∣ c.addr ∧ c.addr / 4096 < total

variable {total : Nat} {st st' : FsState} {inode : Inode} {mode : Mode} {fp : List UInt8}
  {f i first flags buffer offset size fuel n : Nat}

/-! ## Loading pages -/

section

variable (h : FramesKept total st)
include h

/-- The allocated frame was the first free one, or there was none and it is 0. -/
lemma FramesKept.alloc :
    FramesKept total (pmmAllocPage st).2 ∧ (pmmAllocPage st).2.cache = st.cache ∧
      4096 ∣ (pmmAllocPage st).1 ∧ (pmmAllocPage st).1 / 4096 < total ∧
      (∀ g ∈ (pmmAllocPage st).2.free, (pmmAllocPage st).1 < g) ∧
      ((pmmAllocPage st).1 ≠ 0 → ∀ c ∈ st.cache, c.addr ≠ (pmmAllocPage st).1) := by
  cases hfree : st.free with
  | nil =>
    have heq : pmmAllocPage st = (0, st) := by rw [pmmAllocPage, hfree]
    rw [heq]
    refine ⟨h, rfl, dvd_zero _, by simpa using h.positive, ?_, fun hne => absurd rfl hne⟩
    rw [hfree]
    simp
  | cons f free =>
    have heq : pmmAllocPage st = (f, { st with free := free }) := by rw [pmmAllocPage, hfree]
    rw [heq]
    have hasc := h.ascending
    rw [hfree] at hasc
    obtain ⟨hlt, hasc⟩ := pairwise_cons.mp hasc
    have hsub : ∀ g ∈ free, g ∈ st.free := fun g hg => hfree ▸ mem_cons_of_mem f hg
    have hf := h.free f (hfree ▸ mem_cons_self)
    refine ⟨⟨h.positive, hasc, fun g hg => h.free g (hsub g hg), fun c hc => ?_⟩, rfl, hf.2.1,
      hf.2.2, hlt, fun _ c hc heq => ?_⟩
    · obtain ⟨hc1, hc2⟩ := h.cached c hc
      exact ⟨fun hm => hc1 (hsub _ hm), hc2⟩
    · exact (h.cached c hc).1 (hfree ▸ heq ▸ mem_cons_self)

lemma FramesKept.congr (hfree : st'.free = st.free)
    (hcache : ∀ c ∈ st'.cache, ∃ c' ∈ st.cache, c'.addr = c.addr) : FramesKept total st' := by
  refine ⟨h.positive, hfree ▸ h.ascending, hfree ▸ h.free, fun c hc => ?_⟩
  obtain ⟨c', hc', haddr⟩ := hcache c hc
  rw [hfree, ← haddr]
  exact h.cached c' hc'

/-- One page is read into a new frame: afterwards the frame is in the cache, or it is
free again. -/
lemma FramesKept.read (lba id k flags : Nat) : FramesKept total
        (addPageToCache (ahciRead (pmmAllocPage st).2 lba (pmmAllocPage st).1).1 id k
          (pmmAllocPage st).1 flags) ∧
      FramesKept total (pmmFreePage (ahciRead (pmmAllocPage st).2 lba (pmmAllocPage st).1).1
          (pmmAllocPage st).1) := by
  obtain ⟨h1, hcache, hdvd, hlt, hbelow, hnew⟩ := h.alloc
  obtain ⟨hcache', hfree', -⟩ := ahciRead_frame (pmmAllocPage st).2 lba (pmmAllocPage st).1
  have h2 : FramesKept total (ahciRead (pmmAllocPage st).2 lba (pmmAllocPage st).1).1 :=
    h1.congr hfree' fun c hc => ⟨c, hcache' ▸ hc, rfl⟩
  have hnot : (pmmAllocPage st).1 ∉ (pmmAllocPage st).2.free := fun hm =>
    lt_irrefl _ (hbelow _ hm)
  constructor
  · refine ⟨h.positive, h2.ascending, h2.free, fun c hc => ?_⟩
    rcases mem_cons.mp hc with rfl | hc
    · refine ⟨?_, hdvd, hlt⟩
      change (pmmAllocPage st).1 ∉ (ahciRead (pmmAllocPage st).2 lba (pmmAllocPage st).1).1.free
      rw [hfree']
      exact hnot
    · exact h2.cached c hc
  · rw [Fs.pmmFreePage]
    split_ifs with hzero
    · exact h2
    · refine ⟨h.positive, pairwise_cons.mpr ⟨fun g hg => ?_, h2.ascending⟩, fun g hg => ?_,
        fun c hc => ?_⟩
      · exact hbelow g (hfree' ▸ hg)
      · rcases mem_cons.mp hg with rfl | hg
        · exact ⟨pos_of_ne_zero hzero, hdvd, hlt⟩
        · exact h2.free g hg
      · obtain ⟨hc1, hc2⟩ := h2.cached c hc
        refine ⟨fun hm => ?_, hc2⟩
        rcases mem_cons.mp hm with heq | hm
        · exact hnew hzero c (hcache ▸ hcache' ▸ hc) heq
        · exact hc1 hm

lemma FramesKept.loadPage (inode : Inode) (first flags i : Nat) :
    (∀ st', Fs.loadPage inode first flags i st = .ok st' → FramesKept total st') ∧
      ∀ st', Fs.loadPage inode first flags i st = .error st' → FramesKept total st' := by
  have hread := h.read (add64 ((first + i) * 8) (inode.startBlock * 8)) inode.inodeNum (first + i)
    flags
  rw [Fs.loadPage]
  split_ifs with hok
  · refine ⟨fun st' heq => ?_, fun st' heq => (by cases heq)⟩
    cases heq
    exact hread.1
  · refine ⟨fun st' heq => (by cases heq), fun st' heq => ?_⟩
    cases heq
    exact hread.2

lemma FramesKept.loadPages {pages : Nat → Nat} {is : List Nat} :
    (∀ st', Fs.loadPages inode first flags pages is st = .ok st' → FramesKept total st') ∧
      ∀ st', Fs.loadPages inode first flags pages is st = .error st' → FramesKept total st' := by
  induction is generalizing st with
  | nil =>
    refine ⟨fun st' heq => ?_, fun st' heq => (by cases heq)⟩
    cases heq
    exact h
  | cons i is ih =>
    simp only [Fs.loadPages, foldlM_cons] at ih ⊢
    by_cases hp : pages i = 0
    · rw [if_pos hp]
      cases hload : Fs.loadPage inode first flags i st with
      | ok st1 => exact ih ((h.loadPage inode first flags i).1 st1 hload)
      | error st1 =>
        refine ⟨fun st' heq => (by cases heq), fun st' heq => ?_⟩
        cases heq
        exact (h.loadPage inode first flags i).2 st1 hload
    · rw [if_neg hp]
      exact ih h

end

/-! ## `dfs_read` and `dfs_write` -/

lemma markDirty_addr {id k : Nat} {cache : List CachePage} {c : CachePage}
    (hc : c ∈ markDirty id k cache) : ∃ c' ∈ cache, c'.addr = c.addr := by
  induction cache with
  | nil => cases hc
  | cons d cache ih =>
    rw [markDirty] at hc
    split_ifs at hc
    · rcases mem_cons.mp hc with rfl | hc
      · exact ⟨d, mem_cons_self, rfl⟩
      · exact ⟨c, mem_cons_of_mem d hc, rfl⟩
    · rcases mem_cons.mp hc with rfl | hc
      · exact ⟨c, mem_cons_self, rfl⟩
      · obtain ⟨c', hc', haddr⟩ := ih hc
        exact ⟨c', mem_cons_of_mem d hc', haddr⟩

lemma mark_addr {id first count : Nat} {cache : List CachePage} {c : CachePage}
    (hc : c ∈ mode.mark id first count cache) : ∃ c' ∈ cache, c'.addr = c.addr := by
  rw [Mode.mark] at hc
  split_ifs at hc
  · generalize List.range count = is at hc
    induction is generalizing cache with
    | nil => exact ⟨c, hc, rfl⟩
    | cons i is ih =>
      obtain ⟨c', hc', haddr⟩ := ih hc
      obtain ⟨c'', hc'', haddr'⟩ := markDirty_addr hc'
      exact ⟨c'', hc'', haddr'.trans haddr⟩
  · exact ⟨c, hc, rfl⟩

lemma FramesKept.mark (h : FramesKept total st) (mode : Mode) (id first count : Nat) (m : Mem) :
    FramesKept total { st with cache := mode.mark id first count st.cache, mem := m } :=
  h.congr rfl fun _ hc => mark_addr hc

/-- Whatever a call does, the frames in the cache are not free afterwards. -/
lemma FramesKept.transfer (h : FramesKept total st)
    (hcall : Fs.transfer mode fuel st fp buffer offset size = some (st', n)) :
    FramesKept total st' := by
  induction fuel generalizing st size with
  | zero => cases hcall
  | succ fuel ih =>
    obtain ⟨⟨rfl, -⟩, -⟩ | ⟨inode, -, -, -, -, hcases⟩ := transfer_ended hcall
    · exact h
    have hkept := h.mark mode inode.inodeNum (pageStart offset / 4096) (pageCount offset size)
    rcases hcases with ⟨-, hhit⟩ | ⟨-, ⟨-, herror⟩ | ⟨st1, hok, hagain⟩⟩
    · obtain ⟨-, m, rfl⟩ := hit_same hhit
      exact hkept m
    · exact (hkept st.mem).loadPages.2 _ herror
    · exact ih ((hkept st.mem).loadPages.1 _ hok) hagain

/-! ## Faults -/

/-- The frames of the kernel, where mapped frames are whole pages as well. -/
structure KernelFrames (k : Kernel) : Prop where
  kept : FramesKept k.totalPages k.fs
  mapped : ∀ cr3 v e, k.pages cr3 v = some e → 4096 ∣ e.1

variable {k k' : Kernel} {e : FaultEnd} {cr3 t p v va paddr : Nat} {th : UserThread} {a : VmArea}

section

variable (h : KernelFrames k)
include h

lemma KernelFrames.withFs {fs : FsState} (hfs : FramesKept k.totalPages fs) :
    KernelFrames { k with fs := fs } :=
  ⟨hfs, h.mapped⟩

lemma KernelFrames.mapPage (hdvd : 4096 ∣ paddr) (cr3 v flags : Nat) :
    KernelFrames (k.mapPage cr3 paddr v flags) := by
  refine ⟨h.kept, fun c w e he => ?_⟩
  simp only [Kernel.mapPage] at he
  split_ifs at he with hcv
  · cases he
    exact hdvd
  · exact h.mapped c w e he

lemma KernelFrames.allocPage : KernelFrames k.allocPage.2 ∧ 4096 ∣ k.allocPage.1 := by
  obtain ⟨hkept, -, hdvd, -⟩ := h.kept.alloc
  exact ⟨h.withFs hkept, hdvd⟩

lemma KernelFrames.fillPrivate {file : OpenFile} {position : Nat} {r : Nat × Kernel}
    (hfill : k.fillPrivate fuel file position = some r) : KernelFrames r.2 ∧ 4096 ∣ r.1 := by
  obtain ⟨s, hread, rfl⟩ := map_eq_some_iff.mp hfill
  obtain ⟨h1, hdvd⟩ := h.allocPage
  exact ⟨h1.withFs (h1.kept.transfer hread), hdvd⟩

lemma KernelFrames.fillShared {file : OpenFile} {position : Nat} {got : Option Nat}
    (hfill : k.fillShared file position = (got, k')) :
    KernelFrames k' ∧ ∀ f, got = some f → 4096 ∣ f := by
  obtain ⟨-, -, hdvd, -⟩ := h.kept.alloc
  have hread := h.kept.read (add64 (position / 512) (file.inode.startBlock * 8))
    file.inode.inodeNum (position / 4096) 0
  rw [Kernel.fillShared] at hfill
  split_ifs at hfill with hok
  · cases hfill
    refine ⟨⟨hread.1, h.mapped⟩, fun f hf => ?_⟩
    cases hf
    exact hdvd
  · cases hfill
    exact ⟨⟨hread.2, h.mapped⟩, fun f hf => by cases hf⟩

lemma KernelFrames.areaFault (hcall : k.areaFault fuel cr3 a va = some (k', e)) :
    KernelFrames k' := by
  rcases areaFault_cases hcall with ⟨-, -, rfl⟩ | ⟨file, r, -, hfill, -, rfl⟩ |
    ⟨file, paddr, k1, -, -, -, hfill, -, rfl⟩ | ⟨file, -, hfill, -⟩ | ⟨rfl, -⟩
  · exact h.allocPage.1.mapPage h.allocPage.2 _ _ _
  · obtain ⟨h1, hdvd⟩ := h.fillPrivate hfill
    exact h1.mapPage hdvd _ _ _
  · obtain ⟨h1, hdvd⟩ := h.fillShared hfill
    exact h1.mapPage (hdvd paddr rfl) _ _ _
  · exact (h.fillShared hfill).1
  · exact h

lemma KernelFrames.fault (hcall : k.pageFaultHandler fuel t va = some (k', e)) :
    KernelFrames k' := by
  cases hth : k.thread t with
  | none =>
    rw [Kernel.pageFaultHandler, hth] at hcall
    cases hcall
  | some th =>
    rcases pageFaultHandler_cases hth hcall with ⟨-, -, -, rfl, -⟩ | ⟨rfl, -⟩ | ⟨-, -, rfl, -⟩ |
      ⟨i, -, harea⟩
    · have h1 := h.allocPage.1.mapPage h.allocPage.2 (k.process th.process).cr3 th.pageGuardMin
        (Paging.pteWritable ||| Paging.pteUser)
      exact ⟨h1.kept, h1.mapped⟩
    · exact h
    · have h1 := h.allocPage.1.mapPage h.allocPage.2 (k.process th.process).cr3 (pageStart va)
        (Paging.pteWritable ||| Paging.pteUser)
      exact ⟨h1.kept, h1.mapped⟩
    · exact h.areaFault harea

end

/-! ## Unmapping -/

/-- `pmm_free_page` for the address makes the frame free. -/
def Frees (total paddr f : Nat) : Prop :=
  paddr ≠ 0 ∧ paddr / 4096 < total ∧ f = paddr / 4096 * 4096

lemma mem_freePage {free : List Nat} :
    f ∈ freePage total free paddr ↔ f ∈ free ∨ Frees total paddr f := by
  rw [freePage]
  split_ifs with hskip
  · constructor
    · exact Or.inl
    · rintro (hf | ⟨hne, hlt, rfl⟩)
      · exact hf
      · exact (hskip.resolve_left hne).resolve_left (by omega)
  · rw [not_or] at hskip
    rw [mem_orderedInsert]
    constructor
    · rintro (rfl | hf)
      · exact .inr ⟨hskip.1, by omega, rfl⟩
      · exact .inl hf
    · rintro (hf | ⟨-, -, rfl⟩)
      · exact .inr hf
      · exact .inl rfl

lemma ascending_freePage {free : List Nat} (h : free.Pairwise (· < ·)) :
    (freePage total free paddr).Pairwise (· < ·) := by
  rw [freePage]
  split_ifs with hskip
  · exact h
  · rw [not_or, not_or] at hskip
    have hle : (free.orderedInsert (· ≤ ·) (paddr / 4096 * 4096)).Pairwise (· ≤ ·) :=
      (h.imp fun hab => hab.le).orderedInsert _ _
    have hnodup : (free.orderedInsert (· ≤ ·) (paddr / 4096 * 4096)).Nodup := by
      rw [(perm_orderedInsert _ _ _).nodup_iff]
      exact nodup_cons.mpr ⟨hskip.2.2, h.imp fun hab => hab.ne⟩
    exact (hle.and hnodup).imp fun hab => lt_of_le_of_ne hab.1 hab.2

/-- The list stands for the bitmap: freeing a page is `pmm_free_page` on it. -/
lemma freePage_freePages (m : Bitmap) (total paddr : Nat) :
    freePage total (Pmm.freePages total m) paddr =
      Pmm.freePages total (Pmm.pmmFreePage m total paddr) := by
  apply Pmm.eq_of_ascending (ascending_freePage (Pmm.pairwise_freePages total m))
    (Pmm.pairwise_freePages total _)
  intro f
  rw [mem_freePage, Frees, Pmm.mem_freePages, Pmm.mem_freePages, Pmm.pmmFreePage]
  by_cases hzero : paddr = 0
  · simp [hzero]
  by_cases htotal : total ≤ paddr / Pmm.pageSize
  · have hnot : ¬ paddr / 4096 < total := not_lt.mpr htotal
    rw [if_pos htotal]
    simp [hnot]
  have hlt : paddr / 4096 < total := not_le.mp htotal
  rw [if_neg hzero, if_neg htotal]
  by_cases hset : bitmapTest m (paddr / Pmm.pageSize) = true
  · rw [if_pos hset]
    constructor
    · rintro (⟨i, hi, hclear, rfl⟩ | ⟨-, -, rfl⟩)
      · exact ⟨i, hi, by simp [hclear], rfl⟩
      · exact ⟨paddr / 4096, hlt, by simp [Pmm.pageSize], rfl⟩
    · rintro ⟨i, hi, hclear, rfl⟩
      by_cases hip : i = paddr / Pmm.pageSize
      · exact .inr ⟨hzero, hlt, by rw [hip]; rfl⟩
      · exact .inl ⟨i, hi, by simpa [hip] using hclear, rfl⟩
  · rw [if_neg hset]
    constructor
    · rintro (hf | ⟨-, -, rfl⟩)
      · exact hf
      · exact ⟨paddr / 4096, hlt, by simpa [Pmm.pageSize] using hset, rfl⟩
    · exact Or.inl

/-- The frames that are free after the loop over the pages of an area. -/
lemma mem_free_unmapArea :
    f ∈ (k.unmapArea cr3 a).fs.free ↔ f ∈ k.fs.free ∨ ∃ j ∈ loopOffsets a.size, ∃ e,
      k.pages cr3 (pageStart (add64 a.lower j)) = some e ∧ Frees k.totalPages e.1 f := by
  rw [Kernel.unmapArea]
  generalize loopOffsets a.size = js
  induction js generalizing k with
  | nil => simp
  | cons j js ih =>
    rw [foldl_cons, ih, Kernel.unmapFree]
    cases hpage : k.pages cr3 (pageStart (add64 a.lower j)) with
    | none => simp [hpage]
    | some e =>
      simp only [mem_cons, exists_eq_or_imp, hpage, some.injEq, exists_eq_left',
        mem_freePage, true_and]
      constructor
      · rintro ((hf | hfree) | ⟨j', hj', e', he', hfree⟩)
        · exact .inl hf
        · exact .inr (.inl hfree)
        · split_ifs at he' with hsame
          exact .inr (.inr ⟨j', hj', e', he', hfree⟩)
      · rintro (hf | hfree | ⟨j', hj', e', he', hfree⟩)
        · exact .inl (.inl hf)
        · exact .inl (.inr hfree)
        · by_cases hsame : pageStart (add64 a.lower j') = pageStart (add64 a.lower j)
          · -- the page has been unmapped before, for the same frame
            rw [hsame, hpage] at he'
            cases he'
            exact .inl (.inr hfree)
          · refine .inr ⟨j', hj', e', ?_, hfree⟩
            rw [if_neg (fun h => hsame h)]
            exact he'

@[simp] lemma unmapArea_cache (k : Kernel) (cr3 : Nat) (a : VmArea) :
    (k.unmapArea cr3 a).fs.cache = k.fs.cache ∧ (k.unmapArea cr3 a).totalPages = k.totalPages := by
  refine unmapArea_induct (P := fun k' => k'.fs.cache = k.fs.cache ∧ k'.totalPages = k.totalPages)
    (fun k' v h => ?_) ⟨rfl, rfl⟩
  rw [Kernel.unmapFree]
  split <;> exact h

/-- No page of the area is mapped to a frame of the cache. -/
def SparesCache (k : Kernel) (cr3 : Nat) (a : VmArea) : Prop :=
  ∀ j ∈ loopOffsets a.size, ∀ e, k.pages cr3 (pageStart (add64 a.lower j)) = some e → e.1 ≠ 0 →
    ∀ c ∈ k.fs.cache, c.addr ≠ e.1

lemma ascending_unmapArea (h : k.fs.free.Pairwise (· < ·)) :
    (k.unmapArea cr3 a).fs.free.Pairwise (· < ·) := by
  refine unmapArea_induct (P := fun k' => k'.fs.free.Pairwise (· < ·)) (fun k' v hk' => ?_) h
  rw [Kernel.unmapFree]
  split
  · exact hk'
  · exact ascending_freePage hk'

lemma KernelFrames.unmapArea (h : KernelFrames k) (hspare : SparesCache k cr3 a) :
    KernelFrames (k.unmapArea cr3 a) := by
  obtain ⟨hcache, htotal⟩ := unmapArea_cache k cr3 a
  have haligned : ∀ {d}, 4096 ∣ d → d / 4096 * 4096 = d := fun hd => Nat.div_mul_cancel hd
  refine ⟨⟨htotal ▸ h.kept.positive, ascending_unmapArea h.kept.ascending, fun f hf => ?_,
    fun c hc => ?_⟩, ?_⟩
  · rw [htotal]
    rcases mem_free_unmapArea.mp hf with hf | ⟨j, -, e, he, hne, hlt, rfl⟩
    · exact h.kept.free f hf
    · have hdvd := h.mapped _ _ _ he
      rw [haligned hdvd]
      exact ⟨pos_of_ne_zero hne, hdvd, hlt⟩
  · rw [hcache] at hc
    obtain ⟨hc1, hc2⟩ := h.kept.cached c hc
    refine ⟨fun hm => ?_, htotal ▸ hc2⟩
    rcases mem_free_unmapArea.mp hm with hm | ⟨j, hj, e, he, hne, -, heq⟩
    · exact hc1 hm
    · rw [haligned (h.mapped _ _ _ he)] at heq
      exact hspare j hj e he hne c hc heq
  · refine unmapArea_induct (P := fun k' => ∀ c v e, k'.pages c v = some e → 4096 ∣ e.1)
      (fun k' v hk' => ?_) h.mapped
    rw [Kernel.unmapFree]
    split
    · exact hk'
    · intro c w e he
      dsimp only at he
      split_ifs at he
      exact hk' c w e he

/-- Otherwise a frame of the cache is free afterwards. -/
lemma cached_free_of_not_spares (h : KernelFrames k) (hspare : ¬ SparesCache k cr3 a) :
    ∃ c ∈ (k.unmapArea cr3 a).fs.cache, c.addr ∈ (k.unmapArea cr3 a).fs.free := by
  simp only [SparesCache, not_forall, not_not] at hspare
  obtain ⟨j, hj, e, he, hne, c, hc, heq⟩ := hspare
  refine ⟨c, (unmapArea_cache k cr3 a).1 ▸ hc,
    mem_free_unmapArea.mpr (.inr ⟨j, hj, e, he, hne, ?_, ?_⟩)⟩
  · rw [← heq]
    exact (h.kept.cached c hc).2.2
  · rw [Nat.div_mul_cancel (h.mapped _ _ _ he)]
    exact heq

/-! ## Bitmaps -/

/-- What the bitmap says of the frames in the cache: their bits are set, and none of them
is what an allocation returns. The address that `pmm_alloc_pages` returns is that of its
pages only below page `2 ^ 19`. -/
def CacheServed (k : Kernel) : Prop :=
  ∀ m, Pmm.freePages k.totalPages m = k.fs.free →
    (∀ c ∈ k.fs.cache, bitmapTest m (c.addr / 4096) = true) ∧
    ((Pmm.pmmAllocPage m k.totalPages).1 ≠ 0 →
      ∀ c ∈ k.fs.cache, c.addr ≠ (Pmm.pmmAllocPage m k.totalPages).1) ∧
    ∀ count i j, (Pmm.pmmAllocPages m k.totalPages count).first = some i → i < 2 ^ 19 → j < count →
      ∀ c ∈ k.fs.cache, c.addr ≠ (Pmm.pmmAllocPages m k.totalPages count).addr + j * 4096

lemma pmmAllocPages_first {m : Bitmap} {count : Nat}
    (h : (Pmm.pmmAllocPages m total count).first = some i) :
    (Pmm.pmmAllocPages m total count).addr = Pmm.intAddr i ∧ Pmm.Clear m i count := by
  rw [Pmm.pmmAllocPages] at h ⊢
  split_ifs at h ⊢ with hzero hmany
  dsimp only at h ⊢
  cases hfound : (Pmm.scan m total count 0).found with
  | none =>
    rw [hfound] at h
    cases h
  | some b =>
    rw [hfound] at h
    cases h
    exact ⟨rfl, (Pmm.scan_found (pos_of_ne_zero hzero) hfound).2.2.2.1⟩

lemma KernelFrames.served (h : KernelFrames k) : CacheServed k := by
  intro m hm
  have hset : ∀ c ∈ k.fs.cache, bitmapTest m (c.addr / 4096) = true := by
    intro c hc
    obtain ⟨hnot, hdvd, hlt⟩ := h.kept.cached c hc
    by_contra hclear
    apply hnot
    rw [← hm, ← Nat.div_mul_cancel hdvd]
    exact (Pmm.mul_pageSize_mem hlt).mpr (by simpa using hclear)
  refine ⟨hset, fun hne c hc heq => ?_, fun count i j hfirst hi hj c hc heq => ?_⟩
  · have hfs := Pmm.freePages_alloc k.fs hm.symm
    have hnew := h.kept.alloc.2.2.2.2.2
    rw [hfs.1] at hne heq
    exact hnew hne c hc heq
  · obtain ⟨haddr, hclear⟩ := pmmAllocPages_first hfirst
    have hint : Pmm.intAddr i = i * 4096 := by
      have hmod : i * Pmm.pageSize % 2 ^ 32 = i * 4096 :=
        mod_eq_of_lt (by norm_num [Pmm.pageSize]; omega)
      rw [Pmm.intAddr, hmod, if_pos (by omega)]
    have hpage : c.addr / 4096 = i + j := by omega
    have hbit := hset c hc
    rw [hpage, hclear (i + j) (by omega) (by omega)] at hbit
    cases hbit

/-- Every list of frames is the list of a bitmap. -/
lemma exists_bitmap {free : List Nat} (hasc : free.Pairwise (· < ·))
    (hfree : ∀ f ∈ free, 4096 ∣ f ∧ f / 4096 < total) : ∃ m, Pmm.freePages total m = free := by
  have hclear : ∀ (l : List Nat) (m : Bitmap) q,
      bitmapTest (l.foldl (fun m f => bitmapClr m (f / 4096)) m) q =
        (bitmapTest m q && decide (∀ f ∈ l, f / 4096 ≠ q)) := by
    intro l
    induction l with
    | nil => simp
    | cons f l ih =>
      intro m q
      rw [foldl_cons, ih]
      by_cases hq : q = f / 4096
      · simp [hq]
      · simp [hq, Ne.symm hq]
  have hones : ∀ q, bitmapTest (fun _ => 0xFF) q = true := by
    intro q
    rw [bitmapTest_eq]
    have hq : q % 8 < 8 := mod_lt _ (by norm_num)
    generalize q % 8 = r at hq
    interval_cases r <;> rfl
  refine ⟨free.foldl (fun m f => bitmapClr m (f / 4096)) (fun _ => 0xFF), ?_⟩
  refine Pmm.eq_of_ascending (Pmm.pairwise_freePages total _) hasc fun f => ?_
  rw [Pmm.mem_freePages]
  constructor
  · rintro ⟨i, hi, hbit, rfl⟩
    rw [hclear, hones, Bool.true_and, decide_eq_false_iff_not] at hbit
    simp only [not_forall, not_not] at hbit
    obtain ⟨g, hg, rfl⟩ := hbit
    rw [Pmm.pageSize, Nat.div_mul_cancel (hfree g hg).1]
    exact hg
  · intro hf
    refine ⟨f / 4096, (hfree f hf).2, ?_, (Nat.div_mul_cancel (hfree f hf).1).symm⟩
    rw [hclear, hones, Bool.true_and, decide_eq_false_iff_not]
    exact fun hall => hall f hf rfl

lemma not_served_of_free {c : CachePage} (hasc : k.fs.free.Pairwise (· < ·))
    (hfree : ∀ f ∈ k.fs.free, 4096 ∣ f ∧ f / 4096 < k.totalPages) (hc : c ∈ k.fs.cache)
    (hmem : c.addr ∈ k.fs.free) : ¬ CacheServed k := by
  intro h
  obtain ⟨m, hm⟩ := exists_bitmap hasc hfree
  have hbit := (h m hm).1 c hc
  obtain ⟨hdvd, hlt⟩ := hfree _ hmem
  rw [← Nat.div_mul_cancel hdvd, ← hm] at hmem
  rw [(Pmm.mul_pageSize_mem hlt).mp hmem] at hbit
  cases hbit

/-! ## Runs -/

inductive FrameAction where
  | allocPage
  | dfsRead (fp : List UInt8) (buffer offset size : Nat)
  | dfsWrite (fp : List UInt8) (buffer offset size : Nat)
  | mmap (p : Nat) (block : Option (Nat × VmArea)) (call : MmapCall)
  | fault (t va : Nat)
  | munmap (p ptr : Nat)
  | destroyThread (t : Nat)

/-- One call by any process. The kernel allocates pages for itself at any time. -/
inductive FrameStep : Kernel → FrameAction → Kernel → Prop
  | allocPage {k : Kernel} : FrameStep k .allocPage k.allocPage.2
  | dfsRead {k : Kernel} {fp : List UInt8} {buffer offset size fuel n : Nat} {fs : FsState}
      (hcall : Fs.dfsRead fuel k.fs fp buffer offset size = some (fs, n)) :
      FrameStep k (.dfsRead fp buffer offset size) { k with fs := fs }
  | dfsWrite {k : Kernel} {fp : List UInt8} {buffer offset size fuel n : Nat} {fs : FsState}
      (hcall : Fs.dfsWrite fuel k.fs fp buffer offset size = some (fs, n)) :
      FrameStep k (.dfsWrite fp buffer offset size) { k with fs := fs }
  | mmap {k k' : Kernel} {p fuel ret : Nat} {block : Option (Nat × VmArea)} {call : MmapCall}
      (hcall : k.mmap fuel p block call = some (k', ret)) : FrameStep k (.mmap p block call) k'
  | fault {k k' : Kernel} {t va fuel : Nat} {e : FaultEnd}
      (hcall : k.pageFaultHandler fuel t va = some (k', e)) : FrameStep k (.fault t va) k'
  | munmap {k k' : Kernel} {p ptr fuel : Nat} (hcall : k.munmap fuel p ptr = some k') :
      FrameStep k (.munmap p ptr) k'
  | destroyThread {k k' : Kernel} {t fuel : Nat} (hcall : k.destroyThread fuel t = some k') :
      FrameStep k (.destroyThread t) k'

/-- Any bitmap in which page 0 is taken, any processes, and an empty cache. -/
def frameMachine : Machine Kernel FrameAction where
  start k :=
    0 < k.totalPages ∧ k.fs.cache = [] ∧
      (∃ m, bitmapTest m 0 = true ∧ Pmm.freePages k.totalPages m = k.fs.free) ∧
      ∀ cr3 v e, k.pages cr3 v = some e → 4096 ∣ e.1
  step := FrameStep

/-- What is unmapped is not mapped to a frame of the cache. -/
def UnmapsNoCached (k : Kernel) : FrameAction → Prop
  | .munmap p ptr => ∀ fuel i,
      findArea (k.process p).mmaps ptr fuel (k.process p).mmaps.head = some (some i) →
        SparesCache k (k.process p).cr3 ((k.process p).mmaps.area i)
  | .destroyThread t => ∀ th fuel i, k.thread t = some th → th.stackBottom ≠ 0 →
      searchArea (k.process th.process).ustacks (fun a => a.base = th.stackBottom) fuel
          (k.process th.process).ustacks.head = some (some i) →
        SparesCache k (k.process th.process).cr3 ((k.process th.process).ustacks.area i)
  | _ => True

lemma frameMachine_start (h : frameMachine.start k) : KernelFrames k := by
  obtain ⟨hpos, hcache, ⟨m, hzero, hm⟩, hmapped⟩ := h
  refine ⟨⟨hpos, hm ▸ Pmm.pairwise_freePages _ m, fun f hf => ?_, by simp [hcache]⟩, hmapped⟩
  rw [← hm] at hf
  obtain ⟨i, hi, hclear, rfl⟩ := Pmm.mem_freePages.mp hf
  have hne : i ≠ 0 := by
    rintro rfl
    rw [hzero] at hclear
    cases hclear
  have hdiv : i * Pmm.pageSize / 4096 = i := Nat.mul_div_cancel i (by decide)
  exact ⟨mul_pos (pos_of_ne_zero hne) (by decide), dvd_mul_left 4096 i, hdiv.symm ▸ hi⟩

lemma KernelFrames.congr (h : KernelFrames k) (hfs : k'.fs = k.fs)
    (htotal : k'.totalPages = k.totalPages) (hpages : k'.pages = k.pages) : KernelFrames k' :=
  ⟨by rw [hfs, htotal]; exact h.kept, by rw [hpages]; exact h.mapped⟩

/-- After `munmap`, which unmaps an area or does nothing. -/
lemma munmap_cases {ptr : Nat} (hcall : k.munmap fuel p ptr = some k') :
    k' = k ∨ ∃ i, findArea (k.process p).mmaps ptr fuel (k.process p).mmaps.head = some (some i) ∧
      k'.fs = (k.unmapArea (k.process p).cr3 ((k.process p).mmaps.area i)).fs ∧
      k'.totalPages = (k.unmapArea (k.process p).cr3 ((k.process p).mmaps.area i)).totalPages ∧
      k'.pages = (k.unmapArea (k.process p).cr3 ((k.process p).mmaps.area i)).pages := by
  obtain ⟨found, hfound, rfl⟩ := map_eq_some_iff.mp hcall
  cases found with
  | none => exact .inl rfl
  | some i => exact .inr ⟨i, hfound, rfl, rfl, rfl⟩

lemma destroyThread_cases (hcall : k.destroyThread fuel t = some k') : ∃ th, k.thread t = some th ∧
    (k' = { k with thread := update k.thread t none } ∨
      ∃ i, th.stackBottom ≠ 0 ∧
        searchArea (k.process th.process).ustacks (fun a => a.base = th.stackBottom) fuel
          (k.process th.process).ustacks.head = some (some i) ∧
        k' = { (k.unmapArea (k.process th.process).cr3
            ((k.process th.process).ustacks.area i)).setProcess th.process fun pr =>
              { pr with ustacks := removeFromList pr.ustacks i } with
          thread := update k.thread t none }) := by
  obtain ⟨th, hth, hcall⟩ := bind_eq_some_iff.mp hcall
  refine ⟨th, hth, ?_⟩
  split_ifs at hcall with hbottom
  · cases hcall
    exact .inl rfl
  · obtain ⟨k1, hfree, hcall⟩ := bind_eq_some_iff.mp hcall
    split_ifs at hcall with hthreads
    cases hcall
    obtain ⟨found, hfound, rfl⟩ := map_eq_some_iff.mp hfree
    cases found with
    | none => exact .inl rfl
    | some i =>
      refine .inr ⟨i, hbottom, hfound, ?_⟩
      dsimp only [Kernel.setProcess]
      rw [unmapArea_thread]

lemma KernelFrames.step {act : FrameAction} (h : KernelFrames k) (hgood : UnmapsNoCached k act)
    (hstep : FrameStep k act k') : KernelFrames k' := by
  cases hstep with
  | allocPage => exact h.allocPage.1
  | dfsRead hcall => exact h.withFs (h.kept.transfer hcall)
  | dfsWrite hcall => exact h.withFs (h.kept.transfer hcall)
  | mmap hcall =>
    obtain ⟨r, -, hr⟩ := map_eq_some_iff.mp hcall
    cases hr
    exact ⟨h.kept, h.mapped⟩
  | fault hcall => exact h.fault hcall
  | munmap hcall =>
    rcases munmap_cases hcall with rfl | ⟨i, hfound, hfs, htotal, hpages⟩
    · exact h
    · exact (h.unmapArea (hgood _ i hfound)).congr hfs htotal hpages
  | destroyThread hcall =>
    obtain ⟨th, hth, rfl | ⟨i, hbottom, hfound, rfl⟩⟩ := destroyThread_cases hcall
    · exact h.congr rfl rfl rfl
    · exact (h.unmapArea (hgood th _ i hth hbottom hfound)).congr rfl rfl rfl

lemma not_served_unmapArea (h : KernelFrames k) (hspare : ¬ SparesCache k cr3 a)
    (hfs : k'.fs = (k.unmapArea cr3 a).fs)
    (htotal : k'.totalPages = (k.unmapArea cr3 a).totalPages) :
    ¬ CacheServed k' := by
  obtain ⟨c, hc, hmem⟩ := cached_free_of_not_spares h hspare
  have hasc : (k.unmapArea cr3 a).fs.free.Pairwise (· < ·) := ascending_unmapArea h.kept.ascending
  refine not_served_of_free (c := c) (by rw [hfs]; exact hasc) (fun f hf => ?_)
    (by rw [hfs]; exact hc)
    (by rw [hfs]; exact hmem)
  rw [hfs] at hf
  rw [htotal, (unmapArea_cache k cr3 a).2]
  rcases mem_free_unmapArea.mp hf with hf | ⟨j, -, e, he, -, hlt, rfl⟩
  · exact (h.kept.free f hf).2
  · rw [Nat.div_mul_cancel (h.mapped _ _ _ he)]
    exact ⟨h.mapped _ _ _ he, hlt⟩

/-- The frames of the page cache are served in every run in which no cached frame is
unmapped, and the next step keeps that exactly when it unmaps none either. -/
theorem cached_frames_served_iff (run : frameMachine.Reached UnmapsNoCached k) :
    frameMachine.SafeExactlyWhen CacheServed UnmapsNoCached k := by
  refine run.safeExactlyWhen (fun k hk => frameMachine_start hk)
    (fun k act k' h hgood hstep => h.step hgood hstep) (fun k h => h.served)
    (fun k act k' h hstep hbad => ?_)
  cases hstep with
  | munmap hcall =>
    simp only [UnmapsNoCached, not_forall] at hbad
    obtain ⟨fuel, i, hfound, hspare⟩ := hbad
    obtain ⟨found, hfound', rfl⟩ := map_eq_some_iff.mp hcall
    rw [findArea_eq_search] at hfound hfound'
    rw [searchArea_unique hfound' hfound]
    exact not_served_unmapArea h hspare rfl rfl
  | destroyThread hcall =>
    simp only [UnmapsNoCached, not_forall] at hbad
    obtain ⟨th, fuel, i, hth, hbottom, hfound, hspare⟩ := hbad
    rw [Kernel.destroyThread, hth, bind_some, if_neg hbottom] at hcall
    obtain ⟨k1, hfree, hcall⟩ := bind_eq_some_iff.mp hcall
    split_ifs at hcall with hthreads
    cases hcall
    obtain ⟨found, hfound', rfl⟩ := map_eq_some_iff.mp hfree
    rw [searchArea_unique hfound' hfound]
    exact not_served_unmapArea h hspare rfl rfl
  | allocPage => exact absurd trivial hbad
  | dfsRead hcall => exact absurd trivial hbad
  | dfsWrite hcall => exact absurd trivial hbad
  | mmap hcall => exact absurd trivial hbad
  | fault hcall => exact absurd trivial hbad

/-! ## A shared page that is unmapped -/

/-- One page of a file in a shared area at the top of the mapped areas. -/
def sharedArea : VmArea := ⟨mmapStart, 4096, 3, mapShared, 7, 0, none, none⟩

def sharedProcess : Process :=
  ⟨0, some 0, noAreas.areas, ⟨fun _ => sharedArea, some 1⟩, fun _ => none, 0, 0, 0⟩

/-- Page 1 is free. -/
def sharedKernel : Kernel where
  fs := ⟨[], [4096], [], fun _ => none, fun _ => 0, fun _ => 0⟩
  totalPages := 2
  pages := fun _ _ => none
  process := fun _ => sharedProcess
  thread := fun _ => some ⟨0, 0, 0, 0, 0⟩
  file := fun _ => some ⟨[], ⟨3, 4096, 10, 1⟩⟩

/-- The page is in the cache and mapped. -/
def sharedFaulted : Kernel :=
  (sharedKernel.fillShared ⟨[], ⟨3, 4096, 10, 1⟩⟩ 0).2.mapPage 0 4096 (mmapStart - 4096)
    Paging.pteUser

lemma sharedKernel_start : frameMachine.start sharedKernel :=
  ⟨by decide, rfl, ⟨fun _ => 1, by decide, by decide⟩, fun _ _ _ h => nomatch h⟩

lemma sharedKernel_fault : sharedKernel.pageFaultHandler 1 0 (mmapStart - 4096) =
      some (sharedFaulted, .mapped (mmapStart - 4096) Paging.pteUser) := by rfl

lemma sharedFaulted_cache : sharedFaulted.fs.cache = [⟨3, 0, 4096, 0⟩] := rfl

lemma sharedFaulted_step :
    FrameStep sharedKernel (.fault 0 (mmapStart - 4096)) sharedFaulted := .fault sharedKernel_fault

lemma sharedKernel_fault_good :
    UnmapsNoCached sharedKernel (.fault 0 (mmapStart - 4096)) := trivial

/-- The run in which the page is touched. -/
theorem cached_frames_served_shared : frameMachine.Reached UnmapsNoCached sharedFaulted ∧
      frameMachine.SafeExactlyWhen CacheServed UnmapsNoCached sharedFaulted := by
  have run : frameMachine.Reached UnmapsNoCached sharedFaulted :=
    .step (.start sharedKernel_start) sharedKernel_fault_good sharedFaulted_step
  exact ⟨run, cached_frames_served_iff run⟩

/-- `munmap` frees the frame that the cache holds. -/
theorem munmap_frees_cached : frameMachine.start sharedKernel ∧
      FrameStep sharedKernel (.fault 0 (mmapStart - 4096)) sharedFaulted ∧
      ∃ k, FrameStep sharedFaulted (.munmap 0 (mmapStart - 4096)) k ∧
        (∃ c ∈ k.fs.cache, c.addr = 4096 ∧ c.addr ∈ k.fs.free) ∧ ¬ CacheServed k := by
  have hkept : KernelFrames sharedFaulted :=
    (frameMachine_start sharedKernel_start).step sharedKernel_fault_good sharedFaulted_step
  have hzero : 0 ∈ loopOffsets sharedArea.size := by decide
  have hpage : sharedFaulted.pages 0 (pageStart (add64 sharedArea.lower 0)) =
      some (4096, Paging.pteUser) := by exact mapPage_self _ _ _ _ _
  have hspare : ¬ SparesCache sharedFaulted 0 sharedArea := fun h =>
    h 0 hzero _ hpage (by decide) ⟨3, 0, 4096, 0⟩ (by simp [sharedFaulted_cache]) rfl
  obtain ⟨c, hc, hmem⟩ := cached_free_of_not_spares hkept hspare
  have hcache : (sharedFaulted.unmapArea 0 sharedArea).fs.cache = [⟨3, 0, 4096, 0⟩] :=
    (unmapArea_cache _ _ _).1.trans sharedFaulted_cache
  have haddr : c.addr = 4096 := by
    rw [hcache] at hc
    rw [mem_singleton.mp hc]
  have hcall : sharedFaulted.munmap 1 0 (mmapStart - 4096) =
      some (sharedFaulted.munmapByInfo 0 1) := by rfl
  exact ⟨sharedKernel_start, sharedFaulted_step, _, .munmap hcall, ⟨c, hc, haddr, hmem⟩,
    not_served_unmapArea hkept hspare rfl rfl⟩

end DestinX.Vm
