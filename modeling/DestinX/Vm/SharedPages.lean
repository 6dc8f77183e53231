import DestinX.Fs.DiskErrors
import DestinX.Vm.CachedFrames

/-!
# Shared mappings and file calls

`dfs_read`, `dfs_write` and the faults in shared areas fill the same page cache. A fault in a
shared area looks for the entry and then makes no use of it. If there is one, the page gets a
second entry with a frame of its own, and from then on the older mappings and the file calls see
different bytes.
-/

namespace DestinX.Vm

open Base Fs Function List Option

/-! ## Faults in shared areas -/

/-- The handler for thread `t` comes to the area `a`, which is a shared one. -/
structure SharedFault (k : Kernel) (fuel t va cr3 : Nat) (a : VmArea) (file : OpenFile) : Prop where
  area : ∃ th i, k.thread t = some th ∧ ¬ (va < th.pageGuardMax ∧ th.pageGuardMin ≤ va) ∧
    ¬ ((k.process th.process).heapStart ≤ va ∧ va < (k.process th.process).currentHeapEnd) ∧
    searchArea (k.process th.process).mmaps (fun a => a.lower ≤ va ∧ va < a.base) fuel
      (k.process th.process).mmaps.head = some (some i) ∧
    cr3 = (k.process th.process).cr3 ∧ a = (k.process th.process).mmaps.area i
  shared : a.flags &&& mapAnonymous = 0 ∧ a.flags &&& mapPrivate = 0 ∧ a.flags &&& mapShared ≠ 0
  file : k.file a.file = some file

variable {k k' : Kernel} {a : VmArea} {file : OpenFile} {e : FaultEnd}
  {fuel t va cr3 paddr position : Nat}

lemma SharedFault.handler (h : SharedFault k fuel t va cr3 a file) :
    k.pageFaultHandler fuel t va = some (match k.fillShared file (a.position va) with
        | (some paddr, k') => (k'.mapPage cr3 paddr (pageStart va) a.pteFlags,
            .mapped (pageStart va) a.pteFlags)
        | (none, k') => (k', .skipped)) := by
  obtain ⟨th, i, hth, hguard, hheap, hfound, rfl, ha⟩ := h.area
  obtain ⟨hanon, hpriv, hshared⟩ := h.shared
  rw [Kernel.pageFaultHandler, hth, bind_some]
  rw [if_neg hguard, if_neg hheap, hfound, bind_some]
  dsimp only
  rw [← ha, Kernel.areaFault, if_neg (not_not.mpr hanon), if_neg (not_not.mpr hpriv),
    if_pos hshared, h.file]
  rfl

/-- What loading a shared page does: it is loaded into a new frame and entered, or the
read fails and nothing is changed. -/
lemma fillShared_cases (k : Kernel) (file : OpenFile) (position : Nat) :
    (∃ paddr k', k.fillShared file position = (some paddr, k') ∧
      k.fs.faults.head? ≠ some true ∧ k'.pages = k.pages ∧ Grown k.fs file.inode.inodeNum k'.fs ∧
      places k'.fs.cache = ((file.inode.inodeNum, position / 4096), paddr) :: places k.fs.cache ∧
      k'.fs.mem = fun x =>
        if direct paddr ≤ x ∧ x < direct paddr + 4096 then
          k.fs.disk (add64 (position / 512) (file.inode.startBlock * 8) * 512 + (x - direct paddr))
        else k.fs.mem x) ∨
    ∃ k', k.fillShared file position = (none, k') ∧ k.fs.faults.head? = some true ∧
      k'.pages = k.pages ∧ Grown k.fs file.inode.inodeNum k'.fs ∧
      places k'.fs.cache = places k.fs.cache ∧ k'.fs.mem = k.fs.mem := by
  have halloc : (pmmAllocPage k.fs).2.faults = k.fs.faults ∧
      (pmmAllocPage k.fs).2.disk = k.fs.disk ∧ (pmmAllocPage k.fs).2.mem = k.fs.mem := by
    rw [pmmAllocPage]
    split <;> exact ⟨rfl, rfl, rfl⟩
  rcases ahciRead_mem (pmmAllocPage k.fs).2
      (add64 (position / 512) (file.inode.startBlock * 8)) (pmmAllocPage k.fs).1 with
    ⟨hhead, hok, hmem⟩ | ⟨hhead, hok, hmem⟩
  · obtain ⟨fs, hfs⟩ : ∃ fs, pmmFreePage (ahciRead (pmmAllocPage k.fs).2
        (add64 (position / 512) (file.inode.startBlock * 8)) (pmmAllocPage k.fs).1).1
        (pmmAllocPage k.fs).1 = fs := ⟨_, rfl⟩
    obtain ⟨hgrown, hplaces⟩ := giveBack_grown file.inode.inodeNum hfs
    have hfill : k.fillShared file position = (none, { k with fs := fs }) :=
      hfs ▸ if_neg (Bool.not_eq_true _ ▸ hok)
    refine .inr ⟨_, hfill, halloc.1 ▸ hhead, rfl, hgrown, hplaces, ?_⟩
    rw [halloc.2.2] at hmem
    rw [← hfs, Fs.pmmFreePage]
    split <;> exact hmem
  · obtain ⟨fs, hfs⟩ : ∃ fs, addPageToCache (ahciRead (pmmAllocPage k.fs).2
        (add64 (position / 512) (file.inode.startBlock * 8)) (pmmAllocPage k.fs).1).1
        file.inode.inodeNum (position / 4096) (pmmAllocPage k.fs).1 0 = fs := ⟨_, rfl⟩
    obtain ⟨hgrown, hplaces⟩ := enter_grown hfs
    have hfill : k.fillShared file position =
        (some (pmmAllocPage k.fs).1, { k with fs := fs }) := hfs ▸ if_pos hok
    refine .inl ⟨_, _, hfill, halloc.1 ▸ hhead, rfl, hgrown, hplaces, ?_⟩
    rw [halloc.2.1, halloc.2.2] at hmem
    exact hfs ▸ hmem

/-! ## Runs -/

/-- A page of a shared area that a fault has mapped, and the page of the file that it
was mapped for. -/
structure View where
  (cr3 page id indx : Nat)
  deriving DecidableEq, Repr

structure SharedState where
  kernel : Kernel
  views : List View

inductive SharedAction where
  | dfsRead (fp : List UInt8) (buffer offset size : Nat)
  | dfsWrite (fp : List UInt8) (buffer offset size : Nat)
  | fault (cr3 : Nat) (a : VmArea) (va : Nat)
  | store (v : View) (d : Nat) (b : UInt8)

/-- The byte is stored at the place of the frame that the page is mapped to. Whether the
page is writable is not looked at here. -/
def SharedState.store (st : SharedState) (f d : Nat) (b : UInt8) : SharedState :=
  { st with
    kernel.fs := { st.kernel.fs with
      mem := update st.kernel.fs.mem (direct f + d) b } }

/-- One call, one fault in a shared area, or one store through a mapping. Memory is not
exhausted: no page of the cache is at the address 0, which stands for no frame. -/
inductive SharedStep : SharedState → SharedAction → SharedState → Prop
  | dfsRead {st : SharedState} {fp : List UInt8} {buffer offset size fuel n : Nat} {fs : FsState}
      (hcall : Fs.dfsRead fuel st.kernel.fs fp buffer offset size = some (fs, n))
      (hnull : ∀ c ∈ fs.cache, c.addr ≠ 0) :
      SharedStep st (.dfsRead fp buffer offset size) ⟨{ st.kernel with fs := fs }, st.views⟩
  | dfsWrite {st : SharedState} {fp : List UInt8} {buffer offset size fuel n : Nat} {fs : FsState}
      (hcall : Fs.dfsWrite fuel st.kernel.fs fp buffer offset size = some (fs, n))
      (hnull : ∀ c ∈ fs.cache, c.addr ≠ 0) :
      SharedStep st (.dfsWrite fp buffer offset size) ⟨{ st.kernel with fs := fs }, st.views⟩
  | faultMapped {st : SharedState} {fuel t va cr3 page flags : Nat} {a : VmArea} {file : OpenFile}
      {k' : Kernel} (harea : SharedFault st.kernel fuel t va cr3 a file)
      (hcall : st.kernel.pageFaultHandler fuel t va = some (k', .mapped page flags))
      (hnull : ∀ c ∈ k'.fs.cache, c.addr ≠ 0) :
      SharedStep st (.fault cr3 a va) ⟨k', ⟨cr3, page, file.inode.inodeNum, a.position va / 4096⟩ ::
          st.views.filter fun v => ¬ (v.cr3 = cr3 ∧ v.page = page)⟩
  | faultFailed {st : SharedState} {fuel t va cr3 : Nat} {a : VmArea} {file : OpenFile}
      {k' : Kernel} (harea : SharedFault st.kernel fuel t va cr3 a file)
      (hcall : st.kernel.pageFaultHandler fuel t va = some (k', .skipped))
      (hnull : ∀ c ∈ k'.fs.cache, c.addr ≠ 0) :
      SharedStep st (.fault cr3 a va) ⟨k', st.views⟩
  | store {st : SharedState} {v : View} {f flags d : Nat} {b : UInt8} (hv : v ∈ st.views)
      (hpage : st.kernel.pages v.cr3 v.page = some (f, flags)) (hd : d < 4096) :
      SharedStep st (.store v d b) (st.store f d b)

/-- Any page cache with one entry for each page, in frames of their own; nothing is
mapped yet. -/
def sharedMachine : Machine SharedState SharedAction where
  start st := OneEntry st.kernel.fs.cache ∧ Ready { st.kernel.fs with faults := [] } ∧ st.views = []
  step := SharedStep

/-- Every page has at most one entry, and the mappings of a page are mappings of the frame
of its entry. -/
def OneCopy (st : SharedState) : Prop :=
  OneEntry st.kernel.fs.cache ∧
    ∀ v ∈ st.views, ∃ c flags, getPageCache st.kernel.fs.cache v.id v.indx = some c ∧
      st.kernel.pages v.cr3 v.page = some (c.addr, flags)

/-- A fault whose read succeeds finds no entry for its page. -/
def NoEntryYet (st : SharedState) : SharedAction → Prop
  | .fault _ a va => ∀ file, st.kernel.file a.file = some file →
      st.kernel.fs.faults.head? ≠ some true →
        getPageCache st.kernel.fs.cache file.inode.inodeNum (a.position va / 4096) = none
  | _ => True

structure SharedKept (st : SharedState) : Prop where
  one : OneEntry st.kernel.fs.cache
  ready : Ready { st.kernel.fs with faults := [] }
  views : ∀ v ∈ st.views, ∃ f flags, (places st.kernel.fs.cache).lookup (v.id, v.indx) = some f ∧
    st.kernel.pages v.cr3 v.page = some (f, flags)

variable {st st' : SharedState} {act : SharedAction} {fs : FsState} {id f d : Nat} {b : UInt8}

lemma ready_of_grown {fs fs' : FsState} (h : Ready { fs with faults := [] })
    (hgrown : Grown fs id fs') (hnull : ∀ c ∈ fs'.cache, c.addr ≠ 0) :
    Ready { fs' with faults := [] } := by
  have hzero : 0 ∉ fs.free := fun hmem => (h.frame 0 (mem_append_right _ hmem)).1 rfl
  exact h.of_perm (hgrown.frames hzero hnull) rfl

/-- A call or a failed fault. -/
lemma SharedKept.grown (h : SharedKept st) (hgrown : Grown st.kernel.fs id k'.fs)
    (hpages : k'.pages = st.kernel.pages) (hone : OneEntry k'.fs.cache)
    (hnull : ∀ c ∈ k'.fs.cache, c.addr ≠ 0) : SharedKept ⟨k', st.views⟩ := by
  refine ⟨hone, ready_of_grown h.ready hgrown hnull, fun v hv => ?_⟩
  obtain ⟨f, flags, hf, hpage⟩ := h.views v hv
  exact ⟨f, flags, hgrown.lookup hone hf, hpages ▸ hpage⟩

lemma SharedKept.oneCopy (h : SharedKept st) : OneCopy st := by
  refine ⟨h.one, fun v hv => ?_⟩
  obtain ⟨f, flags, hf, hpage⟩ := h.views v hv
  rw [lookup_places] at hf
  obtain ⟨c, hc, rfl⟩ := map_eq_some_iff.mp hf
  exact ⟨c, flags, hc, hpage⟩

lemma SharedFault.mapped {page flags : Nat} (harea : SharedFault k fuel t va cr3 a file)
    (hcall : k.pageFaultHandler fuel t va = some (k', .mapped page flags)) :
    ∃ (paddr : Nat) (k1 : Kernel), k' = k1.mapPage cr3 paddr page flags ∧ page = pageStart va ∧
      k.fs.faults.head? ≠ some true ∧ k1.pages = k.pages ∧ Grown k.fs file.inode.inodeNum k1.fs ∧
      places k1.fs.cache =
        ((file.inode.inodeNum, a.position va / 4096), paddr) :: places k.fs.cache ∧
      k1.fs.mem = fun x =>
        if direct paddr ≤ x ∧ x < direct paddr + 4096 then
          k.fs.disk (add64 (a.position va / 512) (file.inode.startBlock * 8) * 512 +
            (x - direct paddr))
        else k.fs.mem x := by
  rw [harea.handler] at hcall
  rcases fillShared_cases k file (a.position va) with
    ⟨paddr, k1, hfill, hhead, hpages, hgrown, hplaces, hmem⟩ | ⟨k1, hfill, -⟩
  · rw [hfill] at hcall
    cases hcall
    exact ⟨paddr, k1, rfl, rfl, hhead, hpages, hgrown, hplaces, hmem⟩
  · rw [hfill] at hcall
    cases hcall

lemma SharedFault.failed (harea : SharedFault k fuel t va cr3 a file)
    (hcall : k.pageFaultHandler fuel t va = some (k', .skipped)) :
    k.fs.faults.head? = some true ∧ k'.pages = k.pages ∧ Grown k.fs file.inode.inodeNum k'.fs ∧
      places k'.fs.cache = places k.fs.cache ∧ k'.fs.mem = k.fs.mem := by
  rw [harea.handler] at hcall
  rcases fillShared_cases k file (a.position va) with ⟨paddr, k1, hfill, -⟩ | ⟨k1, hfill, hrest⟩
  · rw [hfill] at hcall
    cases hcall
  · rw [hfill] at hcall
    cases hcall
    exact hrest

lemma SharedKept.step (h : SharedKept st) (hgood : NoEntryYet st act)
    (hstep : SharedStep st act st') : SharedKept st' := by
  cases hstep with
  | dfsRead hcall hnull =>
    obtain ⟨id, hgrown, -, hone⟩ := transfer_grown hcall
    exact h.grown hgrown rfl (hone h.one hnull) hnull
  | dfsWrite hcall hnull =>
    obtain ⟨id, hgrown, -, hone⟩ := transfer_grown hcall
    exact h.grown hgrown rfl (hone h.one hnull) hnull
  | faultFailed harea hcall hnull =>
    obtain ⟨-, hpages, hgrown, hplaces, -⟩ := harea.failed hcall
    refine h.grown hgrown hpages ?_ hnull
    rw [OneEntry, hplaces]
    exact h.one
  | @faultMapped _ _ va cr3 page flags a file k' harea hcall hnull =>
    obtain ⟨paddr, k1, rfl, -, hhead, hpages, hgrown, hplaces, -⟩ := harea.mapped hcall
    have hnone := hgood file harea.file hhead
    have hone : OneEntry k1.fs.cache := h.one.cons hplaces (by rw [lookup_places, hnone]; rfl)
    refine ⟨hone, ready_of_grown h.ready hgrown hnull, fun v hv => ?_⟩
    rcases mem_cons.mp hv with rfl | hv
    · refine ⟨paddr, flags, ?_, mapPage_self _ _ _ _ _⟩
      change (places k1.fs.cache).lookup _ = _
      rw [hplaces, lookup_cons_self]
    · obtain ⟨hv, hother⟩ := mem_filter.mp hv
      obtain ⟨f, flags', hf, hpage⟩ := h.views v hv
      refine ⟨f, flags', hgrown.lookup hone hf, ?_⟩
      rw [decide_eq_true_eq] at hother
      exact (if_neg hother).trans (hpages ▸ hpage)
  | store hv hpage hd => exact ⟨h.one, ⟨h.ready.frame, h.ready.nodup, rfl⟩, h.views⟩

lemma not_oneCopy_of_entry (hstep : SharedStep st act st') (hbad : ¬ NoEntryYet st act) :
    ¬ OneCopy st' := by
  intro hcopy
  cases hstep with
  | dfsRead hcall hnull => exact hbad trivial
  | dfsWrite hcall hnull => exact hbad trivial
  | store hv hpage hd => exact hbad trivial
  | faultFailed harea hcall hnull =>
    exact hbad fun file hfile hhead => absurd (harea.failed hcall).1 hhead
  | faultMapped harea hcall hnull =>
    obtain ⟨paddr, k1, rfl, -, -, -, -, hplaces, -⟩ := harea.mapped hcall
    apply hbad
    intro file' hfile _
    rw [harea.file] at hfile
    cases hfile
    have hone : OneEntry k1.fs.cache := hcopy.1
    rw [OneEntry, hplaces, map_cons, nodup_cons] at hone
    have hnone := lookup_eq_none_iff.mpr hone.1
    rw [lookup_places] at hnone
    exact map_eq_none_iff.mp hnone

/-! ## What is observed -/

/-- A load through a mapping sees the content of the file. -/
def Loads (st : SharedState) : Prop :=
  ∀ v ∈ st.views, ∀ f flags, st.kernel.pages v.cr3 v.page = some (f, flags) →
    ∀ inode : Inode, inode.inodeNum = v.id → ∀ d < 4096,
      st.kernel.fs.mem (direct f + d) = content st.kernel.fs inode (v.indx * 4096 + d)

/-- Files of one number are the same file. -/
def SameFile (inode i : Inode) : Prop :=
  i.inodeNum = inode.inodeNum → i.startBlock = inode.startBlock

/-- What a step does to the content of files, where the requests are those that are
served correctly and the area starts at a page of the file. A read stores the content
in the buffer. -/
def Observed (st : SharedState) (st' : SharedState) : SharedAction → Prop
  | .dfsRead fp buffer offset size => ∀ inode,
      Request st.kernel.fs fp inode buffer (min size (inode.size - offset)) offset size →
      ReadCondition st.kernel.fs inode offset size → (∀ j < min size (inode.size - offset),
          st'.kernel.fs.mem (buffer + j) = content st.kernel.fs inode (offset + j)) ∧
        ∀ i pos, SameFile inode i → content st'.kernel.fs i pos = content st.kernel.fs i pos
  | .dfsWrite fp buffer offset size => ∀ inode,
      Request st.kernel.fs fp inode buffer size offset size → offset + size ≤ inode.size →
      WritesRight offset size →
        ∀ i pos, SameFile inode i → (i.inodeNum = inode.inodeNum → pos < inode.size) →
          content st'.kernel.fs i pos =
            if i.inodeNum = inode.inodeNum ∧ offset ≤ pos ∧ pos < offset + size then
              st.kernel.fs.mem (buffer + (pos - offset))
            else content st.kernel.fs i pos
  | .fault _ a va => ∀ file, st.kernel.file a.file = some file → 4096 ∣ a.position va →
      a.position va / 512 + file.inode.startBlock * 8 < 2 ^ 64 → ∀ i pos, SameFile file.inode i →
          content st'.kernel.fs i pos = content st.kernel.fs i pos
  | .store v d b => ∀ i pos, content st'.kernel.fs i pos =
      if i.inodeNum = v.id ∧ pos = v.indx * 4096 + d then b else content st.kernel.fs i pos

lemma SharedKept.loads (h : SharedKept st) : Loads st := by
  intro v hv f flags hpage inode hid d hd
  obtain ⟨f', flags', hf, hpage'⟩ := h.views v hv
  rw [hpage] at hpage'
  cases hpage'
  have hdiv : (v.indx * 4096 + d) / 4096 = v.indx := by omega
  have hmod : (v.indx * 4096 + d) % 4096 = d := by omega
  rw [content_eq, hid, hdiv, hf, hmod]

/-- Loading a page that had no entry changes no content. -/
lemma content_loaded {fs fs' : FsState} {inode i : Inode} {k pos : Nat}
    (h : Ready { fs' with faults := [] }) (hgrown : Grown fs inode.inodeNum fs')
    (hone : OneEntry fs'.cache)
    (hplaces : places fs'.cache = ((inode.inodeNum, k), f) :: places fs.cache)
    (hmem : fs'.mem = fun x => if direct f ≤ x ∧ x < direct f + 4096 then
      fs.disk ((inode.startBlock + k) * 4096 + (x - direct f)) else fs.mem x)
    (hi : SameFile inode i) : content fs' i pos = content fs i pos := by
  have hself : (places fs'.cache).lookup (inode.inodeNum, k) = some f := by
    rw [hplaces, lookup_cons_self]
  rw [content_eq, content_eq]
  by_cases hpage : i.inodeNum = inode.inodeNum ∧ pos / 4096 = k
  · have hnone : (places fs.cache).lookup (inode.inodeNum, k) = none := by
      rw [OneEntry, hplaces, map_cons, nodup_cons] at hone
      exact lookup_eq_none_iff.mpr hone.1
    rw [hpage.1, hpage.2, hself, hnone, hi hpage.1]
    simp only [hmem]
    rw [if_pos ⟨by omega, by omega⟩, Nat.add_sub_cancel_left]
  · have hne : ((i.inodeNum, pos / 4096) == (inode.inodeNum, k)) = false := by simpa using hpage
    rw [hplaces, lookup_cons, hne, hgrown.disk]
    cases hf : (places fs.cache).lookup (i.inodeNum, pos / 4096) with
    | none => rfl
    | some g =>
      have hg := hgrown.lookup hone hf
      have hfg : g ≠ f := by
        rintro rfl
        exact hpage (lookup_injective h.nodup hg hself)
      have hap := h.apart (mem_frames_of_lookup hg) (mem_frames_of_lookup hself) hfg
      simp only [Apart] at hap
      simp only [hmem]
      rw [if_neg (by omega)]

lemma SharedKept.observed (h : SharedKept st) (hgood : NoEntryYet st act)
    (hstep : SharedStep st act st') : Observed st st' act := by
  have hkept := h.step hgood hstep
  cases hstep with
  | dfsRead hcall hnull =>
    intro inode hreq hcond
    obtain ⟨rfl, st1, m, -, rfl, hbytes, -⟩ := dfsRead_loaded hreq hcond hcall
    exact ⟨hbytes, fun i pos hi => dfsRead_content hreq hcond hcall hi⟩
  | dfsWrite hcall hnull =>
    intro inode hreq hend hright i pos hi hpos
    exact dfsWrite_content hend hright hcall hi hreq pos
  | faultFailed harea hcall hnull =>
    intro file hfile _ _ i pos _
    obtain ⟨-, -, hgrown, hplaces, hmem⟩ := harea.failed hcall
    rw [content_eq, content_eq, hplaces, hmem, hgrown.disk]
  | faultMapped harea hcall hnull =>
    intro file' hfile hdvd hlba i pos hi
    rw [harea.file] at hfile
    cases hfile
    obtain ⟨paddr, k1, rfl, -, -, -, hgrown, hplaces, hmem⟩ := harea.mapped hcall
    refine content_loaded hkept.ready hgrown hkept.one hplaces ?_ hi
    have hsector : ∀ p s, 4096 ∣ p → p / 512 + s * 8 < 2 ^ 64 →
        add64 (p / 512) (s * 8) * 512 = (s + p / 4096) * 4096 := by
      intro p s hp hlt
      simp only [add64]
      omega
    rw [← hsector _ _ hdvd hlba]
    exact hmem
  | @store v f flags d b hv hpage hd =>
    intro i pos
    obtain ⟨f', flags', hf, hpage'⟩ := h.views v hv
    rw [hpage] at hpage'
    cases hpage'
    by_cases hsame : i.inodeNum = v.id ∧ pos / 4096 = v.indx
    · have hentry : (places st.kernel.fs.cache).lookup (i.inodeNum, pos / 4096) = some f := by
        rw [hsame.1, hsame.2, hf]
      have hstored : (places (st.store f d b).kernel.fs.cache).lookup (i.inodeNum, pos / 4096) =
          some f := hentry
      rw [content_of_lookup hstored]
      by_cases hd' : pos % 4096 = d
      · rw [if_pos ⟨hsame.1, by omega⟩, hd']
        exact update_self _ _ _
      · have hoff : direct f + pos % 4096 ≠ direct f + d := by omega
        rw [if_neg (by omega), content_of_lookup hentry]
        exact update_of_ne hoff _ _
    · rw [if_neg (fun hand => hsame ⟨hand.1, by omega⟩)]
      refine content_mem fun g hg => ?_
      have hne : g ≠ f := by
        rintro rfl
        exact hsame (lookup_injective h.ready.nodup hg hf)
      have hap := h.ready.apart (mem_frames_of_lookup hg) (mem_frames_of_lookup hf) hne
      simp only [Apart] at hap
      have hoff : direct g + pos % 4096 ≠ direct f + d := by omega
      exact update_of_ne hoff _ _

/-- In every run in which the faults find no entry, there is one copy of each page: loads
through mappings and right reads see the content of the file, and stores through
mappings and right writes change it. The next step keeps one copy exactly when it is
no fault that finds an entry. -/
theorem shared_one_copy_iff (run : sharedMachine.Reached NoEntryYet st) :
    sharedMachine.SafeExactlyWhen OneCopy NoEntryYet st ∧ Loads st ∧
      ∀ act st', SharedStep st act st' → NoEntryYet st act → Observed st st' act := by
  have hstart : ∀ st, sharedMachine.start st → SharedKept st := by
    rintro st ⟨hone, hready, hviews⟩
    exact ⟨hone, hready, fun v hv => absurd (hviews ▸ hv) (not_mem_nil)⟩
  have hkept : SharedKept st :=
    run.invariant hstart fun st act st' h hgood hstep => h.step hgood hstep
  refine ⟨?_, hkept.loads, fun act st' hstep hgood => hkept.observed hgood hstep⟩
  exact run.safeExactlyWhen hstart (fun st act st' h hgood hstep => h.step hgood hstep)
    (fun st h => h.oneCopy) fun st act st' _ hstep hbad => not_oneCopy_of_entry hstep hbad

/-! ## A mapping before and after a write -/

/-- The file that is mapped. -/
def mappedFile : OpenFile := ⟨[], ⟨3, 4096, 10, 1⟩⟩

def sharedWith (fs : FsState) : Kernel := { sharedKernel with fs := fs }

lemma sharedFault_sharedArea (fs : FsState) :
    SharedFault (sharedWith fs) 1 0 (mmapStart - 4096) 0 sharedArea mappedFile where
  area := by
    have hin : sharedArea.lower ≤ mmapStart - 4096 ∧ mmapStart - 4096 < sharedArea.base := by decide
    exact ⟨⟨0, 0, 0, 0, 0⟩, 1, rfl, fun h => Nat.not_lt_zero _ h.1, fun h => Nat.not_lt_zero _ h.2,
      if_pos (decide_eq_true hin), rfl, rfl⟩
  shared := by decide
  file := rfl

/-- The first fault in the area, with nothing in the cache. -/
theorem shared_one_copy_fault : ∃ st, sharedMachine.Reached NoEntryYet st ∧ st.views ≠ [] ∧
      sharedMachine.SafeExactlyWhen OneCopy NoEntryYet st ∧ Loads st ∧
      ∀ act st', SharedStep st act st' → NoEntryYet st act → Observed st st' act := by
  have hstart : sharedMachine.start ⟨sharedKernel, []⟩ :=
    ⟨nodup_nil, ⟨by decide, by decide, rfl⟩, rfl⟩
  have hgood : NoEntryYet ⟨sharedKernel, []⟩ (.fault 0 sharedArea (mmapStart - 4096)) :=
    fun _ _ _ => rfl
  have hstep : SharedStep ⟨sharedKernel, []⟩ _ _ :=
    .faultMapped (sharedFault_sharedArea sharedKernel.fs) sharedKernel_fault
      (by rw [sharedFaulted_cache]; decide)
  have run := Machine.Reached.step (M := sharedMachine) (.start hstart) hgood hstep
  exact ⟨_, run, cons_ne_nil _ _, shared_one_copy_iff run⟩

/-- Two free frames, and memory with a byte 1 everywhere. -/
def unwrittenFs : FsState :=
  ⟨[], [4096, 8192], [], fun _ => some mappedFile.inode, fun _ => 0, fun _ => 1⟩

lemma unwrittenFs_write : (dfsWrite 2 unwrittenFs [] 0x1000 0 1).map
        (fun r => (r.1.cache, r.1.free, r.1.faults, r.1.mem (direct 4096))) =
      some ([⟨3, 0, 4096, 1⟩], [8192], [], 1) := by decide +kernel

/-- A byte 1 is written to the file, then the page is touched in the shared area. The page
has two entries. The mapping and the next read see the old byte 0. -/
theorem shared_fault_second_copy : ∃ fs k', sharedMachine.start ⟨sharedWith unwrittenFs, []⟩ ∧
      SharedStep ⟨sharedWith unwrittenFs, []⟩ (.dfsWrite [] 0x1000 0 1) ⟨sharedWith fs, []⟩ ∧
      SharedStep ⟨sharedWith fs, []⟩ (.fault 0 sharedArea (mmapStart - 4096)) k' ∧
      ¬ OneCopy k' ∧ content fs mappedFile.inode 0 = 1 ∧
      content k'.kernel.fs mappedFile.inode 0 = 0 := by
  obtain ⟨⟨fs, n⟩, hwrite, hfs⟩ := map_eq_some_iff.mp unwrittenFs_write
  simp only [Prod.mk.injEq] at hfs
  obtain ⟨hcache, hfree, hfaults, hbyte⟩ := hfs
  obtain ⟨id, hgrown, -, -⟩ := transfer_grown hwrite
  have hstart : sharedMachine.start ⟨sharedWith unwrittenFs, []⟩ :=
    ⟨nodup_nil, ⟨by decide, by decide, rfl⟩, rfl⟩
  have hstep1 : SharedStep ⟨sharedWith unwrittenFs, []⟩ (.dfsWrite [] 0x1000 0 1)
      ⟨sharedWith fs, []⟩ :=
    .dfsWrite hwrite (by rw [hcache]; decide)
  have harea := sharedFault_sharedArea fs
  have hwith : (sharedWith fs).fs = fs := rfl
  have halloc : pmmAllocPage fs = (8192, { fs with free := [] }) := by rw [pmmAllocPage, hfree]
  rcases fillShared_cases (sharedWith fs) mappedFile (sharedArea.position (mmapStart - 4096)) with
    ⟨paddr, k1, hfill, -, -, -, hplaces, hmem⟩ | ⟨k1, -, hhead, -⟩
  · have hhandler := harea.handler
    rw [hfill] at hhandler
    have hpaddr : paddr = 8192 := by
      rw [Kernel.fillShared, Kernel.allocPage] at hfill
      split_ifs at hfill
      · have hsome := (Prod.mk.inj hfill).1
        simp only [sharedWith, halloc] at hsome
        exact (some.inj hsome).symm
      · cases hfill
    subst hpaddr
    have hnull : ∀ c ∈ k1.fs.cache, c.addr ≠ 0 := by
      rw [notNull_iff, hplaces, hwith, hcache]
      decide
    have hstep2 : SharedStep ⟨sharedWith fs, []⟩
        (.fault 0 sharedArea (mmapStart - 4096)) _ := .faultMapped harea hhandler hnull
    refine ⟨fs, _, hstart, hstep1, hstep2, not_oneCopy_of_entry hstep2 fun hgood => ?_, ?_, ?_⟩
    · have hnone := hgood mappedFile rfl (by rw [hwith, hfaults]; decide)
      rw [hwith, hcache] at hnone
      cases hnone
    · rw [content, hcache]
      exact hbyte
    · have hlookup : (places k1.fs.cache).lookup (mappedFile.inode.inodeNum, 0 / 4096) =
          some 8192 := by
        rw [hplaces]
        exact lookup_cons_self
      refine (content_of_lookup hlookup).trans ?_
      simp only [hmem]
      exact congrFun hgrown.disk _
  · rw [hwith, hfaults] at hhead
    cases hhead

end DestinX.Vm
