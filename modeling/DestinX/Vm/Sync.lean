import DestinX.Fs.Sync
import DestinX.Vm.SharedPages

/-!
# Where synced pages are loaded from

The sector of a page is computed in four ways: by `dfs_file_sync`, by `SYS_SYNC`, by `dfs_read`
with `dfs_write`, and by the fault in a shared area. They agree, so what was synced is what is
loaded again. `dfs_file_sync` counts the pages in an `int`, and `SYS_SYNC` goes over the list.
-/

namespace DestinX.Vm

open Base Fs List Nat

/-- The sector from which `dfs_read` loads the page. -/
def loadSector (inode : Inode) (indx : Nat) : Nat := add64 (indx * 8) (inode.startBlock * 8)

/-- The same for any page, by its inode number. -/
def sectorOf (inodeTable : Nat → Inode) (k : Nat × Nat) : Nat := loadSector (inodeTable k.1) k.2

/-- The block belongs to the extent of the inode. -/
def InExtent (inode : Inode) (b : Nat) : Prop :=
  inode.startBlock ≤ b ∧ b < inode.startBlock + inode.length

/-- One entry for each page, none being written, each inode at its number, and
extents on the disk that do not overlap and contain the cached pages. -/
structure SyncSetting (inodeTable : Nat → Inode) (st : FsState) : Prop where
  nodup : (st.cache.map CachePage.key).Nodup
  idle : ∀ c ∈ st.cache, c.writeback = false ∧ c.flags < 2 ^ 64
  number : ∀ n, (inodeTable n).inodeNum = n
  size : ∀ n, (inodeTable n).size < 2 ^ 64
  onDisk : ∀ n, ((inodeTable n).startBlock + (inodeTable n).length) * 8 ≤ 2 ^ 48
  disjoint : ∀ m n b, InExtent (inodeTable m) b → InExtent (inodeTable n) b → m = n
  inside : ∀ c ∈ st.cache, c.indx < (inodeTable c.id).length

/-- Whoever loads the page of the file from the disk gets these bytes. -/
structure LoadsPage (disk : Nat → UInt8) (inode : Inode) (indx : Nat) (bytes : Nat → UInt8) :
    Prop where
  read : ∀ (s : FsState) (first i flags : Nat), s.disk = disk → s.faults.head? ≠ some true →
    first + i = indx → ∃ s', loadPage inode first flags i s = .ok s' ∧
      ∀ d < 4096, s'.mem (direct (pmmAllocPage s).1 + d) = bytes d
  fault : ∀ (k : Kernel) (fp : List UInt8), k.fs.disk = disk → k.fs.faults.head? ≠ some true →
    ∃ paddr k', k.fillShared ⟨fp, inode⟩ (indx * 4096) = (some paddr, k') ∧
      ∀ d < 4096, k'.fs.mem (direct paddr + d) = bytes d

/-- The dirty pages among those of `sel` are written, others are not; nothing is left
marked, and what was written is what is loaded. -/
structure SyncCorrect (fails : Nat → Bool) (inodeTable : Nat → Inode) (sel : Nat × Nat → Bool)
    (st : FsState) (s' : FsState × Nat) : Prop where
  synced : Synced fails (sectorOf inodeTable) sel (st, 0) s'
  idle : ∀ c ∈ s'.1.cache, c.writeback = false
  loads : ∀ c ∈ st.cache, sel c.key → Flushed fails (sectorOf inodeTable) c →
    LoadsPage s'.1.disk (inodeTable c.id) c.indx fun d => st.mem (direct c.addr + d)

/-- `dfs_file_sync` for inode `n`: it returns, having written the dirty pages of the
file. -/
def FileSyncCorrect (fails : Nat → Bool) (inodeTable : Nat → Inode) (st : FsState) (n : Nat) :
    Prop :=
  ∃ s', dfsFileSync fails st (inodeTable n) = some s' ∧
    SyncCorrect fails inodeTable (fun k => k.1 = n ∧
      k.2 < ((inodeTable n).size + 4095) / 4096) st s'

/-- The pages can be counted in an `int`, and rounding up the size does not wrap around, or
else there is nothing to write. -/
def FileSyncCondition (inodeTable : Nat → Inode) (st : FsState) (n : Nat) : Prop :=
  filePages (inodeTable n).size < 2 ^ 31 ∧
    ((inodeTable n).size + 4095 < 2 ^ 64 ∨ ∀ c ∈ st.cache, c.id = n → c.dirty = false)

variable {fails : Nat → Bool} {inodeTable : Nat → Inode} {sel : Nat × Nat → Bool} {st : FsState}
  {s' : FsState × Nat} {inode : Inode} {disk bytes : Nat → UInt8} {n indx : Nat}

/-! ## The sectors -/

/-- Both calls write where `dfs_read` loads. -/
lemma syncSector_eq (inode : Inode) (i : Nat) : syncSector inode i = loadSector inode i := by
  rw [syncSector, loadSector, add64, add_mul, add_comm]

/-- So does a fault, for a position at a page boundary. -/
lemma sharedSector_eq (inode : Inode) (i : Nat) :
    add64 (i * 4096 / 512) (inode.startBlock * 8) = loadSector inode i := by
  rw [loadSector, show i * 4096 / 512 = i * 8 by omega]

lemma loadSector_eq (hdisk : (inode.startBlock + inode.length) * 8 ≤ 2 ^ 48)
    (hindx : indx < inode.length) : loadSector inode indx = (inode.startBlock + indx) * 8 := by
  rw [loadSector, add64, mod_eq_of_lt] <;> omega

lemma SyncSetting.ready (h : SyncSetting inodeTable st) :
    SyncReady (sectorOf inodeTable) st.cache := by
  refine ⟨h.nodup, h.idle, fun c hc c' hc' hne => ?_⟩
  have hin := h.inside c hc
  have hin' := h.inside c' hc'
  rw [sectorOf, sectorOf, CachePage.key, CachePage.key, loadSector_eq (h.onDisk c.id) hin,
    loadSector_eq (h.onDisk c'.id) hin']
  have hblock : (inodeTable c.id).startBlock + c.indx ≠
      (inodeTable c'.id).startBlock + c'.indx := by
    intro heq
    have hid : c.id = c'.id := h.disjoint _ _ _ ⟨le_add_right _ _, Nat.add_lt_add_left hin _⟩
      (heq ▸ ⟨le_add_right _ _, Nat.add_lt_add_left hin' _⟩)
    rw [hid] at heq
    exact hne (by rw [CachePage.key, CachePage.key, hid, add_left_cancel heq])
  simp only [Apart]
  omega

/-! ## Loading -/

lemma LoadsPage.of_disk (h : ∀ d < 4096, disk (loadSector inode indx * 512 + d) = bytes d) :
    LoadsPage disk inode indx bytes := by
  constructor
  · rintro s first i flags rfl hfaults rfl
    have halloc : (pmmAllocPage s).2.faults = s.faults ∧ (pmmAllocPage s).2.disk = s.disk := by
      rw [pmmAllocPage]
      split <;> exact ⟨rfl, rfl⟩
    rcases ahciRead_mem (pmmAllocPage s).2 (loadSector inode (first + i)) (pmmAllocPage s).1 with
      ⟨hhead, -⟩ | ⟨-, hok, hmem⟩
    · exact absurd (halloc.1 ▸ hhead) hfaults
    · refine ⟨_, if_pos hok, fun d hd => ?_⟩
      refine (congrFun hmem _).trans ?_
      rw [if_pos (by omega), Nat.add_sub_cancel_left, halloc.2]
      exact h d hd
  · rintro k fp rfl hfaults
    rcases fillShared_cases k ⟨fp, inode⟩ (indx * 4096) with
      ⟨paddr, k', hfill, -, -, -, -, hmem⟩ | ⟨k', -, hhead, -⟩
    · refine ⟨paddr, k', hfill, fun d hd => ?_⟩
      refine (congrFun hmem _).trans ?_
      rw [if_pos (by omega), Nat.add_sub_cancel_left, sharedSector_eq]
      exact h d hd
    · exact absurd hhead hfaults

lemma SyncSetting.correct (h : SyncSetting inodeTable st)
    (hsynced : Synced fails (sectorOf inodeTable) sel (st, 0) s') :
    SyncCorrect fails inodeTable sel st s' :=
  ⟨hsynced, fun c hc => ((hsynced.ready h.ready).2.idle c hc).1, fun c hc hsel hflushed =>
    LoadsPage.of_disk (hsynced.written c hc hsel hflushed)⟩

/-! ## The two calls -/

lemma filePages_wrapped (hsize : inode.size < 2 ^ 64) (hwrap : 2 ^ 64 ≤ inode.size + 4095) :
    filePages inode.size = 0 := by
  simp only [filePages, add64]
  omega

lemma dfsFileSync_nothing (hpages : filePages inode.size = 0) :
    dfsFileSync fails st inode = some (st, 0) := by
  rw [dfsFileSync, hpages]
  rfl

lemma SyncSetting.fileSyncCorrect (h : SyncSetting inodeTable st)
    (hcond : FileSyncCondition inodeTable st n) : FileSyncCorrect fails inodeTable st n := by
  obtain ⟨hpages, hwrap⟩ := hcond
  by_cases hfits : (inodeTable n).size + 4095 < 2 ^ 64
  · have hsector : ∀ i, sectorOf inodeTable ((inodeTable n).inodeNum, i) =
        syncSector (inodeTable n) i := by
      intro i
      rw [h.number, syncSector_eq]
      rfl
    obtain ⟨s', hs', hsynced⟩ : ∃ s', dfsFileSync fails st (inodeTable n) = some s' ∧ _ :=
      dfsFileSync_synced h.ready hsector hpages
    refine ⟨s', hs', h.correct (hsynced.congr fun c _ => ?_)⟩
    rw [h.number, filePages, add64, mod_eq_of_lt hfits]
  · refine ⟨(st, 0), dfsFileSync_nothing (filePages_wrapped (h.size n) (not_lt.mp hfits)),
      h.correct (Synced.none fun c hc hsel => ?_)⟩
    exact hwrap.resolve_left hfits c hc (of_decide_eq_true hsel).1

lemma SyncSetting.condition (h : SyncSetting inodeTable st)
    (hcorrect : FileSyncCorrect fails inodeTable st n) : FileSyncCondition inodeTable st n := by
  obtain ⟨s', hs', hsync⟩ := hcorrect
  have hpages : filePages (inodeTable n).size < 2 ^ 31 := by
    by_contra hlarge
    rw [dfsFileSync, if_pos (not_lt.mp hlarge)] at hs'
    cases hs'
  refine ⟨hpages, ?_⟩
  by_cases hfits : (inodeTable n).size + 4095 < 2 ^ 64
  · exact .inl hfits
  refine .inr fun c hc hid => ?_
  -- the call did nothing, which is right only if the page is clean
  have hzero := filePages_wrapped (h.size n) (not_lt.mp hfits)
  obtain rfl := Option.some_inj.mp (hs'.symm.trans (dfsFileSync_nothing hzero))
  by_contra hdirty
  rw [Bool.not_eq_false] at hdirty
  have hsel : (decide (c.key.1 = n ∧ c.key.2 < ((inodeTable n).size + 4095) / 4096)) = true := by
    have hin := h.inside c hc
    have hdisk := h.onDisk n
    rw [hid] at hin
    exact decide_eq_true ⟨hid, by simp only [CachePage.key]; omega⟩
  cases hfail : fails (sectorOf inodeTable c.key) with
  | true =>
    have hcount := hsync.synced.failed
    have hpos : 0 < st.cache.countP fun c => decide (c.key.1 = n ∧
        c.key.2 < ((inodeTable n).size + 4095) / 4096) && c.dirty &&
          fails (sectorOf inodeTable c.key) :=
      countP_pos_iff.mpr ⟨c, hc, by rw [hsel, hdirty, hfail]; rfl⟩
    simp only [zero_add] at hcount
    omega
  | false =>
    have hflushed : Flushed fails (sectorOf inodeTable) c = true := by simp [Flushed, hdirty, hfail]
    have hmem : c.clearFlag dirtyFlag ∈ st.cache := by
      rw [hsync.synced.cache]
      exact mem_map.mpr ⟨c, hc, by rw [hsel, hflushed]; rfl⟩
    have heq : c.clearFlag dirtyFlag = c := h.ready.unique hc hmem rfl
    have hclean := clearFlag_dirty c
    rw [heq, hdirty] at hclean
    cases hclean

/-- `dfs_file_sync` writes back the dirty pages of the file and returns the number of failed
writes exactly when the number of pages is an `int` and the size does not wrap around.
`SYS_SYNC` does so for all pages. -/
theorem sync_flushes_iff (h : SyncSetting inodeTable st) (fails : Nat → Bool) :
    (∀ n, FileSyncCorrect fails inodeTable st n ↔ FileSyncCondition inodeTable st n) ∧
      SyncCorrect fails inodeTable (fun _ => true) st (sysSync fails inodeTable st) := by
  refine ⟨fun n => ⟨h.condition, h.fileSyncCorrect⟩, h.correct (sysSync_synced h.ready fun k => ?_)⟩
  rw [syncSector_eq]
  rfl

/-- An inode table with one file, from block 10 on. -/
def oneFile (size length n : Nat) : Inode := if n = 3 then ⟨3, size, 10, length⟩ else ⟨n, 0, 0, 0⟩

/-- The first page of the file is cached, and dirty. -/
def dirtyPage : FsState :=
  ⟨[⟨3, 0, 4096, 1⟩], [], [], fun _ => none, fun _ => 0, fun _ => 7⟩

lemma oneFile_extent {size length b : Nat} (h : InExtent (oneFile size length n) b) : n = 3 := by
  by_contra hn
  rw [oneFile, if_neg hn] at h
  exact not_lt_zero b h.2

lemma dirtyPage_setting {size length : Nat} (hsize : size < 2 ^ 64) (hpos : 0 < length)
    (hlength : (10 + length) * 8 ≤ 2 ^ 48) : SyncSetting (oneFile size length) dirtyPage where
  nodup := by decide
  idle := by decide
  number n := by by_cases hn : n = 3 <;> simp [oneFile, hn]
  size n := by
    by_cases hn : n = 3
    · rw [oneFile, if_pos hn]
      exact hsize
    · rw [oneFile, if_neg hn]
      norm_num
  onDisk n := by
    by_cases hn : n = 3
    · rw [oneFile, if_pos hn]
      exact hlength
    · rw [oneFile, if_neg hn]
      norm_num
  disjoint m n b hm hn := (oneFile_extent hm).trans (oneFile_extent hn).symm
  inside c hc := by
    rw [mem_singleton.mp hc]
    exact hpos

/-- A file of one page. -/
theorem sync_flushes_page : FileSyncCorrect (fun _ => false) (oneFile 4096 1) dirtyPage 3 ∧
      SyncCorrect (fun _ => false) (oneFile 4096 1) (fun _ => true) dirtyPage
        (sysSync (fun _ => false) (oneFile 4096 1) dirtyPage) := by
  have hsync := sync_flushes_iff (dirtyPage_setting (show 4096 < 2 ^ 64 by norm_num)
    (show 0 < 1 by norm_num) (by norm_num)) fun _ => false
  refine ⟨(hsync.1 3).mpr ⟨by decide, .inl (by decide)⟩, hsync.2⟩

/-- A file of 8 TiB has `2 ^ 31` pages, more than the `int` can count. For a size right below
`2 ^ 64` the number of pages is 0: the call returns 0, and the page is still dirty. -/
theorem file_sync_counts_too_few : (SyncSetting (oneFile (2 ^ 43) (2 ^ 31)) dirtyPage ∧
      dfsFileSync (fun _ => false) dirtyPage (oneFile (2 ^ 43) (2 ^ 31) 3) = none ∧
      ¬ FileSyncCorrect (fun _ => false) (oneFile (2 ^ 43) (2 ^ 31)) dirtyPage 3) ∧
    (SyncSetting (oneFile (2 ^ 64 - 1) 1) dirtyPage ∧
      dfsFileSync (fun _ => false) dirtyPage (oneFile (2 ^ 64 - 1) 1 3) = some (dirtyPage, 0) ∧
      ¬ FileSyncCorrect (fun _ => false) (oneFile (2 ^ 64 - 1) 1) dirtyPage 3) := by
  have hlarge : SyncSetting (oneFile (2 ^ 43) (2 ^ 31)) dirtyPage :=
    dirtyPage_setting (by norm_num) (by norm_num) (by norm_num)
  have hwrapped : SyncSetting (oneFile (2 ^ 64 - 1) 1) dirtyPage :=
    dirtyPage_setting (by norm_num) (by norm_num) (by norm_num)
  refine ⟨⟨hlarge, if_pos (by decide), fun hcorrect => ?_⟩,
    hwrapped, dfsFileSync_nothing (by decide), fun hcorrect => ?_⟩
  · exact absurd (hlarge.condition hcorrect).1 (by decide)
  · rcases (hwrapped.condition hcorrect).2 with hfits | hclean
    · exact absurd hfits (by decide)
    · exact absurd (hclean _ mem_cons_self rfl) (by decide)

end DestinX.Vm
