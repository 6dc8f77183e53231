import DestinX.Fs.Read

/-!
# `dfs_write`

The offset is added to the address of the first page of the request as it is, not modulo the
page size, and the other two cases take it for an offset within the first page of the file. The
last page of a request that ends on a page boundary is not copied.
-/

namespace DestinX.Fs

open Base List Option Nat

variable {st st' : FsState} {fp : List UInt8} {inode : Inode} {buffer offset size : Nat}
  {r : FsState × Nat}

/-! ## Dirty pages -/

/-- If page `k` of the file is cached, its entry has `DIRTY_FLAG`. -/
def DirtyAt (cache : List CachePage) (id k : Nat) : Prop :=
  ∀ c, getPageCache cache id k = some c → c.flags &&& dirtyFlag = dirtyFlag

lemma or_dirtyFlag (flags : Nat) : (flags ||| dirtyFlag) &&& dirtyFlag = dirtyFlag := by
  apply eq_of_testBit_eq
  intro i
  simp only [testBit_and, testBit_or]
  cases testBit dirtyFlag i <;> simp

lemma markDirty_dirtyAt (id k : Nat) (cache : List CachePage) :
    DirtyAt (markDirty id k cache) id k := by
  intro c hc
  rw [getPageCache_markDirty] at hc
  obtain ⟨c', -, rfl⟩ := map_eq_some_iff.mp hc
  rw [if_pos rfl]
  exact or_dirtyFlag c'.flags

lemma DirtyAt.markDirty {cache : List CachePage} {id k : Nat} (h : DirtyAt cache id k) (k' : Nat) :
    DirtyAt (markDirty id k' cache) id k := by
  intro c hc
  rw [getPageCache_markDirty] at hc
  obtain ⟨c', hc', rfl⟩ := map_eq_some_iff.mp hc
  split_ifs
  · exact or_dirtyFlag c'.flags
  · exact h c' hc'

lemma writeMode_mark_dirtyAt (id first count : Nat) (cache : List CachePage) {i : Nat}
    (hi : i < count) : DirtyAt (writeMode.mark id first count cache) id (first + i) := by
  -- a page that is dirty stays dirty, so only its own turn matters
  have hkeep : ∀ (is : List Nat) (cache : List CachePage), DirtyAt cache id (first + i) →
      DirtyAt (is.foldl (fun cache i => markDirty id (first + i) cache) cache) id (first + i) := by
    intro is
    induction is with
    | nil => exact fun cache h => h
    | cons j is ih => exact fun cache h => ih _ (h.markDirty (first + j))
  have hmark : ∀ (is : List Nat) (cache : List CachePage), i ∈ is →
      DirtyAt (is.foldl (fun cache i => markDirty id (first + i) cache) cache) id (first + i) := by
    intro is
    induction is with
    | nil => exact fun cache h => absurd h not_mem_nil
    | cons j is ih =>
      intro cache h
      rcases mem_cons.mp h with rfl | h
      · exact hkeep is _ (markDirty_dirtyAt id (first + i) cache)
      · exact ih _ h
  exact hmark _ cache (mem_range.mpr hi)

/-! ## What is copied -/

/-- What is added to the address of page `j`. -/
def writeStart (offset j : Nat) : Nat := if j = 0 then offset else 0

/-- The copy for page `j` of a request. -/
def writeCopy (st : FsState) (inode : Inode) (buffer offset size j : Nat) : Copy :=
  ⟨add64 (direct (framesOf st inode offset j)) (writeStart offset j), buffer + pieceStart offset j,
    pieceLen (pagesTouched offset size) offset size j⟩

lemma writeCopies_spec (h : Request st fp inode buffer size offset size)
    (hint : pagesTouched offset size ≤ 524290) (ho : offset ≤ 4096 ∨ pagesTouched offset size = 1) :
    ∃ ps, pieces (pageCount offset size) (framesOf st inode offset) buffer offset size
        (writeMode.start offset) = some ps ∧
      ∀ c, c ∈ ps.map writeMode.copy ↔
        ∃ j < pagesTouched offset size, c = writeCopy st inode buffer offset size j := by
  apply h.copies_spec writeMode hint ho
  intro j
  simp [writeMode, pieceAt, writeCopy, writeStart]

/-! ## Requests that are written correctly -/

/-- The request starts in the first page of the file. It ends there, or else not on a
page boundary. -/
def WritesRight (offset size : Nat) : Prop :=
  offset < 4096 ∧ (offset + size ≤ 4096 ∨
    ((offset + size) % 4096 ≠ 0 ∧ pagesTouched offset size ≤ 524290))

section

variable (h : WritesRight offset size)
include h

lemma WritesRight.bounds (hs : 0 < size) :
    pagesTouched offset size ≤ 524290 ∧ (offset ≤ 4096 ∨ pagesTouched offset size = 1) := by
  obtain ⟨hpos, hle, hlt⟩ := pagesTouched_bounds offset hs
  obtain ⟨ho, hpage | ⟨-, hint⟩⟩ := h
  · exact ⟨by omega, .inl ho.le⟩
  · exact ⟨hint, .inl ho.le⟩

/-- The bytes of page `j` that are written are those of the request. -/
lemma WritesRight.covered (hs : 0 < size) {j d : Nat} (hj : j < pagesTouched offset size)
    (hd : d < 4096) : (writeStart offset j ≤ d ∧
        d < writeStart offset j + pieceLen (pagesTouched offset size) offset size j) ↔
      offset ≤ j * 4096 + d ∧ j * 4096 + d < offset + size := by
  obtain ⟨hpos, hle, hlt⟩ := pagesTouched_bounds offset hs
  obtain ⟨ho, hend⟩ := h
  simp only [writeStart, pieceLen]
  generalize pagesTouched offset size = n at *
  split_ifs <;> omega

lemma WritesRight.inPage (hs : 0 < size) (j : Nat) :
    writeStart offset j + pieceLen (pagesTouched offset size) offset size j ≤ 4096 := by
  obtain ⟨hpos, hle, hlt⟩ := pagesTouched_bounds offset hs
  obtain ⟨ho, hend⟩ := h
  simp only [writeStart, pieceLen]
  generalize pagesTouched offset size = n at *
  split_ifs <;> omega

lemma WritesRight.source {j d : Nat} (hd : writeStart offset j ≤ d) :
    pieceStart offset j + (d - writeStart offset j) = j * 4096 + d - offset := by
  have ho := h.1
  simp only [writeStart, pieceStart] at hd ⊢
  split_ifs at hd ⊢ <;> omega

lemma WritesRight.first : offset / 4096 = 0 :=
  div_eq_of_lt h.1

/-- The copies of such a request go to its pages. -/
lemma WritesRight.dst (hr : Ready st)
    (hall : AllCached st.cache inode offset (pagesTouched offset size)) {j : Nat}
    (hj : j < pagesTouched offset size) : (writeCopy st inode buffer offset size j).dst =
      direct (framesOf st inode offset j) + writeStart offset j := by
  have ho := h.1
  obtain ⟨-, -, hf⟩ := hr.frame _ (hall.framesOf_mem hj)
  have hstart : writeStart offset j < 4096 := by
    simp only [writeStart]
    split_ifs <;> omega
  simp only [writeCopy, add64]
  rw [direct_eq hf]
  omega

end

variable {cs : List Copy}

section

variable (h : Request st fp inode buffer size offset size)
  (hall : AllCached st.cache inode offset (pagesTouched offset size))
  (hright : WritesRight offset size)
include h hall hright

section

variable (hcs : ∀ c, c ∈ cs ↔ ∃ j < pagesTouched offset size,
  c = writeCopy st inode buffer offset size j)
include hcs

lemma writeCopies_apart : ∀ c ∈ cs, ∀ c' ∈ cs, Apart c.dst c.len c'.src c'.len := by
  intro c hc c' hc'
  obtain ⟨j, hj, rfl⟩ := (hcs c).mp hc
  obtain ⟨j', hj', rfl⟩ := (hcs c').mp hc'
  have hframe := h.apart _ (hall.framesOf_mem hj)
  have hin := hright.inPage h.positive j
  have hsrc := pieceStart_add_len_le h.positive hj'
  rw [hright.dst h.ready hall hj]
  simp only [Apart, writeCopy] at hframe ⊢
  omega

lemma writeCopies_canonical : ∀ c ∈ cs, Canonical c.dst c.len ∧ Canonical c.src c.len := by
  intro c hc
  obtain ⟨j, hj, rfl⟩ := (hcs c).mp hc
  have hsrc := pieceStart_add_len_le h.positive hj
  have hin := hright.inPage h.positive j
  constructor
  · rw [hright.dst h.ready hall hj]
    apply (h.ready.canonical (hall.framesOf_mem hj)).sub
    · exact le_add_right _ _
    · simp only [writeCopy]
      omega
  · apply h.canonical.sub
    · exact le_add_right _ _
    · simp only [writeCopy]
      omega

lemma writeCopies_byte {k d : Nat} {c : CachePage}
    (hc : getPageCache st.cache inode.inodeNum k = some c) (hd : d < 4096) :
    runCopies st.mem cs (direct c.addr + d) =
      if offset ≤ k * 4096 + d ∧ k * 4096 + d < offset + size then
        st.mem (buffer + (k * 4096 + d - offset))
      else st.mem (direct c.addr + d) := by
  rcases runCopies_source (m := st.mem) (writeCopies_apart h hall hright hcs)
    (direct c.addr + d) with
    ⟨hsame, hnone⟩ | ⟨_, hmem, hcov, hbyte⟩
  · rw [hsame, if_neg]
    intro hin
    have hend := (pagesTouched_bounds offset h.positive).2.1
    have hk : k < pagesTouched offset size := by
      have := mod_eq_of_lt hright.1
      omega
    have hframe : framesOf st inode offset k = c.addr := by
      apply cachedPages_eq
      rw [hright.first, zero_add]
      exact hc
    apply hnone _ ((hcs _).mpr ⟨k, hk, rfl⟩)
    have hcov := (hright.covered h.positive hk hd).mpr hin
    rw [Copy.Covers, hright.dst h.ready hall hk, hframe]
    simp only [writeCopy]
    omega
  · obtain ⟨j, hj, rfl⟩ := (hcs _).mp hmem
    obtain ⟨c', hc'⟩ := ne_none_iff_exists'.mp (hall j hj)
    have hframe : framesOf st inode offset j = c'.addr := cachedPages_eq hc'
    have hin := hright.inPage h.positive j
    rw [Copy.Covers, hright.dst h.ready hall hj, hframe] at hcov
    simp only [writeCopy] at hcov
    -- the frame that is written is the frame of page `k`
    have haddr : c'.addr = c.addr := by
      by_contra hne
      have hap := h.ready.apart (mem_frames_of_cached hc') (mem_frames_of_cached hc) hne
      simp only [Apart] at hap
      omega
    have hkj : j = k := by
      have := h.ready.addr_injective hc' hc haddr
      rw [hright.first] at this
      omega
    subst hkj
    rw [haddr] at hcov
    rw [if_pos ((hright.covered h.positive hj hd).mp ⟨by omega, by omega⟩), hbyte,
      hright.dst h.ready hall hj, hframe, haddr]
    simp only [writeCopy]
    rw [← hright.source (show writeStart offset j ≤ d by omega)]
    congr 1
    omega

end

/-- The content of the file, the marks and the memory after a call that finds all
pages. -/
lemma hit_write : ∃ cache' m, writeMode.hit inode st buffer offset size =
        some ({ st with cache := cache', mem := m }, size) ∧
      SameAddrs st.cache cache' ∧
      (∀ k < pagesTouched offset size, DirtyAt cache' inode.inodeNum k) ∧
      (∀ pos, content { st with cache := cache', mem := m } inode pos =
        if offset ≤ pos ∧ pos < offset + size then st.mem (buffer + (pos - offset))
        else content st inode pos) ∧
      ∀ a, (∀ pos, offset ≤ pos → pos < offset + size →
        a ≠ direct (framesOf st inode offset (pos / 4096)) + pos % 4096) → m a = st.mem a := by
  obtain ⟨hint, hplace⟩ := hright.bounds h.positive
  obtain ⟨ps, hps, hcs⟩ := writeCopies_spec h hint hplace
  have hcan := writeCopies_canonical h hall hright hcs
  have ho : offset < 2 ^ 64 := lt_of_le_of_lt h.offset_lt (by norm_num)
  have hcount := h.pageCount (lt_of_le_of_lt hint (by norm_num))
  have hsame := mark_same writeMode inode.inodeNum (offset / 4096) (pageCount offset size) st.cache
  have hend := (pagesTouched_bounds offset h.positive).2.1
  rw [mod_eq_of_lt hright.1] at hend
  refine ⟨_, _, (hit_eq_some ho).mpr ⟨ps, hps, hcan, rfl⟩, hsame, fun k hk => ?_, fun pos => ?_,
    fun a ha => ?_⟩
  · have hdirty := writeMode_mark_dirtyAt inode.inodeNum (offset / 4096) (pageCount offset size)
      st.cache (hcount ▸ hk)
    rw [hright.first, zero_add] at hdirty
    rw [hright.first]
    exact hdirty
  · refine (content_congr { st with mem := runCopies st.mem (ps.map writeMode.copy) } hsame inode
      pos).trans ?_
    simp only [content]
    cases hc : getPageCache st.cache inode.inodeNum (pos / 4096) with
    | none =>
      refine (if_neg fun hin => ?_).symm
      apply hall (pos / 4096) (by omega)
      rw [hright.first, zero_add]
      exact hc
    | some c =>
      have hbyte := writeCopies_byte h hall hright hcs hc (mod_lt pos (by norm_num))
      rw [div_add_mod'] at hbyte
      exact hbyte
  · apply runCopies_outside
    intro c hc hcov
    obtain ⟨j, hj, rfl⟩ := (hcs c).mp hc
    have hin := hright.inPage h.positive j
    rw [Copy.Covers, hright.dst h.ready hall hj] at hcov
    simp only [writeCopy] at hcov
    obtain ⟨d, rfl⟩ : ∃ d, a = direct (framesOf st inode offset j) + d :=
      ⟨a - direct (framesOf st inode offset j), by omega⟩
    have hd : d < 4096 := by omega
    obtain ⟨hle, hlt⟩ := (hright.covered h.positive hj hd).mp ⟨by omega, by omega⟩
    apply ha (j * 4096 + d) hle hlt
    rw [show (j * 4096 + d) / 4096 = j by omega, show (j * 4096 + d) % 4096 = d by omega]

end

/-! ## Requests that are not -/

/-- With several pages, a byte that is written lies in the page it is written for. -/
lemma writeCopy_inPage (hr : Ready st)
    (hall : AllCached st.cache inode offset (pagesTouched offset size))
    (htwo : 2 ≤ pagesTouched offset size) (ho : offset ≤ 4096) {j x : Nat}
    (hj : j < pagesTouched offset size)
    (hcov : (writeCopy st inode buffer offset size j).Covers x) :
    direct (framesOf st inode offset j) ≤ x ∧ x < direct (framesOf st inode offset j) + 4096 := by
  obtain ⟨-, -, hf⟩ := hr.frame _ (hall.framesOf_mem hj)
  simp only [Copy.Covers, writeCopy, add64, writeStart, pieceLen] at hcov
  rw [direct_eq hf] at hcov ⊢
  generalize pagesTouched offset size = n at *
  generalize framesOf st inode offset j = f at *
  split_ifs at hcov <;> omega

section

variable (h : Request st fp inode buffer size offset size)
  (hall : AllCached st.cache inode offset (pagesTouched offset size))
include h hall

/-- The first byte of a page to which nothing is copied is not written. -/
lemma not_covered_of_empty (htwo : 2 ≤ pagesTouched offset size) (ho : offset ≤ 4096) {j d : Nat}
    (hj : j < pagesTouched offset size) (hd : d < 4096)
    (hempty : pieceLen (pagesTouched offset size) offset size j = 0) {j' : Nat}
    (hj' : j' < pagesTouched offset size) :
    ¬ (writeCopy st inode buffer offset size j').Covers
      (direct (framesOf st inode offset j) + d) := by
  intro hcov
  by_cases heq : j' = j
  · subst heq
    simp only [Copy.Covers, writeCopy] at hcov
    omega
  · obtain ⟨c, hc⟩ := ne_none_iff_exists'.mp (hall j hj)
    obtain ⟨c', hc'⟩ := ne_none_iff_exists'.mp (hall j' hj')
    have hin := writeCopy_inPage h.ready hall htwo ho hj' hcov
    have hframe : framesOf st inode offset j = c.addr := cachedPages_eq hc
    have hframe' : framesOf st inode offset j' = c'.addr := cachedPages_eq hc'
    have hne : c'.addr ≠ c.addr := by
      intro he
      have := h.ready.addr_injective hc' hc he
      omega
    have hap := h.ready.apart (mem_frames_of_cached hc') (mem_frames_of_cached hc) hne
    rw [hframe, hframe'] at hin
    simp only [Apart] at hap
    omega

/-- Some byte of the request is not written where it belongs. -/
lemma exists_unwritten (hright : ¬ WritesRight offset size)
    (hint : pagesTouched offset size ≤ 524290) (ho : offset ≤ 4096 ∨ pagesTouched offset size = 1) :
    ∃ t < size, ∃ j < pagesTouched offset size, ∃ d < 4096,
      offset + t = (offset / 4096 + j) * 4096 + d ∧
      ∀ j' < pagesTouched offset size, ¬ (writeCopy st inode buffer offset size j').Covers
        (direct (framesOf st inode offset j) + d) := by
  have hs := h.positive
  obtain ⟨hpos, hle, hlt⟩ := pagesTouched_bounds offset hs
  by_cases hone : pagesTouched offset size = 1
  -- the address lies behind the page
  · have hfar : 4096 ≤ offset := by
      by_contra hnear
      exact hright ⟨by omega, .inl (by omega)⟩
    refine ⟨0, hs, 0, hpos, offset % 4096, mod_lt _ (by norm_num), by omega, fun j' hj' => ?_⟩
    obtain rfl : j' = 0 := by omega
    have hoff := h.offset_lt
    simp only [Copy.Covers, writeCopy, add64, writeStart, pieceLen, if_pos hone]
    generalize framesOf st inode offset 0 = f at *
    simp only [if_true]
    omega
  · have htwo : 2 ≤ pagesTouched offset size := by omega
    have ho : offset ≤ 4096 := ho.resolve_right hone
    by_cases heq : offset = 4096
    -- no byte is left for the first page
    · refine ⟨0, hs, 0, hpos, 0, by norm_num, by omega, fun j' hj' => ?_⟩
      apply not_covered_of_empty h hall htwo ho hpos (by norm_num) _ hj'
      rw [pieceLen, if_neg hone, if_pos rfl]
      omega
    -- nor for the last one
    · have hend : (offset + size) % 4096 = 0 := by
        by_contra hne
        exact hright ⟨by omega, .inr ⟨hne, hint⟩⟩
      refine ⟨(pagesTouched offset size - 1) * 4096 - offset, by omega,
        pagesTouched offset size - 1, by omega, 0, by norm_num, by omega, fun j' hj' => ?_⟩
      apply not_covered_of_empty h hall htwo ho (by omega) (by norm_num) _ hj'
      rw [pieceLen, if_neg hone, if_neg (by omega), if_pos (by omega), add_comm]
      exact hend

lemma hit_write_unwritten (hn : pagesTouched offset size < 2 ^ 31)
    (hright : ¬ WritesRight offset size) (hr : writeMode.hit inode st buffer offset size = some r) :
    ∃ t < size, content r.1 inode (offset + t) = content st inode (offset + t) := by
  by_cases hbad : 524290 < pagesTouched offset size ∨ (4096 < offset ∧ 2 ≤ pagesTouched offset size)
  · exact absurd hr (hit_none h (fun _ => rfl) hn hbad)
  have hpos := (pagesTouched_bounds offset h.positive).1
  have hint : pagesTouched offset size ≤ 524290 := by omega
  have ho : offset ≤ 4096 ∨ pagesTouched offset size = 1 := by omega
  have hlt : offset < 2 ^ 64 := lt_of_le_of_lt h.offset_lt (by norm_num)
  obtain ⟨ps, hps, hcs⟩ := writeCopies_spec h hint ho
  obtain ⟨ps', hps', -, rfl⟩ := (hit_eq_some hlt).mp hr
  obtain rfl : ps = ps' := some_inj.mp (hps.symm.trans hps')
  obtain ⟨t, ht, j, hj, d, hd, hpage, hfree⟩ := exists_unwritten h hall hright hint ho
  have hsame := mark_same writeMode inode.inodeNum (offset / 4096) (pageCount offset size) st.cache
  have hbyte : content { st with mem := runCopies st.mem (ps.map writeMode.copy) } inode
      ((offset / 4096 + j) * 4096 + d) =
      runCopies st.mem (ps.map writeMode.copy) (direct (framesOf st inode offset j) + d) := by
    apply AllCached.content _ hj hd
    exact hall
  refine ⟨t, ht, (content_congr { st with mem := runCopies st.mem (ps.map writeMode.copy) }
    hsame inode (offset + t)).trans ?_⟩
  rw [hpage, hall.content hj hd, hbyte]
  refine runCopies_outside fun c hc => ?_
  obtain ⟨j', hj', rfl⟩ := (hcs c).mp hc
  exact hfree j' hj'

end

/-! ## The contract -/

/-- The call returns the size; the file has the bytes of the buffer at the requested
positions and its old bytes elsewhere; the cached page of every byte that changed has
`DIRTY_FLAG`; and memory changes only at the requested positions of the cached pages,
and in the frames that the call allocates for the cache. -/
def WriteCorrect (st : FsState) (fp : List UInt8) (inode : Inode) (buffer offset size : Nat) :
    Prop :=
  ∃ fuel st', dfsWrite fuel st fp buffer offset size = some (st', size) ∧
    (∀ pos < inode.size, content st' inode pos =
      if offset ≤ pos ∧ pos < offset + size then st.mem (buffer + (pos - offset))
      else content st inode pos) ∧
    (∀ pos < inode.size, content st' inode pos ≠ content st inode pos →
      ∃ c, getPageCache st'.cache inode.inodeNum (pos / 4096) = some c ∧
        c.flags &&& dirtyFlag = dirtyFlag) ∧
    ∀ a, (∀ pos, offset ≤ pos → pos < offset + size →
        ∀ c, getPageCache st'.cache inode.inodeNum (pos / 4096) = some c →
          a ≠ direct c.addr + pos % 4096) →
      (∀ f ∈ st.free, f ∉ st'.free → ¬ (direct f ≤ a ∧ a < direct f + 4096)) → st'.mem a = st.mem a

/-- Memory that is 1 in the buffer and 0 elsewhere. -/
def onesAt (buffer size : Nat) : Mem := fun a => if buffer ≤ a ∧ a < buffer + size then 1 else 0

/-- Then the file is 0 everywhere, on an empty disk. -/
lemma content_onesAt (h : Request st fp inode buffer size offset size) (pos : Nat) :
    content { st with disk := fun _ => 0, mem := onesAt buffer size } inode pos = 0 := by
  simp only [content]
  cases hc : getPageCache st.cache inode.inodeNum (pos / 4096) with
  | none => rfl
  | some c =>
    have hap := h.apart c.addr (mem_frames_of_cached hc)
    simp only [Apart] at hap
    exact if_neg (by omega)

section

variable (h : Request st fp inode buffer size offset size) (hend : offset + size ≤ inode.size)
include h hend

/-- The call returns what a call returns that finds all pages, in a state with the same
content of the file and the same memory outside of frames that were free. -/
lemma returns_write (hn : pagesTouched offset size < 2 ^ 31) :
    ∃ st1, Request st1 fp inode buffer size offset size ∧
      AllCached st1.cache inode offset (pagesTouched offset size) ∧
      (∀ pos, content st1 inode pos = content st inode pos) ∧
      (∀ a, (∀ f ∈ st.free, f ∉ st1.free → ¬ (direct f ≤ a ∧ a < direct f + 4096)) →
        st1.mem a = st.mem a) ∧
      ∀ r, Returns writeMode st fp buffer offset size r ↔
        writeMode.hit inode st1 buffer offset size = some r := by
  have hcount := h.pageCount hn
  by_cases hall : AllCached st.cache inode offset (pagesTouched offset size)
  · exact ⟨st, h, hall, fun _ => rfl, fun _ _ => rfl,
      fun r => returns_hit h (hcount ▸ hn) (hcount ▸ hall)⟩
  · obtain ⟨st1, hext, hall1, hagain⟩ := returns_miss writeMode h (hcount ▸ hn) (hcount ▸ hall)
    have hreq := h.again hext hall1 h.positive h.word
    have hcut : cutSize inode offset size = size := by
      rw [h.cutSize hn]
      omega
    refine ⟨st1, hreq, hcount ▸ hall1, hext.unmarked.1, hext.unmarked.2, fun r => ?_⟩
    rw [hagain, hcut]
    exact returns_hit hreq (hcount ▸ hn) hall1

lemma writeCorrect_of_writesRight (hright : WritesRight offset size) :
    WriteCorrect st fp inode buffer offset size := by
  have hn := lt_of_le_of_lt (hright.bounds h.positive).1 (show 524290 < 2 ^ 31 by norm_num)
  obtain ⟨st1, hreq, hall, hcontent, hmem, hreturns⟩ := returns_write h hend hn
  obtain ⟨cache', m, hhit, hsame, hdirty, hbytes, hout⟩ := hit_write hreq hall hright
  obtain ⟨fuel, hfuel⟩ := (hreturns _).mpr hhit
  have hpages := (pagesTouched_bounds offset h.positive).2.1
  rw [mod_eq_of_lt hright.1] at hpages
  have hcached : ∀ pos, pos < offset + size → ∃ c c',
      getPageCache st1.cache inode.inodeNum (pos / 4096) = some c ∧
      getPageCache cache' inode.inodeNum (pos / 4096) = some c' ∧ c'.addr = c.addr := by
    intro pos hpos
    have hne := hall (pos / 4096) (by omega)
    rw [hright.first, zero_add] at hne
    obtain ⟨c, hc⟩ := ne_none_iff_exists'.mp hne
    have hl := hsame.lookup inode.inodeNum (pos / 4096)
    rw [hc] at hl
    obtain ⟨c', hc', haddr⟩ := map_eq_some_iff.mp hl
    exact ⟨c, c', hc, hc', haddr⟩
  have hbuffer : ∀ k < size, st1.mem (buffer + k) = st.mem (buffer + k) := by
    intro k hk
    refine hmem _ fun f hf _ hin => ?_
    have hap := h.apart f (mem_append_right _ hf)
    simp only [Apart] at hap
    omega
  have hafter : ∀ pos, content { st1 with cache := cache', mem := m } inode pos =
      if offset ≤ pos ∧ pos < offset + size then st.mem (buffer + (pos - offset))
      else content st inode pos := by
    intro pos
    rw [hbytes, hcontent]
    split_ifs with hin
    · exact hbuffer (pos - offset) (by omega)
    · rfl
  refine ⟨fuel, _, hfuel, fun pos _ => hafter pos, fun pos _ hchanged => ?_, fun a ha hfree => ?_⟩
  · have hin : offset ≤ pos ∧ pos < offset + size := by
      by_contra hnot
      exact hchanged ((hafter pos).trans (if_neg hnot))
    obtain ⟨c, c', -, hc', -⟩ := hcached pos hin.2
    exact ⟨c', hc', hdirty (pos / 4096) (by omega) c' hc'⟩
  · refine (hout a fun pos hle hlt => ?_).trans (hmem a hfree)
    obtain ⟨c, c', hc, hc', haddr⟩ := hcached pos hlt
    have hframe : framesOf st1 inode offset (pos / 4096) = c.addr := by
      apply cachedPages_eq
      rw [hright.first, zero_add]
      exact hc
    rw [hframe, ← haddr]
    exact ha pos hle hlt c' hc'

lemma not_writeCorrect (hright : ¬ WritesRight offset size) :
    ¬ WriteCorrect { st with disk := fun _ => 0, mem := onesAt buffer size } fp inode buffer offset
      size := by
  have hreq := h.withBytes (fun _ => 0) (onesAt buffer size)
  rintro ⟨fuel, st', hfuel, hcontent, -⟩
  by_cases hn : pagesTouched offset size < 2 ^ 31
  · obtain ⟨st1, hreq1, hall, hsame, -, hreturns⟩ := returns_write hreq hend hn
    obtain ⟨t, ht, hkept⟩ := hit_write_unwritten hreq1 hall hn hright
      ((hreturns _).mp ⟨fuel, hfuel⟩)
    have hone := hcontent (offset + t) (by omega)
    rw [if_pos ⟨by omega, by omega⟩] at hone
    have hzero : content st' inode (offset + t) = 0 :=
      hkept.trans ((hsame _).trans (content_onesAt h _))
    have hbuf : onesAt buffer size (buffer + (offset + t - offset)) = 1 :=
      if_pos ⟨by omega, by omega⟩
    exact absurd (hzero.symm.trans (hone.trans hbuf)) (by decide)
  · exact not_returns_large hreq (fun _ => rfl) (not_lt.mp hn) ⟨fuel, hfuel⟩

/-- `dfs_write` changes exactly the requested bytes, for every content of memory and
disk, exactly when the request meets the condition. -/
theorem dfs_write_correct_iff :
    (∀ disk mem, WriteCorrect { st with disk := disk, mem := mem } fp inode buffer offset size) ↔
      WritesRight offset size := by
  constructor
  · intro hcorrect
    by_contra hright
    exact not_writeCorrect h hend hright (hcorrect _ _)
  · intro hright disk mem
    exact writeCorrect_of_writesRight (h.withBytes disk mem) hend hright

end

/-- Four bytes written into a cached page. -/
theorem dfs_write_correct_small : WritesRight 3 4 ∧ ∀ disk mem,
    WriteCorrect { smallFileCached with disk := disk, mem := mem } [] smallFile 0x200000 3 4 := by
  have hreq : Request smallFileCached [] smallFile 0x200000 4 3 4 :=
    smallFile_request (show 0 < 4 by norm_num) (show 3 + 4 ≤ 16 by norm_num)
  have hright : WritesRight 3 4 := ⟨by norm_num, .inl (by norm_num)⟩
  exact ⟨hright, (dfs_write_correct_iff hreq (by decide)).mpr hright⟩

/-- A file of two pages, of which the second is cached. -/
def largeFile : Inode := ⟨1, 8192, 100, 2⟩

def largeFileCached : FsState :=
  ⟨[⟨1, 1, 0x5000, 0⟩], [], [], fun _ => some largeFile, fun _ => 0, fun _ => 0⟩

lemma largeFile_request : Request largeFileCached [] largeFile 0x200000 4 4096 4 := by
  have hframes : ∀ f ∈ frames largeFileCached, f = 0x5000 := fun f hf => mem_singleton.mp hf
  have hcount : pageCount 4096 4 = 1 := by
    rw [pageCount_eq_touched (by norm_num) (by norm_num)] <;> norm_num [pagesTouched]
  refine ⟨⟨fun f hf => ?_, nodup_singleton _, rfl⟩, rfl, by decide, by decide, by decide,
    by decide, .inr (.inl (by norm_num)), fun f hf => ?_, by decide, by norm_num, by norm_num, ?_⟩
  · rw [hframes f hf]
    decide
  · rw [hframes f hf, direct_eq (by norm_num)]
    simp only [Apart]
    omega
  · decide

/-- Four bytes written at offset 4096 go to the frame behind that of the page. -/
theorem dfs_write_misses_page :
    Request { largeFileCached with disk := fun _ => 0, mem := onesAt 0x200000 4 } [] largeFile
        0x200000 4 4096 4 ∧
      4096 + 4 ≤ largeFile.size ∧
      ¬ WriteCorrect { largeFileCached with disk := fun _ => 0, mem := onesAt 0x200000 4 } []
        largeFile 0x200000 4096 4 := by
  refine ⟨largeFile_request.withBytes _ _, by decide, ?_⟩
  apply not_writeCorrect largeFile_request (by decide)
  rintro ⟨hstart, -⟩
  exact absurd hstart (by norm_num)

end DestinX.Fs
