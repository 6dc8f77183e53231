import DestinX.Fs.Transfer

/-!
# `dfs_read`

The first page of a request is copied from its beginning, whatever the offset, and the two later
cases take the offset for one within the first page of the file. The last page of a request that
ends on a page boundary is not copied.
-/

namespace DestinX.Fs

open Base List Nat

variable {st st' : FsState} {fp : List UInt8} {inode : Inode} {buffer offset size : Nat}
  {r : FsState × Nat}

/-! ## What is copied -/

lemma readMode_mark (id first count : Nat) (cache : List CachePage) :
    readMode.mark id first count cache = cache := by simp [Mode.mark, readMode]

/-- The copy for page `j` of a request. -/
def readCopy (st : FsState) (inode : Inode) (buffer offset size j : Nat) : Copy :=
  ⟨buffer + pieceStart offset j, direct (framesOf st inode offset j),
    pieceLen (pagesTouched offset size) offset size j⟩

lemma readCopies_spec (h : Request st fp inode buffer size offset size)
    (hint : pagesTouched offset size ≤ 524290) (ho : offset ≤ 4096 ∨ pagesTouched offset size = 1) :
    ∃ ps, pieces (pageCount offset size) (framesOf st inode offset) buffer offset size
        (readMode.start offset) = some ps ∧
      ∀ c, c ∈ ps.map readMode.copy ↔
        ∃ j < pagesTouched offset size, c = readCopy st inode buffer offset size j := by
  apply h.copies_spec readMode hint ho
  intro j
  simp [readMode, pieceAt, readCopy, add64_direct_zero]

variable {cs : List Copy}

section

variable (h : Request st fp inode buffer size offset size)
  (hall : AllCached st.cache inode offset (pagesTouched offset size))
  (hcs : ∀ c, c ∈ cs ↔ ∃ j < pagesTouched offset size, c = readCopy st inode buffer offset size j)
include h hall hcs

/-- No copy writes to a page. -/
lemma readCopies_apart : ∀ c ∈ cs, ∀ c' ∈ cs, Apart c.dst c.len c'.src c'.len := by
  intro c hc c' hc'
  obtain ⟨j, hj, rfl⟩ := (hcs c).mp hc
  obtain ⟨j', hj', rfl⟩ := (hcs c').mp hc'
  have hframe := h.apart _ (hall.framesOf_mem hj')
  have hdst := pieceStart_add_len_le h.positive hj
  have hsrc : pieceLen (pagesTouched offset size) offset size j' ≤ 4096 := pieceLen_le h.positive
  simp only [Apart, readCopy] at hframe ⊢
  omega

/-- The copies stay within the canonical addresses. -/
lemma readCopies_canonical : ∀ c ∈ cs, Canonical c.dst c.len ∧ Canonical c.src c.len := by
  intro c hc
  obtain ⟨j, hj, rfl⟩ := (hcs c).mp hc
  have hdst := pieceStart_add_len_le h.positive hj
  constructor
  · apply h.canonical.sub
    · exact le_add_right _ _
    · simp only [readCopy]
      omega
  · apply (h.ready.canonical (hall.framesOf_mem hj)).sub le_rfl
    exact Nat.add_le_add_left (pieceLen_le h.positive) _

end

/-- A byte that a copy writes is the byte of the file at the same place of page `j`. -/
lemma readCopy_content (h : 0 < size)
    (hall : AllCached st.cache inode offset (pagesTouched offset size)) {j x : Nat}
    (hj : j < pagesTouched offset size) (hx : (readCopy st inode buffer offset size j).Covers x) :
    st.mem ((readCopy st inode buffer offset size j).src +
        (x - (readCopy st inode buffer offset size j).dst)) =
      content st inode ((offset / 4096 + j) * 4096 + (x - buffer - pieceStart offset j)) := by
  have hlen : pieceLen (pagesTouched offset size) offset size j ≤ 4096 := pieceLen_le h
  simp only [Copy.Covers, readCopy] at hx
  rw [hall.content hj (by omega)]
  simp only [readCopy]
  congr 1
  omega

/-- The calls of `memcpy` return: the loop can index the pages, and no length wraps. -/
def Served (offset size : Nat) : Prop :=
  pagesTouched offset size ≤ 524290 ∧ (offset ≤ 4096 ∨ pagesTouched offset size = 1)

/-- Address `a` gets a byte of page `j`. -/
def InPiece (buffer offset size j a : Nat) : Prop :=
  buffer + pieceStart offset j ≤ a ∧
    a < buffer + pieceStart offset j + pieceLen (pagesTouched offset size) offset size j

/-- What the calls of `memcpy` make of the memory `m₀`: each byte is as before, or a byte of
the file, which `g` gives. -/
def Copied (g : Nat → UInt8) (buffer offset size : Nat) (m₀ m : Mem) : Prop :=
  ∀ a, (m a = m₀ a ∧ ∀ j < pagesTouched offset size, ¬ InPiece buffer offset size j a) ∨
    ∃ j < pagesTouched offset size, InPiece buffer offset size j a ∧
      m a = g ((offset / 4096 + j) * 4096 + (a - buffer - pieceStart offset j))

lemma Copied.outside {g : Nat → UInt8} {m0 m : Mem} {a : Nat}
    (h : Copied g buffer offset size m0 m) (hs : 0 < size)
    (ha : ¬ (buffer ≤ a ∧ a < buffer + size)) : m a = m0 a := by
  rcases h a with ⟨hbyte, -⟩ | ⟨j, hj, hin, -⟩
  · exact hbyte
  · have hdst := pieceStart_add_len_le hs hj
    simp only [InPiece] at hin
    omega

/-- A request that finds its pages. -/
lemma hit_served (h : Request st fp inode buffer size offset size)
    (hall : AllCached st.cache inode offset (pagesTouched offset size))
    (hserved : Served offset size) :
    ∃ m, readMode.hit inode st buffer offset size = some ({ st with mem := m }, size) ∧
      Copied (content st inode) buffer offset size st.mem m := by
  obtain ⟨ps, hps, hcs⟩ := readCopies_spec h hserved.1 hserved.2
  have hcan := readCopies_canonical h hall hcs
  have ho : offset < 2 ^ 64 := lt_of_le_of_lt h.offset_lt (by norm_num)
  refine ⟨_, (hit_eq_some ho).mpr ⟨ps, hps, hcan, by rw [readMode_mark]⟩, fun a => ?_⟩
  rcases runCopies_source (m := st.mem) (readCopies_apart h hall hcs) a with
    ⟨hbyte, hnone⟩ | ⟨c, hc, hcov, hbyte⟩
  · exact .inl ⟨hbyte, fun j hj => hnone _ ((hcs _).mpr ⟨j, hj, rfl⟩)⟩
  · obtain ⟨j, hj, rfl⟩ := (hcs c).mp hc
    exact .inr ⟨j, hj, hcov, hbyte.trans (readCopy_content h.positive hall hj hcov)⟩

/-! ## Requests that are read correctly -/

/-- The request lies in one page and starts at its beginning, or it starts at the
beginning of the file and does not end on a page boundary. The number is the largest
page count for which `(i - 1) * PAGE_SIZE_4KB` is an `int`. -/
def ReadsRight (offset size : Nat) : Prop :=
  (offset % 4096 = 0 ∧ size ≤ 4096) ∨
    (offset = 0 ∧ size % 4096 ≠ 0 ∧ pagesTouched offset size ≤ 524290)

lemma ReadsRight.places (h : ReadsRight offset size) (hs : 0 < size) :
    pagesTouched offset size ≤ 524290 ∧ (offset ≤ 4096 ∨ pagesTouched offset size = 1) ∧
      ∀ k < size, ∃ j < pagesTouched offset size, pieceStart offset j ≤ k ∧
        k < pieceStart offset j + pieceLen (pagesTouched offset size) offset size j := by
  obtain ⟨hpos, hle, hlt⟩ := pagesTouched_bounds offset hs
  rcases h with ⟨ho, hone⟩ | ⟨rfl, hmod, hint⟩
  · have h1 : pagesTouched offset size = 1 := by omega
    rw [h1]
    refine ⟨by omega, .inr rfl, fun k hk => ⟨0, by omega, zero_le k, ?_⟩⟩
    simpa [pieceStart, pieceLen] using hk
  · refine ⟨hint, .inl (zero_le _), fun k hk => ⟨k / 4096, ?_⟩⟩
    simp only [pieceStart, pieceLen]
    generalize pagesTouched 0 size = n at *
    refine ⟨by omega, ?_⟩
    split_ifs <;> omega

/-- Such a request gets its bytes from the right places. -/
lemma ReadsRight.position (h : ReadsRight offset size) (hs : 0 < size) {j k : Nat}
    (hj : j < pagesTouched offset size) (hk : pieceStart offset j ≤ k) :
    (offset / 4096 + j) * 4096 + (k - pieceStart offset j) = offset + k := by
  obtain ⟨hpos, hle, hlt⟩ := pagesTouched_bounds offset hs
  simp only [pieceStart] at hk ⊢
  rcases h with ⟨ho, hone⟩ | ⟨rfl, -, -⟩
  · have hj0 : j = 0 := by omega
    rw [if_pos hj0]
    omega
  · split_ifs at hk ⊢ <;> omega

lemma ReadsRight.served (h : ReadsRight offset size) (hs : 0 < size) : Served offset size :=
  ⟨(h.places hs).1, (h.places hs).2.1⟩

lemma Copied.right {g : Nat → UInt8} {m0 m : Mem} {k : Nat} (h : Copied g buffer offset size m0 m)
    (hright : ReadsRight offset size) (hk : k < size) : m (buffer + k) = g (offset + k) := by
  have hs : 0 < size := by omega
  rcases h (buffer + k) with ⟨-, hnone⟩ | ⟨j, hj, hin, hbyte⟩
  · obtain ⟨j, hj, hk1, hk2⟩ := (hright.places hs).2.2 k hk
    exact absurd ⟨by omega, by omega⟩ (hnone j hj)
  · simp only [InPiece] at hin
    rw [hbyte, Nat.add_sub_cancel_left, hright.position hs hj (by omega)]

/-! ## Requests that are not -/

/-- Byte `t` of the buffer gets no byte of the file, or the wrong one. -/
def WrongByte (offset size t : Nat) : Prop :=
  ∀ j < pagesTouched offset size, pieceStart offset j ≤ t →
    t < pieceStart offset j + pieceLen (pagesTouched offset size) offset size j →
      (offset / 4096 + j) * 4096 + (t - pieceStart offset j) ≠ offset + t

lemma exists_wrongByte (hright : ¬ ReadsRight offset size) (hs : 0 < size)
    (hserved : Served offset size) : ∃ t < size, WrongByte offset size t := by
  obtain ⟨hint, ho⟩ := hserved
  obtain ⟨hpos, hle, hlt⟩ := pagesTouched_bounds offset hs
  simp only [ReadsRight, not_or, not_and] at hright
  by_cases hmod : offset % 4096 = 0
  · by_cases hzero : offset = 0
    -- the last page is not copied
    · subst hzero
      refine ⟨(pagesTouched 0 size - 1) * 4096, by omega, fun j hj hj1 hj2 => ?_⟩
      simp only [pieceStart, pieceLen] at hj1 hj2 ⊢
      generalize pagesTouched 0 size = n at *
      split_ifs at hj1 hj2 ⊢ <;> omega
    -- the offset is 4096, and nothing is copied from its page
    · refine ⟨0, hs, fun j hj hj1 hj2 => ?_⟩
      simp only [pieceStart, pieceLen] at hj1 hj2 ⊢
      generalize pagesTouched offset size = n at *
      split_ifs at hj1 hj2 ⊢ <;> omega
  · refine ⟨0, hs, fun j hj hj1 hj2 => ?_⟩
    omega

lemma hit_read_wrong (h : Request st fp inode buffer size offset size)
    (hall : AllCached st.cache inode offset (pagesTouched offset size))
    (hserved : Served offset size) {t : Nat} (hwrong : WrongByte offset size t)
    (hcontent : ∀ pos, content st inode pos = if pos = offset + t then 1 else 0)
    (hmem : st.mem (buffer + t) = 0) (hr : readMode.hit inode st buffer offset size = some r) :
    r.1.mem (buffer + t) = 0 := by
  obtain ⟨m, hhit, hbytes⟩ := hit_served h hall hserved
  cases hhit.symm.trans hr
  rcases hbytes (buffer + t) with ⟨hbyte, -⟩ | ⟨j, hj, hin, hbyte⟩
  · exact hbyte.trans hmem
  · simp only [InPiece] at hin
    refine hbyte.trans ?_
    rw [hcontent, Nat.add_sub_cancel_left]
    exact if_neg (hwrong j hj (by omega) (by omega))

/-! ## Files with any content -/

/-- Memory in which the cached pages hold the bytes that `g` gives for their file. -/
def memOf (cache : List CachePage) (g : Nat → UInt8) : Mem := fun a =>
  match cache.find? fun c => direct c.addr ≤ a ∧ a < direct c.addr + 4096 with
  | some c => g (c.indx * 4096 + (a - direct c.addr))
  | none => 0

/-- A disk whose blocks from `start` on hold the bytes that `g` gives. -/
def diskOf (start : Nat) (g : Nat → UInt8) (p : Nat) : UInt8 := g (p - start * 4096)

lemma memOf_cached (h : Ready st) {id k d : Nat} {c : CachePage} (g : Nat → UInt8)
    (hc : getPageCache st.cache id k = some c) (hd : d < 4096) :
    memOf st.cache g (direct c.addr + d) = g (k * 4096 + d) := by
  have hmem := (getPageCache_mem hc).1
  cases hfind : st.cache.find? fun c' =>
      direct c'.addr ≤ direct c.addr + d ∧ direct c.addr + d < direct c'.addr + 4096 with
  | none =>
    have hnone := find?_eq_none.mp hfind c hmem
    rw [decide_eq_true_eq] at hnone
    exact absurd ⟨by omega, by omega⟩ hnone
  | some c' =>
    have hc' := mem_of_find?_eq_some hfind
    have hin := find?_some hfind
    rw [decide_eq_true_eq] at hin
    have hnd : (st.cache.map CachePage.addr).Nodup := (nodup_append.mp h.nodup).1
    have haddr : c'.addr = c.addr := by
      by_contra hne
      have hap := h.apart (mem_append_left _ (mem_map_of_mem hc'))
        (mem_append_left _ (mem_map_of_mem hmem)) hne
      simp only [Apart] at hap
      omega
    obtain rfl : c' = c := inj_on_of_nodup_map hnd hc' hmem haddr
    rw [memOf, hfind]
    simp only [(getPageCache_mem hc).2.2, Nat.add_sub_cancel_left]

lemma memOf_outside {cache : List CachePage} (g : Nat → UInt8) {a : Nat}
    (h : ∀ c ∈ cache, ¬ (direct c.addr ≤ a ∧ a < direct c.addr + 4096)) : memOf cache g a = 0 := by
  have hfind : cache.find? (fun c => direct c.addr ≤ a ∧ a < direct c.addr + 4096) = none := by
    rw [find?_eq_none]
    intro c hc
    rw [decide_eq_true_eq]
    exact h c hc
  rw [memOf, hfind]

/-- Whatever pages are cached, the file can have any content. -/
lemma content_memOf (h : Ready st) (inode : Inode) (g : Nat → UInt8) (pos : Nat) :
    content { st with disk := diskOf inode.startBlock g, mem := memOf st.cache g } inode pos =
      g pos := by
  have hlt : pos % 4096 < 4096 := mod_lt _ (by norm_num)
  simp only [content]
  cases hc : getPageCache st.cache inode.inodeNum (pos / 4096) with
  | none =>
    simp only [diskOf]
    congr 1
    omega
  | some c =>
    simp only []
    rw [memOf_cached h g hc hlt]
    congr 1
    omega

/-! ## The contract -/

/-- The call returns the number of bytes from the offset to the end of the file, at
most the size; the buffer gets these bytes, and no other byte is written except in
the frames that the call allocates for the cache. -/
def ReadCorrect (st : FsState) (fp : List UInt8) (inode : Inode)
    (buffer offset size : Nat) : Prop :=
  let n := min size (inode.size - offset)
  ∃ fuel st', dfsRead fuel st fp buffer offset size = some (st', n) ∧
    (∀ k < n, st'.mem (buffer + k) = content st inode (offset + k)) ∧
    ∀ a, ¬ (buffer ≤ a ∧ a < buffer + n) →
      (∀ f ∈ st.free, f ∉ st'.free → ¬ (direct f ≤ a ∧ a < direct f + 4096)) → st'.mem a = st.mem a

/-- With all pages cached, the request ends within the file and is read correctly as it
is. Otherwise it is first cut at the end of the file, where nothing may be left. -/
def ReadCondition (st : FsState) (inode : Inode) (offset size : Nat) : Prop :=
  pagesTouched offset size < 2 ^ 31 ∧ (AllCached st.cache inode offset (pagesTouched offset size) →
      offset + size ≤ inode.size ∧ ReadsRight offset size) ∧
    (¬ AllCached st.cache inode offset (pagesTouched offset size) →
      offset = inode.size ∨ ReadsRight offset (min size (inode.size - offset)))

/-- How many bytes the call copies: the size is cut at the end of the file only when a page
is missing. -/
def servedSize (st : FsState) (inode : Inode) (offset size : Nat) : Nat :=
  if miss st.cache inode.inodeNum (offset / 4096) (pagesTouched offset size) then
    min size (inode.size - offset)
  else size

lemma servedSize_cached (hall : AllCached st.cache inode offset (pagesTouched offset size)) :
    servedSize st inode offset size = size := by
  rw [servedSize, miss_iff.mpr hall, if_neg Bool.false_ne_true]

lemma servedSize_missing (hmiss : ¬ AllCached st.cache inode offset (pagesTouched offset size)) :
    servedSize st inode offset size = min size (inode.size - offset) :=
  if_pos (Bool.eq_true_of_not_eq_false (mt miss_iff.mp hmiss))

section

variable (h : Request st fp inode buffer (servedSize st inode offset size) offset size)
  (hn : pagesTouched offset size < 2 ^ 31)
include h hn

/-- A call with a missing page loads first. Then nothing is left, or all pages are there. -/
lemma Request.served : ∃ st1, Extends inode 0 st st1 ∧
      ((servedSize st inode offset size = 0 ∧
          ∀ r, Returns readMode st fp buffer offset size r ↔ (st1, 0) = r) ∨
        (Request st1 fp inode buffer (servedSize st inode offset size) offset
            (servedSize st inode offset size) ∧
          AllCached st1.cache inode offset (pagesTouched offset (servedSize st inode offset size)) ∧
          ∀ r, Returns readMode st fp buffer offset size r ↔
            readMode.hit inode st1 buffer offset (servedSize st inode offset size) = some r)) := by
  by_cases hall : AllCached st.cache inode offset (pagesTouched offset size)
  · rw [servedSize_cached hall] at h ⊢
    have hcount := h.pageCount hn
    exact ⟨st, Extends.refl h.ready, .inr ⟨h, hall, fun r =>
      returns_hit h (hcount ▸ hn) (hcount ▸ hall)⟩⟩
  · rw [servedSize_missing hall] at h ⊢
    have hcount := h.pageCount hn
    obtain ⟨st', hext, hall', hagain⟩ := returns_miss readMode h (hcount ▸ hn) (hcount ▸ hall)
    have hle : pagesTouched offset (min size (inode.size - offset)) ≤ pagesTouched offset size :=
      pagesTouched_mono offset (min_le_left _ _)
    rw [hcount] at hall'
    rw [h.cutSize hn] at hagain
    refine ⟨st', hext, ?_⟩
    rcases Nat.eq_zero_or_pos (min size (inode.size - offset)) with hzero | hpos
    · rw [hzero] at hagain ⊢
      exact .inl ⟨rfl, fun r => (hagain r).trans returns_zero⟩
    · have hword := h.word
      have hoff := h.offset_lt
      have hcount' : Fs.pageCount offset (min size (inode.size - offset)) = _ :=
        pageCount_eq_touched (by omega) (by omega) (lt_of_le_of_lt hle hn)
      have hall' := hall'.mono hle
      have hreq := h.again hext (hcount' ▸ hall') hpos (by omega)
      exact .inr ⟨hreq, hall', fun r => (hagain r).trans
        (returns_hit hreq (hcount' ▸ lt_of_le_of_lt hle hn) (hcount' ▸ hall'))⟩

/-- A call that is served: missing pages have been loaded, and then the buffer has been
filled. -/
lemma returns_served
    (hserved : servedSize st inode offset size = 0 ∨
      Served offset (servedSize st inode offset size)) :
    ∃ st1 m, Returns readMode st fp buffer offset size
        ({ st1 with mem := m }, servedSize st inode offset size) ∧
      Extends inode 0 st st1 ∧
      (servedSize st inode offset size = 0 → m = st1.mem) ∧
      (0 < servedSize st inode offset size →
        Copied (content st inode) buffer offset (servedSize st inode offset size) st1.mem m) := by
  obtain ⟨st1, hext, ⟨hzero, hreturns⟩ | ⟨hreq, hall, hreturns⟩⟩ := h.served hn
  · refine ⟨st1, st1.mem, (hreturns _).mpr ?_, hext, fun _ => rfl,
      fun hpos => absurd hzero hpos.ne'⟩
    rw [hzero]
  · obtain ⟨m, hhit, hcopied⟩ := hit_served hreq hall (hserved.resolve_left hreq.positive.ne')
    have hcontent : content st1 inode = content st inode := funext hext.content
    exact ⟨st1, m, (hreturns _).mpr hhit, hext, fun hzero => absurd hzero hreq.positive.ne',
      fun _ => hcontent ▸ hcopied⟩

end

lemma ReadCondition.servedSize (h : ReadCondition st inode offset size) :
    servedSize st inode offset size = min size (inode.size - offset) := by
  by_cases hall : AllCached st.cache inode offset (pagesTouched offset size)
  · rw [servedSize_cached hall]
    have := (h.2.1 hall).1
    omega
  · exact servedSize_missing hall

/-- A request that meets the condition copies nothing, or copies the right bytes. -/
lemma ReadCondition.right (h : ReadCondition st inode offset size) (hfile : offset ≤ inode.size) :
    min size (inode.size - offset) = 0 ∨ ReadsRight offset (min size (inode.size - offset)) := by
  by_cases hall : AllCached st.cache inode offset (pagesTouched offset size)
  · obtain ⟨hend, hright⟩ := h.2.1 hall
    rw [show min size (inode.size - offset) = size by omega]
    exact .inr hright
  · rcases h.2.2 hall with heq | hright
    · exact .inl (by omega)
    · exact .inr hright

section

variable (h : Request st fp inode buffer (min size (inode.size - offset)) offset size)
  (hcond : ReadCondition st inode offset size)
include h hcond

lemma returns_right :
    ∃ st1 m, Returns readMode st fp buffer offset size
        ({ st1 with mem := m }, min size (inode.size - offset)) ∧
      Extends inode 0 st st1 ∧
      (∀ k < min size (inode.size - offset), m (buffer + k) = content st inode (offset + k)) ∧
      ∀ a, ¬ (buffer ≤ a ∧ a < buffer + min size (inode.size - offset)) → m a = st1.mem a := by
  have hsize := hcond.servedSize
  have hright := hcond.right h.inFile
  rw [← hsize] at h hright ⊢
  have hserved : Fs.servedSize st inode offset size = 0 ∨
      Served offset (Fs.servedSize st inode offset size) := by
    rcases Nat.eq_zero_or_pos (Fs.servedSize st inode offset size) with hzero | hpos
    · exact .inl hzero
    · exact .inr ((hright.resolve_left hpos.ne').served hpos)
  obtain ⟨st1, m, hreturns, hext, hnone, hcopied⟩ := returns_served h hcond.1 hserved
  refine ⟨st1, m, hreturns, hext, fun k hk => ?_, fun a ha => ?_⟩
  · have hpos := zero_lt_of_lt hk
    exact (hcopied hpos).right (hright.resolve_left hpos.ne') hk
  · rcases Nat.eq_zero_or_pos (Fs.servedSize st inode offset size) with hzero | hpos
    · rw [hnone hzero]
    · exact (hcopied hpos).outside hpos ha

lemma readCorrect_of_condition : ReadCorrect st fp inode buffer offset size := by
  obtain ⟨st1, m, ⟨fuel, hfuel⟩, hext, hbytes, hout⟩ := returns_right h hcond
  exact ⟨fuel, _, hfuel, hbytes, fun a ha hfree => (hout a ha).trans (hext.mem a hfree)⟩

end

/-- For a request that is not read right, one byte of the buffer tells: when it is 0
before the call and the file is 0 except for the byte that belongs there, it is still
0 after the call. -/
lemma exists_bad_byte (fp : List UInt8) (inode : Inode) (buffer : Nat)
    (hright : ¬ ReadsRight offset size) (hs : 0 < size) (hn : pagesTouched offset size < 2 ^ 31) :
    ∃ t < size, ∀ st r, Request st fp inode buffer size offset size →
      AllCached st.cache inode offset (pagesTouched offset size) →
      (∀ pos, content st inode pos = if pos = offset + t then 1 else 0) → st.mem (buffer + t) = 0 →
      readMode.hit inode st buffer offset size = some r → r.1.mem (buffer + t) = 0 := by
  have hpos := (pagesTouched_bounds offset hs).1
  by_cases hbad : 524290 < pagesTouched offset size ∨ (4096 < offset ∧ 2 ≤ pagesTouched offset size)
  · exact ⟨0, hs, fun st r hreq _ _ _ hr => absurd hr (hit_none hreq (fun _ => rfl) hn hbad)⟩
  · have hserved : Served offset size := ⟨by omega, by omega⟩
    obtain ⟨t, ht, hwrong⟩ := exists_wrongByte hright hs hserved
    exact ⟨t, ht, fun st r hreq hall hcontent hmem hr =>
      hit_read_wrong hreq hall hserved hwrong hcontent hmem hr⟩

/-- The file that is 1 at one position and 0 elsewhere. -/
def onlyAt (pos₀ pos : Nat) : UInt8 := if pos = pos₀ then 1 else 0

/-- The state in which this is the content of the file. -/
def withOnly (st : FsState) (inode : Inode) (pos₀ : Nat) : FsState :=
  { st with disk := diskOf inode.startBlock (onlyAt pos₀), mem := memOf st.cache (onlyAt pos₀) }

lemma withOnly_buffer {len t : Nat} (h : Request st fp inode buffer len offset size) (ht : t < len)
    (pos0 : Nat) : (withOnly st inode pos0).mem (buffer + t) = 0 := by
  apply memOf_outside
  intro c hc hin
  have hap := h.apart c.addr (mem_append_left _ (mem_map_of_mem hc))
  simp only [Apart] at hap
  omega

lemma readsRight_of_correct
    (h : Request st fp inode buffer (servedSize st inode offset size) offset size)
    (hn : pagesTouched offset size < 2 ^ 31) (hpos : 0 < servedSize st inode offset size)
    (hsize : servedSize st inode offset size = min size (inode.size - offset))
    (hcorrect : ∀ disk mem,
      ReadCorrect { st with disk := disk, mem := mem } fp inode buffer offset size) :
    ReadsRight offset (servedSize st inode offset size) := by
  have hle := pagesTouched_mono offset (hsize.le.trans (min_le_left size _))
  by_contra hright
  obtain ⟨t, ht, hbad⟩ := exists_bad_byte fp inode buffer hright hpos (lt_of_le_of_lt hle hn)
  obtain ⟨fuel, st', hfuel, hbytes, -⟩ := hcorrect (diskOf inode.startBlock (onlyAt (offset + t)))
    (memOf st.cache (onlyAt (offset + t)))
  have hreq := h.withBytes (diskOf inode.startBlock (onlyAt (offset + t)))
    (memOf st.cache (onlyAt (offset + t)))
  have hcontent := content_memOf h.ready inode (onlyAt (offset + t))
  obtain ⟨st1, hext, ⟨hnone, -⟩ | ⟨hreq1, hall1, hreturns⟩⟩ := Request.served hreq hn
  · exact absurd hnone hpos.ne'
  have hhit := (hreturns _).mp ⟨fuel, hfuel⟩
  -- the buffer is in none of the frames that were taken
  have hbuffer : st1.mem (buffer + t) = 0 := by
    refine (hext.mem _ fun f hf _ hin => ?_).trans (withOnly_buffer h ht _)
    have hap := h.apart f (mem_append_right _ hf)
    simp only [Apart] at hap
    omega
  have hzero := hbad _ _ hreq1 hall1 (fun pos => (hext.content pos).trans (hcontent pos))
    hbuffer hhit
  have hone := (hbytes t (hsize ▸ ht)).trans (hcontent (offset + t))
  rw [hzero, onlyAt, if_pos rfl] at hone
  exact absurd hone (by decide)

/-- `dfs_read` returns the right bytes for every content of memory and disk exactly
when the request meets the condition. -/
theorem dfs_read_correct_iff
    (h : Request st fp inode buffer (min size (inode.size - offset)) offset size) :
    (∀ disk mem, ReadCorrect { st with disk := disk, mem := mem } fp inode buffer offset size) ↔
      ReadCondition st inode offset size := by
  constructor
  · intro hcorrect
    have hn : pagesTouched offset size < 2 ^ 31 := by
      by_contra hlarge
      obtain ⟨fuel, st', hfuel, -⟩ := hcorrect st.disk st.mem
      exact not_returns_large h (fun _ => rfl) (not_lt.mp hlarge) ⟨fuel, hfuel⟩
    refine ⟨hn, fun hall => ?_, fun hmiss => ?_⟩
    · have hend : offset + size ≤ inode.size := by
        obtain ⟨fuel, st', hfuel, -⟩ := hcorrect st.disk st.mem
        have hcount := h.pageCount hn
        have hhit := (returns_hit h (hcount ▸ hn) (hcount ▸ hall)).mp ⟨fuel, hfuel⟩
        obtain ⟨_, -, -, hr⟩ := (hit_eq_some (lt_of_le_of_lt h.offset_lt (by norm_num))).mp hhit
        have hsize : size = min size (inode.size - offset) := congrArg Prod.snd hr
        have := h.inFile
        omega
      have hsize : servedSize st inode offset size = min size (inode.size - offset) := by
        rw [servedSize_cached hall]
        omega
      have hright := readsRight_of_correct (hsize.symm ▸ h) hn
        ((servedSize_cached hall).symm ▸ h.positive) hsize hcorrect
      exact ⟨hend, servedSize_cached hall ▸ hright⟩
    · rcases h.inFile.eq_or_lt with heq | hlt
      · exact .inl heq
      · have hsize := servedSize_missing hmiss
        have hpos := h.positive
        refine .inr (hsize ▸ readsRight_of_correct (hsize.symm ▸ h) hn ?_ hsize hcorrect)
        omega
  · intro hcond disk mem
    exact readCorrect_of_condition (h.withBytes disk mem) hcond

/-- A file of 16 bytes whose page is cached. -/
def smallFile : Inode := ⟨1, 16, 100, 1⟩

def smallFileCached : FsState :=
  ⟨[⟨1, 0, 4096, 0⟩], [], [], fun _ => some smallFile, fun _ => 0, fun _ => 0⟩

lemma smallFile_touched (hs : 0 < size) (hend : offset + size ≤ 16) :
    pagesTouched offset size = 1 := by
  simp only [pagesTouched]
  omega

lemma smallFile_cached {count : Nat} (hcount : count = 1) (ho : offset ≤ 16) :
    AllCached smallFileCached.cache smallFile offset count := by
  intro i hi
  rw [show offset / 4096 + i = 0 by omega]
  decide

lemma smallFile_request (hs : 0 < size) (hend : offset + size ≤ 16) :
    Request smallFileCached [] smallFile 0x200000
      (min size (smallFile.size - offset)) offset size := by
  have hframes : ∀ f ∈ frames smallFileCached, f = 4096 := fun f hf => mem_singleton.mp hf
  have hcount : pageCount offset size = 1 := by
    rw [pageCount_eq_touched (by omega) (by omega)] <;> rw [smallFile_touched hs hend]
    norm_num
  refine ⟨⟨fun f hf => ?_, nodup_singleton 4096, rfl⟩, rfl, by decide, by decide, by decide,
    by decide, .inr (.inl (by omega)), fun f hf => ?_, ?_, hs, by omega, ?_⟩
  · rw [hframes f hf]
    decide
  · rw [hframes f hf, direct_eq (by norm_num)]
    simp only [Apart]
    omega
  · simp only [smallFile]
    omega
  · rw [hcount, show offset / 4096 = 0 by omega]
    decide

/-- A cached page read from its beginning. -/
theorem dfs_read_correct_small : ReadCondition smallFileCached smallFile 0 16 ∧
    ∀ disk mem, ReadCorrect { smallFileCached with disk := disk, mem := mem } [] smallFile 0x200000
      0 16 := by
  have hcond : ReadCondition smallFileCached smallFile 0 16 := by
    have htouched : pagesTouched 0 16 = 1 := smallFile_touched (by norm_num) (by norm_num)
    refine ⟨by rw [htouched]; norm_num, fun _ => ⟨by decide, .inl (by decide)⟩, fun hmiss => ?_⟩
    exact absurd (smallFile_cached htouched (by norm_num)) hmiss
  exact ⟨hcond, (dfs_read_correct_iff (smallFile_request (by norm_num) (by norm_num))).mpr hcond⟩

/-- The byte at position 1 of the file is 1. Reading one byte there gives the byte at
position 0. -/
theorem dfs_read_ignores_offset :
    Request (withOnly smallFileCached smallFile 1) [] smallFile 0x200000 1 1 1 ∧
      ¬ ReadCorrect (withOnly smallFileCached smallFile 1) [] smallFile 0x200000 1 1 := by
  have hsmall : Request smallFileCached [] smallFile 0x200000 1 1 1 :=
    smallFile_request (show 0 < 1 by norm_num) (show 1 + 1 ≤ 16 by norm_num)
  have hreq : Request (withOnly smallFileCached smallFile 1) [] smallFile 0x200000 1 1 1 :=
    hsmall.withBytes _ _
  have htouched : pagesTouched 1 1 = 1 := smallFile_touched (by norm_num) (by norm_num)
  have hall := smallFile_cached htouched (show 1 ≤ 16 by norm_num)
  have hn : pagesTouched 1 1 < 2 ^ 31 := by
    rw [htouched]
    norm_num
  have hcount := hreq.pageCount hn
  have hcontent := content_memOf hsmall.ready smallFile (onlyAt 1)
  refine ⟨hreq, ?_⟩
  rintro ⟨fuel, st', hfuel, hbytes, -⟩
  have hhit := (returns_hit hreq (hcount ▸ hn) (hcount ▸ hall)).mp ⟨fuel, hfuel⟩
  have hzero := hit_read_wrong hreq hall ⟨by rw [htouched]; norm_num, .inr htouched⟩ (t := 0)
    (fun j hj _ _ => by omega) hcontent (withOnly_buffer hsmall (by norm_num) 1) hhit
  have hone := (hbytes 0 (by decide)).trans (hcontent 1)
  rw [hzero] at hone
  exact absurd hone (by decide)

end DestinX.Fs
