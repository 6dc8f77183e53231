import DestinX.Fs.OneEntry

/-!
# Whether the page cache can be noticed

Two states with the same disk differ in the pages that are cached, all equal to their blocks.
`dfs_read` is called in both. A request whose pages are all cached is served as it is, any other
is first cut at the end of the file, so requests that reach over the end tell the states apart.
-/

namespace DestinX.Fs

open Base Option Prod Nat

variable {st st' st₁ st₂ : FsState} {fp : List UInt8} {inode : Inode}
  {buffer offset size n : Nat}

/-- The cached pages of the file are equal to their blocks. -/
def Coherent (st : FsState) (inode : Inode) : Prop :=
  ∀ k c, getPageCache st.cache inode.inodeNum k = some c →
    ∀ d < 4096, st.mem (direct c.addr + d) = st.disk ((inode.startBlock + k) * 4096 + d)

lemma Coherent.content (h : Coherent st inode) (pos : Nat) :
    content st inode pos = st.disk ((inode.startBlock + pos / 4096) * 4096 + pos % 4096) := by
  rw [Fs.content]
  cases hc : getPageCache st.cache inode.inodeNum (pos / 4096) with
  | none => rfl
  | some c => exact h _ c hc _ (mod_lt _ (by norm_num))

/-- Both calls return, with the same count and the same bytes in the buffer. -/
def SameRead (st₁ st₂ : FsState) (fp : List UInt8) (buffer offset size : Nat) : Prop :=
  ∃ fuel₁ fuel₂ st₁' st₂' n, dfsRead fuel₁ st₁ fp buffer offset size = some (st₁', n) ∧
    dfsRead fuel₂ st₂ fp buffer offset size = some (st₂', n) ∧
    ∀ k < n, st₁'.mem (buffer + k) = st₂'.mem (buffer + k)

/-- A page of the request is missing. -/
def Misses (st : FsState) (inode : Inode) (offset size : Nat) : Bool :=
  miss st.cache inode.inodeNum (offset / 4096) (pagesTouched offset size)

/-- The request is empty or starts behind the file. Otherwise it ends in the file, or either all
its pages are cached in both states or in neither; and the calls of `memcpy` return. -/
def SameServed (st₁ st₂ : FsState) (inode : Inode) (buffer offset size : Nat) : Prop :=
  buffer = 0 ∨ size = 0 ∨ inode.size < offset ∨ (pagesTouched offset size < 2 ^ 31 ∧
      (offset + size ≤ inode.size ∨
        Misses st₁ inode offset size = Misses st₂ inode offset size) ∧
      (servedSize st₁ inode offset size = 0 ∨ Served offset (servedSize st₁ inode offset size)))

/-! ## What is copied -/

/-- An address belongs to one page at most. -/
lemma InPiece.unique {j j' a : Nat} (h : InPiece buffer offset size j a)
    (h' : InPiece buffer offset size j' a) (hj : j < pagesTouched offset size)
    (hj' : j' < pagesTouched offset size) (hserved : Served offset size) : j = j' := by
  have ho := hserved.2
  simp only [InPiece, pieceStart, pieceLen] at h h'
  generalize pagesTouched offset size = n at *
  split_ifs at h h' <;> omega

lemma Copied.agree {g : Nat → UInt8} {m1 m1' m2 m2' : Mem} {a : Nat}
    (h1 : Copied g buffer offset size m1 m1') (h2 : Copied g buffer offset size m2 m2')
    (hserved : Served offset size) (ha : m1 a = m2 a) : m1' a = m2' a := by
  rcases h1 a with ⟨hb1, hno1⟩ | ⟨j1, hj1, hin1, hb1⟩ <;>
    rcases h2 a with ⟨hb2, hno2⟩ | ⟨j2, hj2, hin2, hb2⟩
  · rw [hb1, hb2, ha]
  · exact absurd hin2 (hno1 j2 hj2)
  · exact absurd hin1 (hno2 j1 hj1)
  · obtain rfl := hin1.unique hin2 hj1 hj2 hserved
    rw [hb1, hb2]

lemma servedSize_le (st : FsState) (inode : Inode) (offset size : Nat) :
    servedSize st inode offset size ≤ size := by
  rw [servedSize]
  split_ifs
  · exact min_le_left _ _
  · exact le_rfl

/-- Both states serve the same number of bytes. -/
lemma servedSize_eq_iff (hfile : offset ≤ inode.size) :
    servedSize st₁ inode offset size = servedSize st₂ inode offset size ↔
      offset + size ≤ inode.size ∨
        Misses st₁ inode offset size = Misses st₂ inode offset size := by
  simp only [servedSize, Misses]
  cases miss st₁.cache inode.inodeNum (offset / 4096) (pagesTouched offset size) <;>
    cases miss st₂.cache inode.inodeNum (offset / 4096) (pagesTouched offset size) <;>
    simp only [Bool.false_eq_true, if_false, if_true, reduceCtorEq, or_false, or_true] <;> omega

lemma Returns.served (h : Request st fp inode buffer (servedSize st inode offset size) offset size)
    (hreturns : Returns readMode st fp buffer offset size (st', n)) :
    pagesTouched offset size < 2 ^ 31 ∧ n = servedSize st inode offset size ∧
      (servedSize st inode offset size = 0 ∨ Served offset (servedSize st inode offset size)) := by
  have hn : pagesTouched offset size < 2 ^ 31 := by
    by_contra hlarge
    exact not_returns_large h (fun _ => rfl) (not_lt.mp hlarge) hreturns
  refine ⟨hn, ?_⟩
  obtain ⟨st1, -, ⟨hzero, hr⟩ | ⟨hreq, -, hr⟩⟩ := h.served hn
  · rw [hzero]
    exact ⟨(congrArg snd ((hr _).mp hreturns)).symm, .inl rfl⟩
  -- a hit returns its size and has no piece that wraps
  · have hr := (hr _).mp hreturns
    refine ⟨(hit_same hr).1, .inr ?_⟩
    have hle : servedSize st inode offset size ≤ size := servedSize_le st inode offset size
    by_contra hbad
    refine hit_none hreq (fun _ => rfl) (lt_of_le_of_lt (pagesTouched_mono offset hle) hn) ?_ hr
    have hpos := (pagesTouched_bounds offset hreq.positive).1
    simp only [Served] at hbad
    omega

/-! ## The two calls -/

lemma dfsRead_nothing (hfound : st.inodes fp = some inode)
    (h : buffer = 0 ∨ size = 0 ∨ inode.size < offset) :
    dfsRead 1 st fp buffer offset size = some (st, 0) := by
  rw [dfsRead, transfer]
  unfold transferBody
  rw [hfound, bind_some]
  by_cases hargs : buffer = 0 ∨ size = 0
  · exact if_pos hargs
  · have hbehind : inode.size < offset := by
      rcases h with h | h | h
      · exact absurd (.inl h) hargs
      · exact absurd (.inr h) hargs
      · exact h
    rw [if_neg hargs, if_pos hbehind]

lemma Extends.mem_buffer {len k : Nat} (hext : Extends inode 0 st st')
    (h : Request st fp inode buffer len offset size) (hk : k < len) :
    st'.mem (buffer + k) = st.mem (buffer + k) := by
  refine hext.mem _ fun f hf _ hin => ?_
  have hap := h.apart f (List.mem_append_right _ hf)
  simp only [Apart] at hap
  omega

/-- Whatever is cached in two states with the same disk, `dfs_read` returns the same count
and stores the same bytes in both exactly when the condition is met. -/
theorem dfs_read_transparent_iff (hdisk : st₂.disk = st₁.disk)
    (hfound₁ : st₁.inodes fp = some inode) (hfound₂ : st₂.inodes fp = some inode)
    (hreq₁ : buffer ≠ 0 → 0 < size → offset ≤ inode.size →
      Request st₁ fp inode buffer (servedSize st₁ inode offset size) offset size)
    (hreq₂ : buffer ≠ 0 → 0 < size → offset ≤ inode.size →
      Request st₂ fp inode buffer (servedSize st₂ inode offset size) offset size)
    (hcoh₁ : Coherent st₁ inode) (hcoh₂ : Coherent st₂ inode)
    (hbuffer : ∀ k < size, st₁.mem (buffer + k) = st₂.mem (buffer + k)) :
    SameRead st₁ st₂ fp buffer offset size ↔ SameServed st₁ st₂ inode buffer offset size := by
  by_cases htrivial : buffer = 0 ∨ size = 0 ∨ inode.size < offset
  · refine iff_of_true ⟨1, 1, st₁, st₂, 0, dfsRead_nothing hfound₁ htrivial,
      dfsRead_nothing hfound₂ htrivial, fun k hk => absurd hk (not_lt_zero k)⟩ ?_
    rcases htrivial with h | h | h
    · exact .inl h
    · exact .inr (.inl h)
    · exact .inr (.inr (.inl h))
  obtain ⟨hnull, hzero, hfile⟩ : buffer ≠ 0 ∧ size ≠ 0 ∧ offset ≤ inode.size := by
    simpa only [not_or, not_lt] using htrivial
  have hs : 0 < size := pos_of_ne_zero hzero
  replace hreq₁ := hreq₁ hnull hs hfile
  replace hreq₂ := hreq₂ hnull hs hfile
  constructor
  · rintro ⟨fuel1, fuel2, st1', st2', n, h1, h2, -⟩
    obtain ⟨hn, hcount1, hserved⟩ := Returns.served hreq₁ ⟨fuel1, h1⟩
    obtain ⟨-, hcount2, -⟩ := Returns.served hreq₂ ⟨fuel2, h2⟩
    have hsame := (servedSize_eq_iff hfile).mp (hcount1.symm.trans hcount2)
    exact .inr (.inr (.inr ⟨hn, hsame, hserved⟩))
  · intro hcond
    simp only [SameServed, hnull, hzero, not_lt.mpr hfile, false_or] at hcond
    obtain ⟨hn, hmisses, hserved⟩ := hcond
    have hsame := (servedSize_eq_iff hfile).mpr hmisses
    obtain ⟨s1, m1, ⟨fuel1, hr1⟩, hext1, -, hcopied1⟩ := returns_served hreq₁ hn hserved
    obtain ⟨s2, m2, ⟨fuel2, hr2⟩, hext2, -, hcopied2⟩ := returns_served hreq₂ hn (hsame ▸ hserved)
    refine ⟨fuel1, fuel2, _, _, servedSize st₁ inode offset size, hr1, hsame ▸ hr2, fun k hk => ?_⟩
    have hpos : 0 < servedSize st₁ inode offset size := zero_lt_of_lt hk
    have hle := servedSize_le st₁ inode offset size
    -- the two files have the same bytes
    have hcontent : content st₂ inode = content st₁ inode := by
      funext pos
      rw [hcoh₁.content, hcoh₂.content, hdisk]
    have hcopied2 := hcopied2 (hsame ▸ hpos)
    rw [hcontent, ← hsame] at hcopied2
    refine (hcopied1 hpos).agree hcopied2 (hserved.resolve_left hpos.ne') ?_
    rw [hext1.mem_buffer hreq₁ hk, hext2.mem_buffer hreq₂ (hsame ▸ hk)]
    exact hbuffer k (lt_of_lt_of_le hk hle)

/-- The file of 16 bytes with its page on the disk only. -/
def smallFileMissing : FsState :=
  ⟨[], [4096], [], fun _ => some smallFile, fun _ => 0, fun _ => 0⟩

/-- A request for the beginning of this file, up to the end of its page. -/
lemma smallFile_request_page {len : Nat} (hframes : frames st = [4096]) (hfaults : st.faults = [])
    (hfound : st.inodes [] = some smallFile)
    (hsupply : [0].countP (Missing st.cache 1 0) ≤ st.free.length) (hs : 0 < size)
    (hsize : size ≤ 4096) (hlen : len ≤ 4096) : Request st [] smallFile 0x200000 len 0 size := by
  have hmem : ∀ f ∈ frames st, f = 4096 := by
    rw [hframes]
    exact fun f hf => List.mem_singleton.mp hf
  have hcount : pageCount 0 size = 1 := by
    have htouched : pagesTouched 0 size = 1 := by
      simp only [pagesTouched]
      omega
    rw [pageCount_eq_touched (by omega) (by omega)] <;> rw [htouched]
    norm_num
  refine ⟨⟨fun f hf => ?_, hframes ▸ List.nodup_singleton 4096, hfaults⟩, hfound,
    by decide, by decide, by decide, by decide, .inr (.inl (by omega)), fun f hf => ?_,
    zero_le _, hs, by omega, ?_⟩
  · rw [hmem f hf]
    decide
  · rw [hmem f hf, direct_eq (by norm_num)]
    simp only [Apart]
    omega
  · rw [hcount]
    exact hsupply

lemma smallFile_coherent : Coherent smallFileCached smallFile ∧
    Coherent smallFileMissing smallFile :=
  ⟨fun _ _ _ _ _ => rfl, fun _ _ _ _ _ => rfl⟩

/-- The whole file is read, with its page cached and without. -/
theorem dfs_read_transparent_small :
    SameServed smallFileCached smallFileMissing smallFile 0x200000 0 16 ∧
      SameRead smallFileCached smallFileMissing [] 0x200000 0 16 := by
  have hcond : SameServed smallFileCached smallFileMissing smallFile 0x200000 0 16 := by
    have hcached : servedSize smallFileCached smallFile 0 16 = 16 := by decide
    refine .inr (.inr (.inr ⟨by decide, .inl (by decide), .inr ?_⟩))
    rw [hcached]
    exact ⟨by decide, .inl (by decide)⟩
  have hdisk : smallFileMissing.disk = smallFileCached.disk := rfl
  refine ⟨hcond, (dfs_read_transparent_iff hdisk rfl rfl (fun _ _ _ => ?_) (fun _ _ _ => ?_)
    smallFile_coherent.1 smallFile_coherent.2 fun _ _ => rfl).mpr hcond⟩
  · exact smallFile_request_page rfl rfl rfl (by decide) (by decide) (by decide) (by decide)
  · exact smallFile_request_page rfl rfl rfl (by decide) (by decide) (by decide) (by decide)

/-- 32 bytes are asked for from the file of 16. With the page cached the call returns 32,
otherwise 16. -/
theorem dfs_read_sees_cache : (Request smallFileCached [] smallFile 0x200000 32 0 32 ∧
      Request smallFileMissing [] smallFile 0x200000 32 0 32) ∧
      (Coherent smallFileCached smallFile ∧ Coherent smallFileMissing smallFile) ∧
      (dfsRead 1 smallFileCached [] 0x200000 0 32).map Prod.snd = some 32 ∧
      (dfsRead 2 smallFileMissing [] 0x200000 0 32).map Prod.snd = some 16 ∧
      ¬ SameRead smallFileCached smallFileMissing [] 0x200000 0 32 := by
  have hcached : (dfsRead 1 smallFileCached [] 0x200000 0 32).map snd = some 32 := by decide +kernel
  have hmissing : (dfsRead 2 smallFileMissing [] 0x200000 0 32).map snd = some 16 := by
    decide +kernel
  refine ⟨⟨?_, ?_⟩, smallFile_coherent, hcached, hmissing, ?_⟩
  · exact smallFile_request_page rfl rfl rfl (by decide) (by decide) (by decide) (by decide)
  · exact smallFile_request_page rfl rfl rfl (by decide) (by decide) (by decide) (by decide)
  · rintro ⟨fuel1, fuel2, st1', st2', n, h1, h2, -⟩
    obtain ⟨r1, hr1, hn1⟩ := map_eq_some_iff.mp hcached
    obtain ⟨r2, hr2, hn2⟩ := map_eq_some_iff.mp hmissing
    have hreturns1 : Returns readMode smallFileCached [] 0x200000 0 32 r1 := ⟨1, hr1⟩
    have hreturns2 : Returns readMode smallFileMissing [] 0x200000 0 32 r2 := ⟨2, hr2⟩
    rw [hreturns1.unique ⟨fuel1, h1⟩] at hn1
    rw [hreturns2.unique ⟨fuel2, h2⟩] at hn2
    exact absurd (hn1.symm.trans hn2) (by decide)

end DestinX.Fs
