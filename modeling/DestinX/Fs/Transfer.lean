import DestinX.Fs.Load
import Mathlib.Tactic.IntervalCases

/-!
# One call of `dfs_read` or `dfs_write`

What both functions share. The pages of a request are counted; a call that finds all
of them copies, and a call that does not loads the missing ones and calls itself,
for a size cut at the end of the file.
-/

namespace DestinX.Fs

open Base List Nat

/-! ## The pages of a request -/

variable {offset size count start buffer : Nat} {pages : Nat → Nat}

lemma pageStart_eq (ho : offset < 2 ^ 64) : pageStart offset = offset / 4096 * 4096 :=
  and_high_mask (n := 64) (k := 12) ho (by norm_num)

lemma pageStart_div (ho : offset < 2 ^ 64) : pageStart offset / 4096 = offset / 4096 := by
  rw [pageStart_eq ho]
  exact Nat.mul_div_cancel _ (by norm_num)

lemma pageCount_eq (ho : offset < 2 ^ 64) (hs : size < 2 ^ 64) :
    pageCount offset size = (offset % 4096 + size + 4095) % 2 ^ 64 / 4096 := by
  rw [pageCount, pageStart_eq ho]
  simp only [sub64, add64]
  omega

/-- The number of pages that the request touches. -/
def pagesTouched (offset size : Nat) : Nat := (offset % 4096 + size + 4095) / 4096

lemma pagesTouched_bounds (offset : Nat) (hs : 0 < size) :
    0 < pagesTouched offset size ∧ offset % 4096 + size ≤ pagesTouched offset size * 4096 ∧
      (pagesTouched offset size - 1) * 4096 < offset % 4096 + size := by
  simp only [pagesTouched]
  omega

lemma pageCount_eq_touched (ho : offset < 2 ^ 64) (hs : size < 2 ^ 64)
    (hn : pagesTouched offset size < 2 ^ 31) :
    pageCount offset size = pagesTouched offset size := by
  rw [pageCount_eq ho hs]
  simp only [pagesTouched] at hn ⊢
  omega

/-! ## The pieces that are copied -/

/-- Where in the buffer the bytes of page `j` begin. -/
def pieceStart (offset j : Nat) : Nat := if j = 0 then 0 else j * 4096 - offset

/-- How many bytes are copied for page `j`. -/
def pieceLen (count offset size j : Nat) : Nat :=
  if count = 1 then size
  else if j = 0 then 4096 - offset
  else if j + 1 = count then (size + offset) % 4096
  else 4096

/-- The piece for page `j` when the request starts in the first page of the file, or
right behind it, or touches one page only. -/
def pieceAt (count : Nat) (pages : Nat → Nat) (buffer offset size start j : Nat) : Piece :=
  ⟨buffer + pieceStart offset j, add64 (direct (pages j)) (if j = 0 then start else 0),
    pieceLen count offset size j⟩

lemma pieceStart_add_len_le {j : Nat} (hs : 0 < size) (hj : j < pagesTouched offset size) :
    pieceStart offset j + pieceLen (pagesTouched offset size) offset size j ≤ size := by
  obtain ⟨-, hle, hlt⟩ := pagesTouched_bounds offset hs
  simp only [pieceStart, pieceLen]
  generalize pagesTouched offset size = n at *
  split_ifs <;> omega

lemma pieceLen_le {j : Nat} (hs : 0 < size) :
    pieceLen (pagesTouched offset size) offset size j ≤ 4096 := by
  obtain ⟨-, hle, -⟩ := pagesTouched_bounds offset hs
  simp only [pieceLen]
  generalize pagesTouched offset size = n at *
  split_ifs <;> omega

lemma direct_lt (f : Nat) : direct f < 2 ^ 64 := mod_lt _ (by norm_num)

lemma add64_direct_zero (f : Nat) : add64 (direct f) 0 = direct f := by
  have := direct_lt f
  simp only [add64]
  omega

lemma pieces_one (pages : Nat → Nat) (buffer offset size start : Nat) :
    ∃ ps, pieces 1 pages buffer offset size start = some ps ∧
      ∀ q, q ∈ ps ↔ ∃ j < 1, q = pieceAt 1 pages buffer offset size start j := by
  refine ⟨_, rfl, fun q => ?_⟩
  simp [pieceAt, pieceStart, pieceLen]

lemma pieces_two (pages : Nat → Nat) (size start : Nat) (ho : offset ≤ 4096)
    (hb : buffer + 4096 - offset < 2 ^ 64) :
    ∃ ps, pieces 2 pages buffer offset size start = some ps ∧
      ∀ q, q ∈ ps ↔ ∃ j < 2, q = pieceAt 2 pages buffer offset size start j := by
  have h0 : sub64 4096 offset = 4096 - offset := by
    simp only [sub64]
    omega
  have h1 : sub64 (add64 buffer 4096) offset = buffer + (4096 - offset) := by
    simp only [sub64, add64]
    omega
  have h2 : add64 size offset % 4096 = (size + offset) % 4096 := by
    simp only [add64]
    omega
  refine ⟨_, rfl, fun q => ?_⟩
  rw [h0, h1, h2]
  constructor
  · intro hq
    simp only [mem_cons, not_mem_nil, or_false] at hq
    rcases hq with rfl | rfl
    · exact ⟨0, by norm_num, by simp [pieceAt, pieceStart, pieceLen]⟩
    · exact ⟨1, by norm_num, by simp [pieceAt, pieceStart, pieceLen, add64_direct_zero]⟩
  · rintro ⟨j, hj, rfl⟩
    interval_cases j <;> simp [pieceAt, pieceStart, pieceLen, add64_direct_zero]

lemma pieces_many {n : Nat} (pages : Nat → Nat) (size start : Nat) (ho : offset ≤ 4096)
    (hb : buffer + (n + 2) * 4096 - offset < 2 ^ 64) (hint : n * 4096 < 2 ^ 31) :
    ∃ ps, pieces (n + 3) pages buffer offset size start = some ps ∧
      ∀ q, q ∈ ps ↔ ∃ j < n + 3, q = pieceAt (n + 3) pages buffer offset size start j := by
  have h₀ : sub64 4096 offset = 4096 - offset := by
    simp only [sub64]
    omega
  have h1 : ∀ k < n + 1, add64 (sub64 (add64 buffer 4096) offset) (k * 4096) =
      buffer + ((k + 1) * 4096 - offset) := by
    intro k hk
    simp only [sub64, add64]
    omega
  have h2 : add64 size offset % 4096 = (size + offset) % 4096 := by
    simp only [add64]
    omega
  have h3 : add64 (sub64 buffer offset) ((n + 2) * 4096) = buffer + ((n + 2) * 4096 - offset) := by
    simp only [sub64, add64]
    omega
  refine ⟨_, if_pos hint, fun q => ?_⟩
  rw [h₀, h2, h3]
  simp only [cons_append, mem_cons, mem_append, mem_map, mem_range, not_mem_nil, or_false]
  constructor
  · rintro (rfl | ⟨k, hk, rfl⟩ | rfl)
    · exact ⟨0, by omega, by simp [pieceAt, pieceStart, pieceLen]⟩
    · refine ⟨k + 1, by omega, ?_⟩
      have hne : k ≠ n + 1 := by omega
      rw [h1 k hk]
      simp [pieceAt, pieceStart, pieceLen, add64_direct_zero, hne]
    · exact ⟨n + 2, by omega, by simp [pieceAt, pieceStart, pieceLen, add64_direct_zero]⟩
  · rintro ⟨j, hj, rfl⟩
    by_cases h0 : j = 0
    · left
      simp [h0, pieceAt, pieceStart, pieceLen]
    · right
      by_cases hlast : j = n + 2
      · right
        simp [hlast, pieceAt, pieceStart, pieceLen, add64_direct_zero]
      · left
        obtain ⟨k, rfl⟩ : ∃ k, j = k + 1 := ⟨j - 1, by omega⟩
        have hne : k ≠ n + 1 := by omega
        refine ⟨k, by omega, ?_⟩
        rw [h1 k (by omega)]
        simp [pieceAt, pieceStart, pieceLen, add64_direct_zero, hne]

/-- The largest `(i - 1) * PAGE_SIZE_4KB` of the loop fits into an `int`. -/
lemma int_index {n : Nat} (h : n + 3 ≤ 524290) : n * 4096 < 2 ^ 31 := by omega

/-- The calls of `memcpy`, one for each page. -/
lemma pieces_spec (pages : Nat → Nat) (start : Nat) (hs : 0 < size) (hb : buffer + size ≤ 2 ^ 64)
    (ho : offset ≤ 4096 ∨ pagesTouched offset size = 1) (hint : pagesTouched offset size ≤ 524290) :
    ∃ ps, pieces (pagesTouched offset size) pages buffer offset size start = some ps ∧
      ∀ q, q ∈ ps ↔ ∃ j < pagesTouched offset size,
        q = pieceAt (pagesTouched offset size) pages buffer offset size start j := by
  obtain ⟨hpos, hle, hlt⟩ := pagesTouched_bounds offset hs
  have hcases : pagesTouched offset size = 1 ∨ pagesTouched offset size = 2 ∨
      ∃ n, pagesTouched offset size = n + 3 := by
    by_cases h3 : 3 ≤ pagesTouched offset size
    · exact .inr (.inr ⟨pagesTouched offset size - 3, by omega⟩)
    · omega
  rcases hcases with hn | hn | ⟨n, hn⟩
  · rw [hn]
    exact pieces_one pages buffer offset size start
  · have ho : offset ≤ 4096 := by omega
    have hb : buffer + 4096 - offset < 2 ^ 64 := by omega
    rw [hn]
    exact pieces_two pages size start ho hb
  · have hint : n * 4096 < 2 ^ 31 := int_index (hn ▸ hint)
    have ho : offset ≤ 4096 := by omega
    have hb : buffer + (n + 2) * 4096 - offset < 2 ^ 64 := by omega
    rw [hn]
    exact pieces_many pages size start ho hb hint

lemma pieces_none (pages : Nat → Nat) (start : Nat) (hcount : count = 0 ∨ 524290 < count) :
    pieces count pages buffer offset size start = none := by
  rcases hcount with rfl | hcount
  · rfl
  · obtain ⟨n, rfl⟩ : ∃ n, count = n + 3 := ⟨count - 3, by omega⟩
    exact if_neg (by omega)

/-- Behind the second page of the file, the length of the first piece wraps around. -/
lemma pieces_wrapped (ho : 4096 < offset) (ho' : offset < 2 ^ 63) (hcount : 2 ≤ count)
    {ps : List Piece} (h : pieces count pages buffer offset size start = some ps) :
    ∃ q ∈ ps, q.len = 2 ^ 64 + 4096 - offset := by
  have hlen : sub64 4096 offset = 2 ^ 64 + 4096 - offset := by
    simp only [sub64]
    omega
  match count, hcount, h with
  | 2, _, h =>
    cases h
    exact ⟨_, mem_cons_self, hlen⟩
  | n + 3, _, h =>
    simp only [pieces] at h
    split_ifs at h
    cases h
    exact ⟨_, mem_cons_self, hlen⟩

/-! ## The request -/

/-- The file exists and its extent is on the disk, its pages fit into it, the pages
of the request that are missing can be loaded, and the caller owns `len` bytes at
the buffer, which are in no frame of the cache. -/
structure Request (st : FsState) (fp : List UInt8) (inode : Inode) (buffer len offset size : Nat) :
    Prop where
  ready : Ready st
  found : st.inodes fp = some inode
  extent : inode.size ≤ inode.length * 4096
  onDisk : (inode.startBlock + inode.length) * 8 ≤ 2 ^ 48
  length : inode.length < 2 ^ 32
  notNull : buffer ≠ 0
  canonical : Canonical buffer len
  apart : ∀ f ∈ frames st, Apart buffer len (direct f) 4096
  inFile : offset ≤ inode.size
  positive : 0 < size
  word : size < 2 ^ 64
  supply : (List.range (pageCount offset size)).countP
    (Missing st.cache inode.inodeNum (offset / 4096)) ≤ st.free.length

/-- All pages of the request are cached. -/
def AllCached (cache : List CachePage) (inode : Inode) (offset count : Nat) : Prop :=
  ∀ i < count, getPageCache cache inode.inodeNum (offset / 4096 + i) ≠ none

variable {st st' : FsState} {fp : List UInt8} {inode : Inode} {len fuel : Nat} {mode : Mode}

/-- A request does not depend on the bytes in memory and on the disk. -/
lemma Request.withBytes (h : Request st fp inode buffer len offset size) (disk : Nat → UInt8)
    (mem : Mem) : Request { st with disk := disk, mem := mem } fp inode buffer len offset size :=
  ⟨⟨h.ready.frame, h.ready.nodup, h.ready.faults⟩, h.found, h.extent, h.onDisk, h.length, h.notNull,
    h.canonical, h.apart, h.inFile, h.positive, h.word, h.supply⟩

lemma AllCached.mono {cache : List CachePage} {count' : Nat}
    (h : AllCached cache inode offset count) (hle : count' ≤ count) :
    AllCached cache inode offset count' :=
  fun i hi => h i (lt_of_lt_of_le hi hle)

lemma miss_iff {cache : List CachePage} :
    miss cache inode.inodeNum (offset / 4096) count = false ↔
      AllCached cache inode offset count := by
  simp [miss, AllCached, Option.ne_none_iff_isSome]

lemma Request.offset_lt (h : Request st fp inode buffer len offset size) : offset ≤ 2 ^ 44 := by
  have h₁ := h.inFile
  have h2 := h.extent
  have h₃ := h.length
  omega

lemma mark_same (mode : Mode) (id first count : Nat) (cache : List CachePage) :
    SameAddrs cache (mode.mark id first count cache) := by
  have hfold : ∀ (is : List Nat) (cache : List CachePage),
      SameAddrs cache (is.foldl (fun cache i => markDirty id (first + i) cache) cache) := by
    intro is
    induction is with
    | nil => exact fun cache => SameAddrs.refl cache
    | cons i is ih => exact fun cache => (markDirty_same id (first + i) cache).trans (ih _)
  rw [Mode.mark]
  split_ifs
  · exact hfold _ cache
  · exact SameAddrs.refl cache

section Body

variable {again : FsState → Nat → Option (FsState × Nat)}

lemma transferBody_nothing (hargs : buffer = 0 ∨ size = 0) :
    transferBody mode again st fp buffer offset size = some (st, 0) := by
  rw [transferBody, if_pos hargs]

lemma transferBody_behind (hinode : st.inodes fp = some inode)
    (hargs : ¬ (buffer = 0 ∨ size = 0)) (hbehind : inode.size < offset) :
    transferBody mode again st fp buffer offset size = some (st, 0) := by
  rw [transferBody, if_neg hargs, hinode, Option.bind_some, if_pos hbehind]

/-- With all pages in the cache the function does not call itself. -/
lemma transferBody_cached (hinode : st.inodes fp = some inode) (ho : offset < 2 ^ 64)
    (hin : offset ≤ inode.size) (hcount : pageCount offset size < 2 ^ 31)
    (hall : AllCached st.cache inode offset (pageCount offset size))
    (hargs : ¬ (buffer = 0 ∨ size = 0)) :
    transferBody mode again st fp buffer offset size = mode.hit inode st buffer offset size := by
  have hmiss : miss st.cache inode.inodeNum (pageStart offset / 4096) (pageCount offset size) =
      false := by
    rw [pageStart_div ho]
    exact miss_iff.mpr hall
  rw [transferBody, if_neg hargs, hinode, Option.bind_some, if_neg (not_lt.mpr hin),
    if_neg (not_le.mpr hcount), hmiss, if_neg Bool.false_ne_true]

/-- When all loads succeed the function calls itself with the size that is left. -/
lemma transferBody_loaded (hinode : st.inodes fp = some inode) (hin : offset ≤ inode.size)
    (hcount : pageCount offset size < 2 ^ 31) (hargs : ¬ (buffer = 0 ∨ size = 0))
    (hmiss : miss st.cache inode.inodeNum (pageStart offset / 4096) (pageCount offset size) = true)
    (hload : mode.load inode st offset size = .ok st') :
    transferBody mode again st fp buffer offset size = again st' (cutSize inode offset size) := by
  rw [transferBody, if_neg hargs, hinode, Option.bind_some, if_neg (not_lt.mpr hin),
    if_neg (not_le.mpr hcount), hmiss, if_pos rfl, hload]

end Body

lemma Request.asks (h : Request st fp inode buffer len offset size) : ¬ (buffer = 0 ∨ size = 0) :=
  not_or.mpr ⟨h.notNull, h.positive.ne'⟩

/-- The cache when the pages that were found have been marked. -/
def Mode.marked (mode : Mode) (inode : Inode) (st : FsState) (offset size : Nat) : FsState :=
  { st with
    cache := mode.mark inode.inodeNum (pageStart offset / 4096) (pageCount offset size) st.cache }

lemma sector_lt {k : Nat} (ho : offset < 2 ^ 64) (hblock : inode.startBlock ≤ 2 ^ 60)
    (hk : k < 2 ^ 31) : (offset / 4096 + k) * 8 + inode.startBlock * 8 < 2 ^ 64 := by omega

/-- The loads of a call, as far as they came. -/
lemma load_added (hsound : Sound st) (ho : offset < 2 ^ 64) (hblock : inode.startBlock ≤ 2 ^ 60)
    (hcount : pageCount offset size < 2 ^ 31) (hload : Ends (mode.load inode st offset size) st') :
    ∃ new, Added inode (mode.marked inode st offset size) st' new ∧ st'.inodes = st.inodes ∧
      (∀ c ∈ new, c.flags = mode.flags) ∧
      ((range (pageCount offset size)).countP (Missing st.cache inode.inodeNum (offset / 4096)) ≤
        st.free.length → ∀ c ∈ new, c.addr ≠ 0) ∧
      (mode.load inode st offset size = .ok st' →
        AllCached st'.cache inode offset (pageCount offset size)) := by
  have hsame := mark_same mode inode.inodeNum (pageStart offset / 4096) (pageCount offset size)
    st.cache
  have hpages : FreePages (mode.marked inode st offset size) :=
    ⟨hsound.freePages.page, hsound.freePages.nodup⟩
  have hzero : ∀ k, cachedPages st.cache inode.inodeNum (pageStart offset / 4096) k = 0 ↔
      getPageCache st.cache inode.inodeNum (pageStart offset / 4096 + k) = none := by
    intro k
    cases hc : getPageCache st.cache inode.inodeNum (pageStart offset / 4096 + k) with
    | none => simp [cachedPages, hc]
    | some c =>
      have hne := (hsound.frame c.addr (mem_frames_of_cached hc)).1
      simp [cachedPages, hc, hne]
  have hlba : ∀ k ∈ range (pageCount offset size),
      (pageStart offset / 4096 + k) * 8 + inode.startBlock * 8 < 2 ^ 64 := by
    intro k hk
    rw [pageStart_div ho]
    exact sector_lt ho hblock (lt_trans (mem_range.mp hk) hcount)
  obtain ⟨new, hadded, -, hinodes, hflags, hframed, hall⟩ :=
    (Added.refl inode (mode.marked inode st offset size)).loadPages hpages hlba
      (fun k _ hk => hsame.none_iff.mpr ((hzero k).mp hk)) hload
  refine ⟨new, hadded, hinodes, fun c hc => (hflags c hc).resolve_left not_mem_nil,
    fun hsupply => hframed (le_of_eq_of_le (countP_congr fun k _ => ?_) hsupply)
      fun c hc => absurd hc not_mem_nil, fun hok k hk hnone => ?_⟩
  · rw [decide_eq_true_eq, hzero, pageStart_div ho, missing_iff]
  · rw [← pageStart_div ho, hadded.lookup] at hnone
    obtain ⟨hnew, hold⟩ := Option.or_eq_none_iff.mp hnone
    obtain ⟨c, hc, hindx⟩ := hall hok k (mem_range.mpr hk) ((hzero k).mpr (hsame.none_iff.mp hold))
    have hno := find?_eq_none.mp hnew c hc
    rw [decide_eq_true_eq] at hno
    exact hno ⟨hadded.id c hc, hindx⟩

/-- Marking pages does not count. -/
lemma Extends.unmarked {flags : Nat}
    (h : Extends inode flags (mode.marked inode st offset size) st') :
    (∀ pos, Fs.content st' inode pos = Fs.content st inode pos) ∧
      ∀ a, (∀ f ∈ st.free, f ∉ st'.free → ¬ (direct f ≤ a ∧ a < direct f + 4096)) →
        st'.mem a = st.mem a :=
  ⟨fun pos => (h.content pos).trans (content_congr st (mark_same ..) inode pos), h.mem⟩

lemma Request.startBlock_le (h : Request st fp inode buffer len offset size) :
    inode.startBlock ≤ 2 ^ 60 := by
  have := h.onDisk
  omega

/-! ## A call that copies -/

/-- The physical address of page `j` of the request. -/
def framesOf (st : FsState) (inode : Inode) (offset j : Nat) : Nat :=
  cachedPages st.cache inode.inodeNum (offset / 4096) j

/-- A call that finds all pages returns when its pieces exist and stay within the
canonical addresses. -/
lemma hit_eq_some (ho : offset < 2 ^ 64) {r : FsState × Nat} :
    mode.hit inode st buffer offset size = some r ↔
      ∃ ps, pieces (pageCount offset size) (framesOf st inode offset) buffer offset size
          (mode.start offset) = some ps ∧
        (∀ c ∈ ps.map mode.copy, Canonical c.dst c.len ∧ Canonical c.src c.len) ∧
        ({ st with
          cache := mode.mark inode.inodeNum (offset / 4096) (pageCount offset size) st.cache
          mem := runCopies st.mem (ps.map mode.copy) }, size) = r := by
  rw [Mode.hit, pageStart_div ho, Option.bind_eq_some_iff]
  refine exists_congr fun ps => and_congr_right fun _ => ?_
  rw [memcpys]
  split_ifs with hc
  · rw [Option.map_some, Option.some_inj]
    exact (and_iff_right hc).symm
  · exact iff_of_false (Option.some_ne_none r).symm fun h => hc h.1

/-- The bytes of a cached page of the request are those of the file. -/
lemma AllCached.content (h : AllCached st.cache inode offset count) {j : Nat} (hj : j < count)
    {d : Nat} (hd : d < 4096) : content st inode ((offset / 4096 + j) * 4096 + d) =
      st.mem (direct (framesOf st inode offset j) + d) := by
  obtain ⟨c, hc⟩ := Option.ne_none_iff_exists'.mp (h j hj)
  rw [Fs.content, framesOf, cachedPages_eq hc, show ((offset / 4096 + j) * 4096 + d) / 4096 =
    offset / 4096 + j by omega, hc, show ((offset / 4096 + j) * 4096 + d) % 4096 = d by omega]

lemma AllCached.framesOf_mem (h : AllCached st.cache inode offset count) {j : Nat}
    (hj : j < count) : framesOf st inode offset j ∈ frames st := by
  obtain ⟨c, hc⟩ := Option.ne_none_iff_exists'.mp (h j hj)
  rw [framesOf, cachedPages_eq hc]
  exact mem_frames_of_cached hc

/-! ## Canonical ranges -/

lemma Canonical.sub {a b n m : Nat} (h : Canonical a n) (hle : a ≤ b) (hend : b + m ≤ a + n) :
    Canonical b m := by
  simp only [Canonical] at h ⊢
  omega

lemma Canonical.len_le {a n : Nat} (h : Canonical a n) : n ≤ 2 ^ 47 := by
  simp only [Canonical] at h
  omega

lemma Canonical.end_le {a n : Nat} (h : Canonical a n) (hn : 0 < n) : a + n ≤ 2 ^ 64 := by
  simp only [Canonical] at h
  omega

lemma Ready.canonical (h : Ready st) {f : Nat} (hf : f ∈ frames st) :
    Canonical (direct f) 4096 := by
  obtain ⟨-, -, hf⟩ := h.frame f hf
  rw [direct_eq hf]
  simp only [Canonical]
  omega

/-! ## The result of a call -/

/-- The call returns, with this state and this number. -/
def Returns (mode : Mode) (st : FsState) (fp : List UInt8) (buffer offset size : Nat)
    (r : FsState × Nat) : Prop :=
  ∃ fuel, transfer mode fuel st fp buffer offset size = some r

variable {r : FsState × Nat}

lemma returns_succ : Returns mode st fp buffer offset size r ↔
    ∃ fuel, transfer mode (fuel + 1) st fp buffer offset size = some r := by
  constructor
  · rintro ⟨fuel, hf⟩
    cases fuel with
    | zero => cases hf
    | succ fuel => exact ⟨fuel, hf⟩
  · rintro ⟨fuel, hf⟩
    exact ⟨fuel + 1, hf⟩

lemma pagesTouched_mono {size' : Nat} (offset : Nat) (h : size ≤ size') :
    pagesTouched offset size ≤ pagesTouched offset size' :=
  Nat.div_le_div_right (by omega)

lemma Request.pageCount (h : Request st fp inode buffer len offset size)
    (hn : pagesTouched offset size < 2 ^ 31) :
    pageCount offset size = pagesTouched offset size := by
  have ho := h.offset_lt
  exact pageCount_eq_touched (by omega) h.word hn

lemma Request.cutSize (h : Request st fp inode buffer len offset size)
    (hn : pagesTouched offset size < 2 ^ 31) :
    cutSize inode offset size = min size (inode.size - offset) := by
  have ho := h.offset_lt
  have hfile := h.inFile
  have hend := (pagesTouched_bounds offset h.positive).2.1
  have hadd : add64 offset size = offset + size := mod_eq_of_lt (by omega)
  rw [Fs.cutSize]
  simp only [sub64]
  split_ifs <;> omega

/-- The copies of a request that starts in the first page, or right behind it, or
touches one page only, when the copy of page `j` is `copy j`. -/
lemma Request.copies_spec (h : Request st fp inode buffer size offset size) (mode : Mode)
    {copy : Nat → Copy} (hint : pagesTouched offset size ≤ 524290)
    (ho : offset ≤ 4096 ∨ pagesTouched offset size = 1)
    (hcopy : ∀ j, mode.copy (pieceAt (pagesTouched offset size) (framesOf st inode offset) buffer
      offset size (mode.start offset) j) = copy j) :
    ∃ ps, pieces (Fs.pageCount offset size) (framesOf st inode offset) buffer offset size
        (mode.start offset) = some ps ∧
      ∀ c, c ∈ ps.map mode.copy ↔ ∃ j < pagesTouched offset size, c = copy j := by
  have hend := h.canonical.end_le h.positive
  obtain ⟨ps, hps, hmem⟩ := pieces_spec (framesOf st inode offset) (mode.start offset)
    h.positive hend ho hint
  refine ⟨ps, by rw [h.pageCount (by omega)]; exact hps, fun c => ?_⟩
  rw [mem_map]
  constructor
  · rintro ⟨q, hq, rfl⟩
    obtain ⟨j, hj, rfl⟩ := (hmem q).mp hq
    exact ⟨j, hj, hcopy j⟩
  · rintro ⟨j, hj, rfl⟩
    exact ⟨_, (hmem _).mpr ⟨j, hj, rfl⟩, hcopy j⟩

lemma Request.again (h : Request st fp inode buffer len offset size) {n : Nat}
    (hext : Extends inode mode.flags (mode.marked inode st offset size) st')
    (hall : AllCached st'.cache inode offset (Fs.pageCount offset n)) (hpos : 0 < n)
    (hword : n < 2 ^ 64) : Request st' fp inode buffer len offset n := by
  have hframes : (frames st').Perm (frames st) := by
    refine hext.frames.trans (List.Perm.of_eq ?_)
    rw [frames, frames, Mode.marked, (mark_same mode inode.inodeNum _ _ st.cache).addrs]
  refine ⟨hext.ready, ?_, h.extent, h.onDisk, h.length, h.notNull, h.canonical,
    fun f hf => h.apart f (hframes.mem_iff.mp hf), h.inFile, hpos, hword, ?_⟩
  · rw [hext.inodes]
    exact h.found
  · rw [countP_eq_zero.mpr]
    · exact zero_le _
    · intro i hi hmiss
      exact hall i (mem_range.mp hi) (missing_iff.mp hmiss)

lemma returns_hit (h : Request st fp inode buffer len offset size)
    (hcount : pageCount offset size < 2 ^ 31)
    (hall : AllCached st.cache inode offset (pageCount offset size)) :
    Returns mode st fp buffer offset size r ↔ mode.hit inode st buffer offset size = some r := by
  have ho := h.offset_lt
  have hstep : ∀ fuel, transfer mode (fuel + 1) st fp buffer offset size =
      mode.hit inode st buffer offset size := fun fuel =>
    transferBody_cached h.found (by omega) h.inFile hcount hall h.asks
  rw [returns_succ]
  simp only [hstep, exists_const]

/-- With a page missing, the call returns what the call for the cut size returns after
the pages have been loaded. -/
lemma returns_miss (mode : Mode) (h : Request st fp inode buffer len offset size)
    (hcount : pageCount offset size < 2 ^ 31)
    (hmiss : ¬ AllCached st.cache inode offset (pageCount offset size)) :
    ∃ st', Extends inode mode.flags (mode.marked inode st offset size) st' ∧
      AllCached st'.cache inode offset (pageCount offset size) ∧
      ∀ r, Returns mode st fp buffer offset size r ↔
        Returns mode st' fp buffer offset (cutSize inode offset size) r := by
  have ho := h.offset_lt
  have hready : Ready (mode.marked inode st offset size) := h.ready.same (mark_same ..)
  obtain ⟨st', hload, hfaults⟩ := loadPages_ok inode (pageStart offset / 4096) mode.flags
    (cachedPages st.cache inode.inodeNum (pageStart offset / 4096))
    (range (pageCount offset size)) hready.faults
  have hload : mode.load inode st offset size = .ok st' := hload
  obtain ⟨new, hadded, hinodes, hflags, hframed, hall⟩ := load_added h.ready.sound (by omega)
    h.startBlock_le hcount (.inl hload)
  have hmiss : miss st.cache inode.inodeNum (pageStart offset / 4096) (pageCount offset size) =
      true := by
    rw [pageStart_div (by omega)]
    exact Bool.eq_true_of_not_eq_false (mt miss_iff.mp hmiss)
  have hstep : ∀ fuel, transfer mode (fuel + 1) st fp buffer offset size =
      transfer mode fuel st' fp buffer offset (cutSize inode offset size) := fun fuel =>
    transferBody_loaded h.found h.inFile hcount h.asks hmiss hload
  refine ⟨st', hadded.extends hready hfaults hinodes hflags (hframed h.supply), hall hload,
    fun r => returns_succ.trans (exists_congr fun fuel => ?_)⟩
  rw [hstep]

lemma returns_zero : Returns mode st fp buffer offset 0 r ↔ (st, 0) = r := by
  have hstep : ∀ fuel, transfer mode (fuel + 1) st fp buffer offset 0 = some (st, 0) := by
    intro fuel
    rw [transfer]
    exact if_pos (.inr rfl)
  rw [returns_succ]
  simp only [hstep, exists_const, Option.some_inj]

/-! ## Requests that never return -/

lemma not_returns_many (h : Request st fp inode buffer len offset size)
    (hcount : 2 ^ 31 ≤ pageCount offset size) : ¬ Returns mode st fp buffer offset size r := by
  rw [returns_succ]
  rintro ⟨fuel, hf⟩
  have hargs : ¬ (buffer = 0 ∨ size = 0) := not_or.mpr ⟨h.notNull, h.positive.ne'⟩
  rw [transfer] at hf
  unfold transferBody at hf
  rw [if_neg hargs, h.found, Option.bind_some, if_neg (not_lt.mpr h.inFile), if_pos hcount] at hf
  cases hf

/-- One `memcpy` of more than half the address space does not return. -/
lemma hit_huge (hlen : ∀ p, (mode.copy p).len = p.len) (ho : offset < 2 ^ 64)
    (hsize : 2 ^ 47 < size) (hcount : pageCount offset size ≤ 1) :
    mode.hit inode st buffer offset size ≠ some r := by
  intro hr
  obtain ⟨ps, hps, hcan, -⟩ := (hit_eq_some ho).mp hr
  rcases le_one_iff_eq_zero_or_eq_one.mp hcount with h0 | h1
  · rw [pieces_none _ _ (.inl h0)] at hps
    exact absurd hps.symm (Option.some_ne_none ps)
  · rw [h1] at hps
    cases hps
    have hc := (hcan _ (mem_map_of_mem mem_cons_self)).1.len_le
    rw [hlen] at hc
    exact absurd hsize (not_lt.mpr hc)

/-- The page count of a request this large overflows an `int`, or has wrapped around
to 0 or 1. -/
lemma not_returns_large (h : Request st fp inode buffer len offset size)
    (hlen : ∀ p, (mode.copy p).len = p.len) (hlarge : 2 ^ 31 ≤ pagesTouched offset size) :
    ¬ Returns mode st fp buffer offset size r := by
  have ho := h.offset_lt
  have ho' : offset < 2 ^ 64 := by omega
  have hword := h.word
  have hcount := pageCount_eq ho' hword
  by_cases hmany : 2 ^ 31 ≤ pageCount offset size
  · exact not_returns_many h hmany
  have hwrap : 2 ^ 64 ≤ offset % 4096 + size + 4095 := by
    by_contra hlt
    rw [mod_eq_of_lt (not_le.mp hlt)] at hcount
    exact hmany (hcount ▸ hlarge)
  have hone : pageCount offset size ≤ 1 := by omega
  have hsize : 2 ^ 47 < size := by omega
  by_cases hall : AllCached st.cache inode offset (pageCount offset size)
  · rw [returns_hit h (not_le.mp hmany) hall]
    exact hit_huge hlen ho' hsize hone
  · obtain ⟨st', hext, hall', hagain⟩ := returns_miss mode h (not_le.mp hmany) hall
    -- the end of the request has wrapped around, so that the size is not cut
    have hcut : cutSize inode offset size = size := by
      have hfile := h.inFile
      have hne : pageCount offset size ≠ 0 := by
        intro h0
        exact hall fun i hi => absurd hi (by omega)
      rw [cutSize]
      simp only [add64]
      exact if_neg (by omega)
    rw [hagain, hcut, returns_hit (h.again hext hall' h.positive hword) (not_le.mp hmany) hall']
    exact hit_huge hlen ho' hsize hone

/-- The request has more pages than the loop can index, or a length that wraps. -/
lemma hit_none (h : Request st fp inode buffer len offset size)
    (hlen : ∀ p, (mode.copy p).len = p.len) (hn : pagesTouched offset size < 2 ^ 31)
    (hbad : 524290 < pagesTouched offset size ∨ (4096 < offset ∧ 2 ≤ pagesTouched offset size)) :
    mode.hit inode st buffer offset size ≠ some r := by
  have ho := h.offset_lt
  intro hr
  obtain ⟨ps, hps, hcan, -⟩ := (hit_eq_some (by omega)).mp hr
  rw [h.pageCount hn] at hps
  rcases hbad with hmany | ⟨hfar, htwo⟩
  · rw [pieces_none _ _ (.inr hmany)] at hps
    exact absurd hps.symm (Option.some_ne_none ps)
  · obtain ⟨q, hq, hwrap⟩ := pieces_wrapped hfar (by omega) htwo hps
    have hc := (hcan _ (mem_map_of_mem hq)).1.len_le
    rw [hlen] at hc
    omega

end DestinX.Fs
