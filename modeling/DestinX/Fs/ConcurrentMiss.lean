import DestinX.Base.Runs
import DestinX.Fs.OneEntry

/-!
# Several threads that miss the same page

Threads call `dfs_read` and `dfs_write` for bytes of the first page of one file. A call is only
interrupted inside `ahci_read` while the page is loaded. The test for the page and the entry
into `cache_list` lie on the two sides of this wait, and nothing is locked. Lookups of the path and
`ahci_read` also take a frame for a while, for the block of a directory or the command table: at any
time bytes of a free frame may change, and the order in which the free frames are taken.

A run carries along what the writes that have returned have put into the page. The cache agrees
with it as long as a page that has been loaded finds no entry; otherwise the new entry hides
what was written through the other.
-/

namespace DestinX.Fs

open Base Function List Option Nat

/-! ## Calls that wait -/

/-- A call that waits for its page, with the size cut at the end of the file. -/
structure PageLoad where
  write : Bool
  (buffer offset size paddr : Nat)
  deriving DecidableEq, Repr

/-- A call that has returned. -/
structure Return where
  write : Bool
  (buffer offset count : Nat)
  deriving DecidableEq, Repr

/-- The state, the calls that wait, the page as the writes that have returned have left
it, and the call that the last step ended, if any. -/
structure MissState where
  fs : FsState
  loads : Nat → Option PageLoad
  logical : Nat → UInt8
  returned : Option Return

def modeOf (write : Bool) : Mode := if write then writeMode else readMode

/-- A call returns `count`. After a write the page holds the bytes of the buffer. -/
def MissState.finish (s : MissState) (fs : FsState) (write : Bool) (buffer offset count : Nat) :
    MissState :=
  { s with
    fs := fs
    logical := fun pos =>
      if write ∧ offset ≤ pos ∧ pos < offset + count then fs.mem (buffer + (pos - offset))
      else s.logical pos
    returned := some ⟨write, buffer, offset, count⟩ }

/-- A call up to its end, or up to the wait. Of the pages that it asks for none was
found, so none is marked. -/
def MissState.call (fp : List UInt8) (s : MissState) (t : Nat) (write : Bool)
    (buffer offset size : Nat) : Option MissState :=
  if buffer = 0 ∨ size = 0 then some (s.finish s.fs write buffer offset 0)
  else (s.fs.inodes fp).bind fun inode =>
    if inode.size < offset then some (s.finish s.fs write buffer offset 0)
    else if miss s.fs.cache inode.inodeNum (pageStart offset / 4096) (pageCount offset size) then
      let p := pmmAllocPage s.fs
      some { s with
        fs := p.2
        loads := update s.loads t (some ⟨write, buffer, offset, cutSize inode offset size, p.1⟩)
        returned := none }
    else
      ((modeOf write).hit inode s.fs buffer offset size).map fun r =>
        s.finish r.1 write buffer offset r.2

/-- The read of the page that a call waits for ends, and the call goes on. -/
def MissState.loaded (fp : List UInt8) (s : MissState) (t : Nat) : Option MissState :=
  (s.loads t).bind fun l => (s.fs.inodes fp).bind fun inode =>
    let s' := { s with loads := update s.loads t none }
    let r := ahciRead s.fs (add64 (0 * 8) (inode.startBlock * 8)) l.paddr
    if r.2 then
      (transfer (modeOf l.write) 1
          (addPageToCache r.1 inode.inodeNum 0 l.paddr (modeOf l.write).flags) fp l.buffer l.offset
          l.size).map fun q => s'.finish q.1 l.write l.buffer l.offset q.2
    else some (s'.finish (pmmFreePage r.1 l.paddr) l.write l.buffer l.offset 0)

/-! ## Runs -/

inductive MissAction where
  | call (t : Nat) (write : Bool) (buffer offset size : Nat)
  | loaded (t : Nat)
  | store (a : Nat) (b : UInt8)
  | scratch (f : Nat)

/-- The frames that the cache has or gets, as addresses in the direct map. -/
structure FramePool where
  frames : List Nat
  fits : ∀ f ∈ frames, 4096 ∣ f ∧ f + 4096 ≤ 2 ^ 47

/-- The bytes lie in none of the frames. -/
def FramePool.Avoids (pool : FramePool) (a len : Nat) : Prop :=
  ∀ f ∈ pool.frames, Apart a len (direct f) 4096

/-- A thread calls with bytes of the first page and a buffer of its own, a call goes on
after its wait, a thread stores a byte somewhere outside the frames, or a free frame is used for a
while. There are frames for the page, the block of a directory and the command table, of which
there is one at a time, under `read_mutex`. -/
inductive MissStep (pool : FramePool) (fp : List UInt8) : MissState → MissAction → MissState → Prop
  | call {s s' : MissState} {t : Nat} {write : Bool} {buffer offset size : Nat}
      (hidle : s.loads t = none) (hframes : 3 ≤ s.fs.free.length) (hpage : offset + size ≤ 4096)
      (hbuffer : pool.Avoids buffer size) (hrun : s.call fp t write buffer offset size = some s') :
      MissStep pool fp s (.call t write buffer offset size) s'
  | loaded {s s' : MissState} {t : Nat} (hframes : 3 ≤ s.fs.free.length)
      (hrun : s.loaded fp t = some s') : MissStep pool fp s (.loaded t) s'
  | store {s : MissState} {a : Nat} {b : UInt8} (ha : pool.Avoids a 1) :
      MissStep pool fp s (.store a b) { s with
          fs := { s.fs with mem := update s.fs.mem a b }
          returned := none }
  | scratch {s : MissState} {f : Nat} {m : Mem} {free : List Nat} (hfree : f ∈ s.fs.free)
      (hm : ∀ a, ¬ (direct f ≤ a ∧ a < direct f + 4096) → m a = s.fs.mem a)
      (hperm : free.Perm s.fs.free) :
      MissStep pool fp s (.scratch f) { s with
          fs := { s.fs with mem := m, free := free }
          returned := none }

/-- One entry for each page, frames of the pool only, of which those in the cache are not free,
and nobody waiting. -/
structure MissStart (pool : FramePool) (fp : List UInt8) (inode : Inode)
    (s : MissState) : Prop where
  found : s.fs.inodes fp = some inode
  oneEntry : OneEntry s.fs.cache
  cached : ∀ c ∈ s.fs.cache, c.addr ∈ pool.frames
  free : ∀ f ∈ s.fs.free, f ∈ pool.frames
  nodup : s.fs.free.Nodup
  notFree : ∀ c ∈ s.fs.cache, c.addr ∉ s.fs.free
  idle : ∀ t, s.loads t = none
  logical : ∀ pos < 4096, s.logical pos = content s.fs inode pos
  returned : s.returned = none

def missMachine (pool : FramePool) (fp : List UInt8) (inode : Inode) :
    Machine MissState MissAction where
  start := MissStart pool fp inode
  step := MissStep pool fp

/-- A read that succeeds has been for a page without an entry. -/
def NoneEntered (inode : Inode) (s : MissState) : MissAction → Prop
  | .loaded _ => s.fs.faults.head? = some true ∨ getPageCache s.fs.cache inode.inodeNum 0 = none
  | _ => True

/-! ## Bytes of the first page -/

variable {pool : FramePool} {fp : List UInt8} {inode : Inode} {s s' : MissState} {st : FsState}
  {act : MissAction} {c : CachePage} {mode : Mode} {r : FsState × Nat} {write : Bool}
  {t buffer offset size : Nat}

lemma firstPage_start (hs : 0 < size) (hpage : offset + size ≤ 4096) :
    pageStart offset / 4096 = 0 ∧ offset / 4096 = 0 := by
  rw [pageStart_div (by omega)]
  omega

lemma firstPage_count (hs : 0 < size) (hpage : offset + size ≤ 4096) :
    pageCount offset size = 1 := by
  have htouched : pagesTouched offset size = 1 := by
    simp only [pagesTouched]
    omega
  rw [pageCount_eq_touched (by omega) (by omega)] <;> rw [htouched]
  norm_num

lemma miss_one (cache : List CachePage) (id : Nat) :
    miss cache id 0 1 = (getPageCache cache id 0).isNone := by simp [miss]

/-- The page holds the content of the file. -/
lemma content_firstPage (hc : getPageCache st.cache inode.inodeNum 0 = some c) {pos : Nat}
    (hpos : pos < 4096) : content st inode pos = st.mem (direct c.addr + pos) := by
  rw [content, show pos / 4096 = 0 by omega, hc, show pos % 4096 = pos by omega]

lemma content_noPage (hnone : getPageCache st.cache inode.inodeNum 0 = none) {pos : Nat}
    (hpos : pos < 4096) : content st inode pos = st.disk (inode.startBlock * 4096 + pos) := by
  rw [content, show pos / 4096 = 0 by omega, hnone, show pos % 4096 = pos by omega, add_zero]

lemma hit_firstPage (hs : 0 < size) (hpage : offset + size ≤ 4096)
    (hc : getPageCache st.cache inode.inodeNum 0 = some c)
    (hr : mode.hit inode st buffer offset size = some r) : r = ({ st with
      cache := mode.mark inode.inodeNum 0 1 st.cache
      mem := runCopies st.mem
        [mode.copy ⟨buffer, add64 (direct c.addr) (mode.start offset), size⟩] },
        size) := by
  obtain ⟨ps, hps, -, rfl⟩ := (hit_eq_some (by omega)).mp hr
  have hframe : framesOf st inode offset 0 = c.addr := by
    rw [framesOf, (firstPage_start hs hpage).2]
    exact cachedPages_eq hc
  rw [firstPage_count hs hpage] at hps ⊢
  rw [pieces, hframe] at hps
  cases hps
  rw [(firstPage_start hs hpage).2]
  rfl

/-- What a call does to the cache and the page. -/
structure Served₁ (st : FsState) (inode : Inode) (write : Bool) (buffer offset : Nat)
    (r : FsState × Nat) : Prop where
  count : r.2 ≤ 4096
  places : places r.1.cache = places st.cache
  free : r.1.free = st.free
  disk : r.1.disk = st.disk
  inodes : r.1.inodes = st.inodes
  content : ∀ pos < 4096, content r.1 inode pos =
    if write ∧ offset ≤ pos ∧ pos < offset + r.2 then r.1.mem (buffer + (pos - offset))
    else content st inode pos
  read : write = false → ∀ j < r.2, r.1.mem (buffer + j) = Fs.content st inode j

lemma served_nothing (st : FsState) (inode : Inode) (write : Bool) (buffer offset : Nat) :
    Served₁ st inode write buffer offset (st, 0) := by
  refine ⟨zero_le _, rfl, rfl, rfl, rfl, fun pos _ => (if_neg ?_).symm,
    fun _ j hj => absurd hj (not_lt_zero j)⟩
  rintro ⟨-, h1, h2⟩
  exact absurd h1 (not_le.mpr h2)

lemma served_hit (hs : 0 < size) (hpage : offset + size ≤ 4096)
    (hc : getPageCache st.cache inode.inodeNum 0 = some c) (hpool : c.addr ∈ pool.frames)
    (hbuffer : pool.Avoids buffer size)
    (hr : (modeOf write).hit inode st buffer offset size = some r) :
    Served₁ st inode write buffer offset r := by
  have hap := hbuffer c.addr hpool
  have hdirect := direct_eq (pool.fits c.addr hpool).2
  simp only [Apart] at hap
  obtain rfl := hit_firstPage hs hpage hc hr
  have hplaces := places_mark (modeOf write) inode.inodeNum 0 1 st.cache
  have hcontent : ∀ (m : Mem) pos, pos < 4096 →
      content { st with cache := (modeOf write).mark inode.inodeNum 0 1 st.cache, mem := m }
        inode pos =
        m (direct c.addr + pos) := by
    intro m pos hpos
    rw [content_eq, show pos / 4096 = 0 by omega]
    simp only [hplaces, lookup_places, hc, map_some]
    rw [show pos % 4096 = pos by omega]
  refine ⟨le_trans (le_add_left size offset) hpage, hplaces, rfl, rfl, rfl,
    fun pos hpos => ?_, fun hread j hj => ?_⟩
  · rw [hcontent _ pos hpos, content_firstPage hc hpos]
    cases write with
    | true =>
      have hdst : add64 (direct c.addr) offset = direct c.addr + offset := by
        have hfits := (pool.fits c.addr hpool).2
        exact mod_eq_of_lt (by omega)
      simp only [modeOf, if_true, writeMode, runCopies, foldl_cons, foldl_nil, hdst, true_and]
      by_cases hin : offset ≤ pos ∧ pos < offset + size
      · rw [if_pos hin, copyBytes_inside (.inr (by simp only [Apart]; omega)) (by omega) (by omega),
          copyBytes_outside (by omega)]
        exact congrArg st.mem (by omega)
      · rw [if_neg hin, copyBytes_outside (by omega)]
    | false =>
      simp only [modeOf, Bool.false_eq_true, if_false, readMode, runCopies, foldl_cons,
        foldl_nil, false_and]
      exact copyBytes_outside (by omega)
  · subst hread
    rw [content_firstPage hc (by omega)]
    simp only [modeOf, Bool.false_eq_true, if_false, readMode, runCopies, foldl_cons,
      foldl_nil, add64_direct_zero]
    rw [copyBytes_inside (.inr (by simp only [Apart]; omega)) (by omega) (by omega)]
    exact congrArg st.mem (by omega)

/-- The call of the function itself after the page was entered. -/
lemma served_again (hfound : st.inodes fp = some inode) (hpage : offset + size ≤ 4096)
    (hfile : offset ≤ inode.size) (hc : getPageCache st.cache inode.inodeNum 0 = some c)
    (hpool : c.addr ∈ pool.frames) (hbuffer : pool.Avoids buffer size)
    (hr : transfer (modeOf write) 1 st fp buffer offset size = some r) :
    Served₁ st inode write buffer offset r := by
  rw [transfer] at hr
  unfold transferBody at hr
  by_cases hargs : buffer = 0 ∨ size = 0
  · rw [if_pos hargs] at hr
    cases hr
    exact served_nothing st inode write buffer offset
  · have hs : 0 < size := pos_of_ne_zero fun h => hargs (.inr h)
    rw [if_neg hargs, hfound, bind_some, if_neg (not_lt.mpr hfile), firstPage_count hs hpage,
      (firstPage_start hs hpage).1, miss_one, hc] at hr
    exact served_hit hs hpage hc hpool hbuffer hr

/-! ## A call on its own -/

lemma markDirty_none {cache : List CachePage} {id k : Nat} (h : getPageCache cache id k = none) :
    markDirty id k cache = cache := by
  induction cache with
  | nil => rfl
  | cons c cache ih =>
    rw [getPageCache_cons] at h
    split_ifs at h with hc
    rw [markDirty, if_neg hc, ih h]

lemma mark_none {cache : List CachePage} {id : Nat} (mode : Mode)
    (h : getPageCache cache id 0 = none) : mode.mark id 0 1 cache = cache := by
  rw [Mode.mark]
  split_ifs
  · exact markDirty_none h
  · rfl

/-- A call that waits and then goes on, with nothing in between, is the call of
`dfs_read` or `dfs_write`. -/
lemma transfer_of_wait {s1 s2 : MissState} (hs : 0 < size) (hpage : offset + size ≤ 4096)
    (hfound : s.fs.inodes fp = some inode) (hnone : getPageCache s.fs.cache inode.inodeNum 0 = none)
    (hnull : buffer ≠ 0) (hfile : offset ≤ inode.size)
    (hcall : s.call fp t write buffer offset size = some s1) (hloaded : s1.loaded fp t = some s2) :
    ∃ count, s2.returned = some ⟨write, buffer, offset, count⟩ ∧
      transfer (modeOf write) 2 s.fs fp buffer offset size = some (s2.fs, count) := by
  have hargs : ¬ (buffer = 0 ∨ size = 0) := not_or.mpr ⟨hnull, hs.ne'⟩
  obtain ⟨⟨-, -, hinodes⟩, -⟩ := pmmAllocPage_frame s.fs
  have hload : (modeOf write).load inode s.fs offset size =
      loadPage inode 0 (modeOf write).flags 0 s.fs := by
    have hzero : cachedPages s.fs.cache inode.inodeNum 0 0 = 0 := by rw [cachedPages, hnone]
    rw [Mode.load, firstPage_count hs hpage, (firstPage_start hs hpage).1, mark_none _ hnone]
    simp [loadPages, hzero]
  unfold MissState.call at hcall
  rw [if_neg hargs, hfound, bind_some, if_neg (not_lt.mpr hfile), firstPage_count hs hpage,
    (firstPage_start hs hpage).1, miss_one, hnone] at hcall
  cases hcall
  unfold MissState.loaded at hloaded
  simp only [update_self, bind_some, hinodes, hfound] at hloaded
  rw [transfer]
  unfold transferBody
  rw [if_neg hargs, hfound, bind_some, if_neg (not_lt.mpr hfile), firstPage_count hs hpage,
    (firstPage_start hs hpage).1, miss_one, hnone, hload, loadPage]
  by_cases hok : (ahciRead (pmmAllocPage s.fs).2 (add64 (0 * 8) (inode.startBlock * 8))
      (pmmAllocPage s.fs).1).2
  · rw [if_pos hok] at hloaded
    obtain ⟨r, hr, rfl⟩ := map_eq_some_iff.mp hloaded
    refine ⟨r.2, rfl, ?_⟩
    rw [if_pos hok]
    exact hr
  · rw [if_neg hok] at hloaded
    cases hloaded
    refine ⟨0, rfl, ?_⟩
    rw [if_neg hok]
    rfl

/-! ## The invariant -/

/-- What the last call has read, if it was a read, is the beginning of the page. -/
def ReadStart (s : MissState) : Prop :=
  ∀ buffer offset count, s.returned = some ⟨false, buffer, offset, count⟩ →
    ∀ j < count, s.fs.mem (buffer + j) = s.logical j

lemma read_of_none (h : s.returned = none) : ReadStart s := by
  intro buffer offset count hr
  rw [h] at hr
  cases hr

/-- A frame is free, in the cache or of a call that waits, and then of one of them. -/
structure FramesApart (st : FsState) (loads : Nat → Option PageLoad) : Prop where
  nodup : st.free.Nodup
  cached : ∀ c ∈ st.cache, c.addr ∉ st.free
  waiting : ∀ t l, loads t = some l → l.paddr ∉ st.free ∧ ∀ c ∈ st.cache, c.addr ≠ l.paddr
  once : ∀ t u l l', loads t = some l → loads u = some l' → t ≠ u → l.paddr ≠ l'.paddr

/-- Each page has one entry, and the page of the file is as the writes have left it. -/
structure MissKept (pool : FramePool) (fp : List UInt8) (inode : Inode) (s : MissState) : Prop where
  found : s.fs.inodes fp = some inode
  oneEntry : OneEntry s.fs.cache
  cached : ∀ c ∈ s.fs.cache, c.addr ∈ pool.frames
  free : ∀ f ∈ s.fs.free, f ∈ pool.frames
  frames : FramesApart s.fs s.loads
  loads : ∀ t l, s.loads t = some l → l.paddr ∈ pool.frames ∧ l.offset ≤ inode.size ∧
    l.offset + l.size ≤ 4096 ∧ pool.Avoids l.buffer l.size
  logical : ∀ pos < 4096, content s.fs inode pos = s.logical pos
  returned : ReadStart s

lemma MissKept.start (h : MissStart pool fp inode s) : MissKept pool fp inode s where
  found := h.found
  oneEntry := h.oneEntry
  cached := h.cached
  free := h.free
  frames := by
    have hidle : ∀ t l, s.loads t ≠ some l := fun t l hl => by
      rw [h.idle t] at hl
      cases hl
    exact ⟨h.nodup, h.notFree, fun t l hl => absurd hl (hidle t l),
      fun t _ l _ hl => absurd hl (hidle t l)⟩
  loads t l hl := by
    rw [h.idle t] at hl
    cases hl
  logical pos hpos := (h.logical pos hpos).symm
  returned buffer offset count hr := by
    rw [h.returned] at hr
    cases hr

lemma cached_of_places {cache cache' : List CachePage} {p : Nat → Prop}
    (h : places cache' = places cache) (hc : ∀ c ∈ cache, p c.addr) : ∀ c ∈ cache', p c.addr := by
  intro c hmem
  have hplace : place c ∈ places cache := h ▸ mem_map_of_mem hmem
  obtain ⟨c0, hc0, heq⟩ := mem_map.mp hplace
  have haddr : c0.addr = c.addr := congrArg Prod.snd heq
  exact haddr ▸ hc c0 hc0

lemma finish_read (s : MissState) (fs : FsState) (buffer offset count : Nat) :
    (s.finish fs false buffer offset count).logical = s.logical := by simp [MissState.finish]

section

variable {st st' : FsState} {loads : Nat → Option PageLoad} {l : PageLoad}
  (h : FramesApart st loads)
include h

lemma FramesApart.of_places (hplaces : places st'.cache = places st.cache)
    (hfree : st'.free.Perm st.free) : FramesApart st' loads := by
  refine ⟨hfree.nodup_iff.mpr h.nodup, ?_, fun t l hl => ?_, h.once⟩
  · simp only [hfree.mem_iff]
    exact cached_of_places (p := fun f => f ∉ st.free) hplaces h.cached
  · obtain ⟨hnot, hcached⟩ := h.waiting t l hl
    exact ⟨mt hfree.mem_iff.mp hnot, cached_of_places (p := fun f => f ≠ l.paddr) hplaces hcached⟩

/-- The call of thread `t` waits with the first free frame. -/
lemma FramesApart.wait (hcache : st'.cache = st.cache) (hfree : l.paddr :: st'.free = st.free) :
    FramesApart st' (update loads t (some l)) := by
  have hnodup := h.nodup
  rw [← hfree, nodup_cons] at hnodup
  have hmem : ∀ f, f ∉ st.free → f ≠ l.paddr ∧ f ∉ st'.free := by
    intro f hf
    rw [← hfree] at hf
    exact not_or.mp (mt mem_cons.mpr hf)
  have hcases : ∀ u l', update loads t (some l) u = some l' →
      (u = t ∧ l = l') ∨ (u ≠ t ∧ loads u = some l') := fun u l' hu =>
    (update_eq_cases hu).imp_left (And.imp_right some.inj)
  refine ⟨hnodup.2, fun c hc => (hmem _ (h.cached c (hcache ▸ hc))).2, fun u l' hu => ?_,
    fun u v l₁ l₂ hu hv huv => ?_⟩
  · obtain ⟨-, rfl⟩ | ⟨-, hu⟩ := hcases u l' hu
    · exact ⟨hnodup.1, fun c hc => (hmem _ (h.cached c (hcache ▸ hc))).1⟩
    · obtain ⟨hnot, hcached⟩ := h.waiting u l' hu
      exact ⟨(hmem _ hnot).2, fun c hc => hcached c (hcache ▸ hc)⟩
  · obtain ⟨rfl, rfl⟩ | ⟨-, hu⟩ := hcases u l₁ hu
    · obtain ⟨rfl, -⟩ | ⟨-, hv⟩ := hcases v l₂ hv
      · exact absurd rfl huv
      · exact (hmem _ (h.waiting v l₂ hv).1).1.symm
    · obtain ⟨-, rfl⟩ | ⟨-, hv⟩ := hcases v l₂ hv
      · exact (hmem _ (h.waiting u l₁ hu).1).1
      · exact h.once u v l₁ l₂ hu hv huv

/-- The wait of thread `t` ends, and its frame is free again or gets into the cache. -/
lemma FramesApart.ends (hl : loads t = some l) (hnodup : st'.free.Nodup)
    (hfree : ∀ f ∈ st'.free, f = l.paddr ∨ f ∈ st.free)
    (hcache : ∀ c ∈ st'.cache, c.addr ∉ st'.free ∧ (c.addr = l.paddr ∨ c ∈ st.cache)) :
    FramesApart st' (update loads t none) := by
  have hcases : ∀ u l', update loads t none u = some l' → u ≠ t ∧ loads u = some l' :=
    fun u l' hu => (update_eq_cases hu).resolve_left fun hnone => by cases hnone.2
  refine ⟨hnodup, fun c hc => (hcache c hc).1, fun u l' hu => ?_, fun u v l₁ l₂ hu hv huv =>
    h.once u v l₁ l₂ (hcases u l₁ hu).2 (hcases v l₂ hv).2 huv⟩
  obtain ⟨hut, hu⟩ := hcases u l' hu
  obtain ⟨hnot, hcached⟩ := h.waiting u l' hu
  have hne := h.once u t l' l hu hl hut
  refine ⟨fun hmem => (hfree _ hmem).elim hne hnot, fun c hc => ?_⟩
  obtain heq | hc := (hcache c hc).2
  · exact heq ▸ hne.symm
  · exact hcached c hc

end

/-- A call that is served returns. -/
lemma MissKept.finish (h : MissKept pool fp inode s)
    (hserved : Served₁ s.fs inode write buffer offset r) :
    MissKept pool fp inode (s.finish r.1 write buffer offset r.2) where
  found := hserved.inodes ▸ h.found
  oneEntry := by
    rw [OneEntry]
    exact hserved.places.symm ▸ h.oneEntry
  cached := cached_of_places hserved.places h.cached
  free := hserved.free ▸ h.free
  frames := h.frames.of_places hserved.places (.of_eq hserved.free)
  loads := h.loads
  logical pos hpos := by
    refine (hserved.content pos hpos).trans ?_
    rw [h.logical pos hpos]
    rfl
  returned buffer' offset' count' hr j hj := by
    obtain ⟨rfl, rfl, rfl, rfl⟩ : write = false ∧ buffer = buffer' ∧ offset = offset' ∧
        r.2 = count' := by simpa [MissState.finish] using hr
    refine (hserved.read rfl j hj).trans ?_
    rw [h.logical j (lt_of_lt_of_le hj hserved.count), finish_read]

lemma MissKept.call (h : MissKept pool fp inode s)
    (hframes : 3 ≤ s.fs.free.length) (hpage : offset + size ≤ 4096)
    (hbuffer : pool.Avoids buffer size) (hrun : s.call fp t write buffer offset size = some s') :
    MissKept pool fp inode s' := by
  have hnothing := h.finish (served_nothing s.fs inode write buffer offset)
  unfold MissState.call at hrun
  by_cases hargs : buffer = 0 ∨ size = 0
  · rw [if_pos hargs] at hrun
    cases hrun
    exact hnothing
  rw [if_neg hargs, h.found, bind_some] at hrun
  by_cases hbehind : inode.size < offset
  · rw [if_pos hbehind] at hrun
    cases hrun
    exact hnothing
  have hs : 0 < size := pos_of_ne_zero fun h => hargs (.inr h)
  rw [if_neg hbehind, firstPage_count hs hpage, (firstPage_start hs hpage).1, miss_one] at hrun
  cases hc : getPageCache s.fs.cache inode.inodeNum 0 with
  | none =>
    rw [hc] at hrun
    obtain ⟨⟨hcache, hdisk, hinodes⟩, -⟩ := pmmAllocPage_frame s.fs
    have hmem : (pmmAllocPage s.fs).2.mem = s.fs.mem := by
      rw [pmmAllocPage]
      split <;> rfl
    have htaken : (pmmAllocPage s.fs).1 :: (pmmAllocPage s.fs).2.free = s.fs.free := by
      rw [pmmAllocPage]
      cases hfree : s.fs.free with
      | nil =>
        rw [hfree] at hframes
        cases hframes
      | cons f free => rfl
    have hframe : (pmmAllocPage s.fs).1 ∈ pool.frames ∧
        ∀ f ∈ (pmmAllocPage s.fs).2.free, f ∈ pool.frames :=
      ⟨h.free _ (htaken ▸ mem_cons_self), fun f hf => h.free f (htaken ▸ mem_cons_of_mem _ hf)⟩
    have hcut : cutSize inode offset size ≤ size := by
      have hadd : add64 offset size = offset + size := mod_eq_of_lt (by omega)
      rw [cutSize]
      simp only [sub64]
      split_ifs <;> omega
    cases hrun
    refine ⟨hinodes ▸ h.found, hcache ▸ h.oneEntry, hcache ▸ h.cached, hframe.2,
      h.frames.wait hcache htaken, ?_, ?_, ?_⟩
    · intro u l hl
      by_cases hu : u = t
      · rw [hu] at hl
        simp only [update_self, some_inj] at hl
        subst hl
        refine ⟨hframe.1, not_lt.mp hbehind, by dsimp only; omega, fun f hf => ?_⟩
        have hap := hbuffer f hf
        simp only [Apart] at hap ⊢
        omega
      · simp only [update_of_ne hu] at hl
        exact h.loads u l hl
    · intro pos hpos
      rw [← h.logical pos hpos, content, content, hcache, hdisk, hmem]
    · intro buffer' offset' count' hr
      cases hr
  | some c =>
    rw [hc] at hrun
    obtain ⟨r, hr, rfl⟩ := map_eq_some_iff.mp hrun
    exact h.finish (served_hit hs hpage hc (h.cached c (getPageCache_mem hc).1) hbuffer hr)

/-- The state with the page in a new entry. -/
def MissState.entered (s : MissState) (inode : Inode) (t : Nat) (l : PageLoad) : MissState :=
  { s with
    fs := addPageToCache (ahciRead s.fs (add64 (0 * 8) (inode.startBlock * 8)) l.paddr).1
      inode.inodeNum 0 l.paddr (modeOf l.write).flags
    loads := update s.loads t none
    returned := none }

lemma entered_lookup (s : MissState) (inode : Inode) (t : Nat) (l : PageLoad) :
    getPageCache (s.entered inode t l).fs.cache inode.inodeNum 0 =
      some ⟨inode.inodeNum, 0, l.paddr, (modeOf l.write).flags⟩ := by
  rw [MissState.entered, addPageToCache, getPageCache_cons, if_pos ⟨rfl, rfl⟩]

/-- How the wait ends: the read has failed, or the page is entered and the call is
served. -/
lemma MissKept.loaded_cases (h : MissKept pool fp inode s) (hrun : s.loaded fp t = some s') :
    ∃ l, s.loads t = some l ∧ ((s.fs.faults.head? = some true ∧ MissKept pool fp inode s') ∨
        (s.fs.faults.head? ≠ some true ∧ ∃ r,
          Served₁ (s.entered inode t l).fs inode l.write l.buffer l.offset r ∧
          s' = (s.entered inode t l).finish r.1 l.write l.buffer l.offset r.2)) := by
  unfold MissState.loaded at hrun
  cases hl : s.loads t with
  | none =>
    rw [hl] at hrun
    cases hrun
  | some l =>
    refine ⟨l, rfl, ?_⟩
    obtain ⟨hpaddr, hfile, hpage, hbuffer⟩ := h.loads t l hl
    rw [hl, bind_some, h.found, bind_some] at hrun
    dsimp only at hrun
    obtain ⟨hcache, hfree, hdisk, hinodes⟩ :=
      ahciRead_frame s.fs (add64 (0 * 8) (inode.startBlock * 8)) l.paddr
    rcases ahciRead_mem s.fs (add64 (0 * 8) (inode.startBlock * 8)) l.paddr with
      ⟨hhead, hfail, hmem⟩ | ⟨hhead, hok, -⟩
    · rw [hfail] at hrun
      refine .inl ⟨hhead, ?_⟩
      generalize (ahciRead s.fs (add64 (0 * 8) (inode.startBlock * 8)) l.paddr).1 = st1 at *
      have hback : (pmmFreePage st1 l.paddr).cache = s.fs.cache ∧
          (pmmFreePage st1 l.paddr).disk = s.fs.disk ∧
          (pmmFreePage st1 l.paddr).inodes = s.fs.inodes ∧
          (pmmFreePage st1 l.paddr).mem = s.fs.mem ∧ (pmmFreePage st1 l.paddr).free.Nodup ∧
          ∀ f ∈ (pmmFreePage st1 l.paddr).free, f = l.paddr ∨ f ∈ s.fs.free := by
        rw [pmmFreePage]
        split_ifs
        · exact ⟨hcache, hdisk, hinodes, hmem, hfree ▸ h.frames.nodup,
            fun f hf => .inr (hfree ▸ hf)⟩
        · refine ⟨hcache, hdisk, hinodes, hmem, ?_, fun f hf => hfree ▸ mem_cons.mp hf⟩
          exact nodup_cons.mpr ⟨hfree ▸ (h.frames.waiting t l hl).1, hfree ▸ h.frames.nodup⟩
      generalize pmmFreePage st1 l.paddr = st2 at *
      obtain ⟨hcache2, hdisk2, hinodes2, hmem2, hnodup2, hfree2⟩ := hback
      have hapart : ∀ c ∈ st2.cache, c.addr ∉ st2.free ∧ (c.addr = l.paddr ∨ c ∈ s.fs.cache) := by
        intro c hc
        rw [hcache2] at hc
        refine ⟨fun hmem => ?_, .inr hc⟩
        exact (hfree2 _ hmem).elim ((h.frames.waiting t l hl).2 c hc) (h.frames.cached c hc)
      have hkept : MissKept pool fp inode
          { s with fs := st2, loads := update s.loads t none, returned := none } := by
        refine ⟨hinodes2 ▸ h.found, hcache2 ▸ h.oneEntry, hcache2 ▸ h.cached,
          fun f hf => (hfree2 f hf).elim (fun heq => heq ▸ hpaddr) (h.free f),
          h.frames.ends hl hnodup2 hfree2 hapart, ?_, ?_, read_of_none rfl⟩
        · intro u l' hu
          by_cases hut : u = t
          · rw [hut] at hu
            simp only [update_self] at hu
            cases hu
          · simp only [update_of_ne hut] at hu
            exact h.loads u l' hu
        · intro pos hpos
          rw [← h.logical pos hpos, content, content, hcache2, hdisk2, hmem2]
      cases hrun
      exact hkept.finish (served_nothing st2 inode l.write l.buffer l.offset)
    · rw [hok] at hrun
      obtain ⟨r, hr, rfl⟩ := map_eq_some_iff.mp hrun
      have hfound : (s.entered inode t l).fs.inodes fp = some inode := hinodes ▸ h.found
      have hentry := entered_lookup s inode t l
      exact .inr ⟨hhead, r, served_again hfound hpage hfile hentry hpaddr hbuffer hr, rfl⟩

lemma entered_places (s : MissState) (inode : Inode) (t : Nat) (l : PageLoad) :
    places (s.entered inode t l).fs.cache =
      ((inode.inodeNum, 0), l.paddr) :: places s.fs.cache := by
  rw [MissState.entered, addPageToCache, (ahciRead_frame _ _ _).1]
  rfl

section

variable (h : MissKept pool fp inode s) (hdisk : inode.startBlock * 8 < 2 ^ 64)
include h hdisk

/-- A page that had no entry gets the block from the disk, which is its content. -/
lemma MissKept.entered {l : PageLoad} (hl : s.loads t = some l)
    (hok : s.fs.faults.head? ≠ some true)
    (hnone : getPageCache s.fs.cache inode.inodeNum 0 = none) :
    MissKept pool fp inode (s.entered inode t l) := by
  obtain ⟨hcache, hfree, hdisk', hinodes⟩ :=
    ahciRead_frame s.fs (add64 (0 * 8) (inode.startBlock * 8)) l.paddr
  have hsector : add64 (0 * 8) (inode.startBlock * 8) * 512 = inode.startBlock * 4096 := by
    simp only [add64]
    omega
  have hfree' : (s.entered inode t l).fs.free = s.fs.free := hfree
  have hapart : ∀ c ∈ (s.entered inode t l).fs.cache,
      c.addr ∉ (s.entered inode t l).fs.free ∧ (c.addr = l.paddr ∨ c ∈ s.fs.cache) := by
    intro c hc
    rw [hfree']
    rcases mem_cons.mp hc with rfl | hc
    · exact ⟨(h.frames.waiting t l hl).1, .inl rfl⟩
    · rw [hcache] at hc
      exact ⟨h.frames.cached c hc, .inr hc⟩
  refine ⟨hinodes ▸ h.found, ?_, fun c hc => ?_, hfree ▸ h.free,
    h.frames.ends hl (hfree ▸ h.frames.nodup) (fun f hf => .inr (hfree' ▸ hf)) hapart, ?_,
    fun pos hpos => ?_, read_of_none rfl⟩
  · refine h.oneEntry.cons (entered_places s inode t l) ?_
    rw [lookup_places, hnone]
    rfl
  · rcases mem_cons.mp hc with rfl | hc
    · exact (h.loads t l hl).1
    · exact h.cached c (hcache ▸ hc)
  · intro u l' hu
    by_cases hut : u = t
    · rw [hut, MissState.entered] at hu
      simp only [update_self] at hu
      cases hu
    · rw [MissState.entered] at hu
      simp only [update_of_ne hut] at hu
      exact h.loads u l' hu
  · have hentry := entered_lookup s inode t l
    have hold : s.logical pos = s.fs.disk (inode.startBlock * 4096 + pos) :=
      (h.logical pos hpos).symm.trans (content_noPage hnone hpos)
    rcases ahciRead_mem s.fs (add64 (0 * 8) (inode.startBlock * 8)) l.paddr with
      ⟨hhead, -⟩ | ⟨-, -, hmem⟩
    · exact absurd hhead hok
    · rw [content_firstPage hentry hpos]
      refine (congrFun hmem _).trans ?_
      dsimp only
      rw [if_pos (by omega), Nat.add_sub_cancel_left, hsector]
      exact hold.symm

lemma MissKept.loaded (hrun : s.loaded fp t = some s') :
    (NoneEntered inode s (.loaded t) → MissKept pool fp inode s') ∧
      (¬ NoneEntered inode s (.loaded t) → ¬ OneEntry s'.fs.cache) := by
  obtain ⟨l, hl, ⟨hhead, hkept⟩ | ⟨hhead, r, hserved, rfl⟩⟩ := h.loaded_cases hrun
  · exact ⟨fun _ => hkept, fun hbad => absurd (.inl hhead) hbad⟩
  · refine ⟨fun hgood => (h.entered hdisk hl hhead (hgood.resolve_left hhead)).finish hserved,
      fun hbad hone => hbad (.inr ?_)⟩
    have hplaces : places r.1.cache = ((inode.inodeNum, 0), l.paddr) :: places s.fs.cache :=
      hserved.places.trans (entered_places s inode t l)
    have hnodup : ((places r.1.cache).map Prod.fst).Nodup := hone
    rw [hplaces, map_cons, nodup_cons] at hnodup
    have hnone := lookup_eq_none_iff.mpr hnodup.1
    rwa [lookup_places, map_eq_none_iff] at hnone

omit hdisk in
/-- Memory outside of the cache changes, and the order of the free frames. -/
lemma MissKept.outside {m : Mem} {free : List Nat} (hperm : free.Perm s.fs.free)
    (hm : ∀ c ∈ s.fs.cache, ∀ pos < 4096,
      m (direct c.addr + pos) = s.fs.mem (direct c.addr + pos)) :
    MissKept pool fp inode
      { s with fs := { s.fs with mem := m, free := free }, returned := none } := by
  refine ⟨h.found, h.oneEntry, h.cached, fun f hf => h.free f (hperm.mem_iff.mp hf),
    h.frames.of_places rfl hperm, h.loads, fun pos hpos => ?_, read_of_none rfl⟩
  rw [← h.logical pos hpos, content, content]
  cases hc : getPageCache s.fs.cache inode.inodeNum (pos / 4096) with
  | none => rfl
  | some c => exact hm c (getPageCache_mem hc).1 _ (Nat.mod_lt _ (by norm_num))

lemma MissKept.step (hstep : MissStep pool fp s act s') :
    (NoneEntered inode s act → MissKept pool fp inode s') ∧
      (¬ NoneEntered inode s act → ¬ OneEntry s'.fs.cache) := by
  cases hstep with
  | call _ hframes hpage hbuffer hrun =>
    exact ⟨fun _ => h.call hframes hpage hbuffer hrun, fun hbad => absurd trivial hbad⟩
  | loaded _ hrun => exact h.loaded hdisk hrun
  | @store a b ha =>
    refine ⟨fun _ => h.outside .rfl fun c hc pos hpos => ?_, fun hbad => absurd trivial hbad⟩
    have hap := ha c.addr (h.cached c hc)
    simp only [Apart] at hap
    exact update_of_ne (by omega) _ _
  | @scratch f m free hfree hm hperm =>
    refine ⟨fun _ => h.outside hperm fun c hc pos hpos => hm _ ?_, fun hbad => absurd trivial hbad⟩
    have hap := direct_apart (pool.fits c.addr (h.cached c hc)) (pool.fits f (h.free f hfree))
      fun heq => h.frames.cached c hc (heq ▸ hfree)
    simp only [Apart] at hap
    omega

end

/-! ## The result -/

/-- What the last call has read is what the writes have left there. -/
def ReadRight (s : MissState) : Prop :=
  ∀ buffer offset count, s.returned = some ⟨false, buffer, offset, count⟩ →
    ∀ j < count, s.fs.mem (buffer + j) = s.logical (offset + j)

/-- The last call was no read, or one from the beginning of the page, or the bytes
there are the same. -/
def ReadFromStart (s : MissState) : Prop :=
  ∀ buffer offset count, s.returned = some ⟨false, buffer, offset, count⟩ →
    ∀ j < count, s.logical j = s.logical (offset + j)

/-- In every run in which a page that has been loaded finds no entry, each page has one
entry and the file is as the writes that have returned have left it. A next step keeps
one entry exactly if it meets the condition. A read returns the bytes at its offset
exactly if these are the ones at the beginning. -/
theorem concurrent_miss_iff (hdisk : inode.startBlock * 8 < 2 ^ 64)
    (run : (missMachine pool fp inode).Reached (NoneEntered inode) s) :
    (missMachine pool fp inode).SafeExactlyWhen (fun s => OneEntry s.fs.cache)
      (NoneEntered inode) s ∧
      (∀ pos < 4096, content s.fs inode pos = s.logical pos) ∧ (ReadRight s ↔ ReadFromStart s) := by
  have hstart : ∀ s, (missMachine pool fp inode).start s → MissKept pool fp inode s :=
    fun s hs => MissKept.start hs
  have hkept : MissKept pool fp inode s :=
    run.invariant hstart fun _ _ _ h hgood hstep => (h.step hdisk hstep).1 hgood
  refine ⟨run.safeExactlyWhen hstart (fun _ _ _ h hgood hstep => (h.step hdisk hstep).1 hgood)
    (fun _ h => h.oneEntry) (fun _ _ _ h hstep hbad => (h.step hdisk hstep).2 hbad),
    hkept.logical, ?_⟩
  constructor
  · intro hright buffer offset count hr j hj
    exact (hkept.returned buffer offset count hr j hj).symm.trans
      (hright buffer offset count hr j hj)
  · intro hstart buffer offset count hr j hj
    exact (hkept.returned buffer offset count hr j hj).trans (hstart buffer offset count hr j hj)

/-! ## Two writers -/

/-- A file of one page, not cached. The buffers at `0x200000` on hold the bytes 65 and 66. -/
def twoWriters : MissState where
  fs := ⟨[], [4096, 8192, 12288, 16384, 20480], [], fun _ => some ⟨3, 4096, 10, 1⟩, fun _ => 0,
    fun a => if a = 0x200000 then 65 else if a = 0x200001 then 66 else 0⟩
  loads := fun _ => none
  logical := fun _ => 0
  returned := none

def fiveFrames : FramePool := ⟨[4096, 8192, 12288, 16384, 20480], by decide⟩

lemma fiveFrames_avoids {a len : Nat} (h : a + len ≤ 2 ^ 47) : fiveFrames.Avoids a len := by
  intro f hf
  rw [direct_eq (fiveFrames.fits f hf).2]
  simp only [Apart]
  omega

lemma twoWriters_start : MissStart fiveFrames [] ⟨3, 4096, 10, 1⟩ twoWriters where
  found := rfl
  oneEntry := nodup_nil
  cached := by decide
  free := by decide
  nodup := by decide
  notFree := by decide
  idle _ := rfl
  logical pos hpos := rfl
  returned := rfl

/-- The first writer waits for the page. -/
def firstWaits : MissState := (twoWriters.call [] 1 true 0x200000 0 1).getD twoWriters

lemma eq_some_getD {o : Option MissState} {s : MissState} (h : o.isSome) : o = some (o.getD s) := by
  obtain ⟨s', rfl⟩ := isSome_iff_exists.mp h
  rfl

lemma firstWaits_eq : twoWriters.call [] 1 true 0x200000 0 1 = some firstWaits :=
  eq_some_getD (by decide +kernel)

lemma firstWaits_step : MissStep fiveFrames [] twoWriters (.call 1 true 0x200000 0 1) firstWaits :=
  .call rfl (by decide) (by decide) (fiveFrames_avoids (by decide)) firstWaits_eq

/-- It is served, and its byte is read. -/
def oneWritten : MissState := (firstWaits.loaded [] 1).getD firstWaits

def oneRead : MissState := (oneWritten.call [] 2 false 0x300000 0 1).getD oneWritten

theorem concurrent_miss_one : ((missMachine fiveFrames [] ⟨3, 4096, 10, 1⟩).SafeExactlyWhen
        (fun s => OneEntry s.fs.cache) (NoneEntered ⟨3, 4096, 10, 1⟩) oneRead ∧
      (∀ pos < 4096, content oneRead.fs ⟨3, 4096, 10, 1⟩ pos = oneRead.logical pos) ∧
      (ReadRight oneRead ↔ ReadFromStart oneRead)) ∧
    oneRead.returned = some ⟨false, 0x300000, 0, 1⟩ ∧ oneRead.fs.mem 0x300000 = 65 := by
  have h2 : MissStep fiveFrames [] firstWaits (.loaded 1) oneWritten :=
    .loaded (by decide +kernel) (eq_some_getD (by decide +kernel))
  have h3 : MissStep fiveFrames [] oneWritten (.call 2 false 0x300000 0 1) oneRead :=
    .call (by decide +kernel) (by decide +kernel) (by decide) (fiveFrames_avoids (by decide))
      (eq_some_getD (by decide +kernel))
  have hnone : NoneEntered ⟨3, 4096, 10, 1⟩ firstWaits (.loaded 1) := .inr (by decide +kernel)
  exact ⟨concurrent_miss_iff (by decide) (.step (a := .call 2 false 0x300000 0 1)
    (.step (.step (a := .call 1 true 0x200000 0 1) (.start twoWriters_start) trivial
      firstWaits_step) hnone h2) trivial h3), by decide +kernel, by decide +kernel⟩

/-- The second writer, with the next byte of the page, waits as well. -/
def bothWait : MissState := (firstWaits.call [] 2 true 0x200001 1 1).getD firstWaits

/-- Both are served one after the other, each with an entry of its own. -/
def firstWritten : MissState := (bothWait.loaded [] 1).getD bothWait

def bothWritten : MissState := (firstWritten.loaded [] 2).getD firstWritten

/-- Then the first byte is read. -/
def firstRead : MissState := (bothWritten.call [] 1 false 0x300000 0 1).getD bothWritten

lemma firstRead_reached :
    (missMachine fiveFrames [] ⟨3, 4096, 10, 1⟩).Reached (fun _ _ => True) firstRead := by
  have h2 : MissStep fiveFrames [] firstWaits _ bothWait :=
    .call (by decide +kernel) (by decide +kernel) (by decide) (fiveFrames_avoids (by decide))
      (eq_some_getD (by decide +kernel))
  have h3 : MissStep fiveFrames [] bothWait (.loaded 1) firstWritten :=
    .loaded (by decide +kernel) (eq_some_getD (by decide +kernel))
  have h4 : MissStep fiveFrames [] firstWritten (.loaded 2) bothWritten :=
    .loaded (by decide +kernel) (eq_some_getD (by decide +kernel))
  have h5 : MissStep fiveFrames [] bothWritten _ firstRead :=
    .call (by decide +kernel) (by decide +kernel) (by decide) (fiveFrames_avoids (by decide))
      (eq_some_getD (by decide +kernel))
  exact ((((((Machine.Reached.start twoWriters_start).step trivial firstWaits_step).step trivial
    h2).step trivial h3).step trivial h4).step trivial h5)

/-- Two threads write different bytes of a page that is not cached. Both writes return 1, and
a later read returns 0 for the first byte, not 65: the page has two entries. -/
theorem second_miss_loses_write :
    (missMachine fiveFrames [] ⟨3, 4096, 10, 1⟩).Reached (fun _ _ => True) firstRead ∧
      firstWritten.returned = some ⟨true, 0x200000, 0, 1⟩ ∧
      bothWritten.returned = some ⟨true, 0x200001, 1, 1⟩ ∧
      firstRead.returned = some ⟨false, 0x300000, 0, 1⟩ ∧
      firstRead.fs.mem 0x300000 = 0 ∧ firstRead.logical 0 = 65 ∧
      ¬ ReadRight firstRead ∧ ¬ OneEntry bothWritten.fs.cache := by
  have hreturned : firstRead.returned = some ⟨false, 0x300000, 0, 1⟩ := by decide +kernel
  have hread : firstRead.fs.mem 0x300000 = 0 := by decide +kernel
  have hwritten : firstRead.logical 0 = 65 := by decide +kernel
  refine ⟨firstRead_reached, by decide +kernel, by decide +kernel, hreturned, hread,
    hwritten, ?_, ?_⟩
  · intro hright
    have hbyte := hright _ _ _ hreturned 0 (by decide)
    exact absurd hbyte (by decide)
  · have hcache : bothWritten.fs.cache = [⟨3, 0, 8192, 1⟩, ⟨3, 0, 4096, 1⟩] := by decide +kernel
    rw [OneEntry]
    decide

end DestinX.Fs
