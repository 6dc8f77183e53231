import DestinX.Fs.Dfs
import DestinX.Base.Bits

/-!
# Loading pages keeps the contents of files

The content of a file is what its cached pages hold, and the blocks of its extent
where no page is cached. Loading a missing page takes a free frame, fills it from
the disk and enters it into the cache, which changes no content.
-/

namespace DestinX.Fs

open Base List Option

/-- The byte at position `pos` of the file: page cache over disk. -/
def content (st : FsState) (inode : Inode) (pos : Nat) : UInt8 :=
  match getPageCache st.cache inode.inodeNum (pos / 4096) with
  | some c => st.mem (direct c.addr + pos % 4096)
  | none => st.disk ((inode.startBlock + pos / 4096) * 4096 + pos % 4096)

/-- The frames of cached pages, and those that will be allocated. -/
def frames (st : FsState) : List Nat := st.cache.map CachePage.addr ++ st.free

/-- Every frame is a page below the end of the direct map, no frame is used twice,
and disk reads succeed. -/
structure Ready (st : FsState) : Prop where
  frame : ∀ f ∈ frames st, f ≠ 0 ∧ 4096 ∣ f ∧ f + 4096 ≤ 2 ^ 47
  nodup : (frames st).Nodup
  faults : st.faults = []

variable {st st' st'' : FsState} {inode : Inode} {cache cache' : List CachePage} {c c' : CachePage}
  {other : Inode} {new : List CachePage} {pages : Nat → Nat}
  {id k f g first flags i pos : Nat} {is : List Nat}

/-! ## The page cache -/

lemma getPageCache_mem (h : getPageCache cache id k = some c) :
    c ∈ cache ∧ c.id = id ∧ c.indx = k := by
  have hp := find?_some h
  exact ⟨mem_of_find?_eq_some h, by simpa using hp⟩

lemma getPageCache_cons : getPageCache (c :: cache) id k =
      if c.id = id ∧ c.indx = k then some c else getPageCache cache id k := by
  by_cases h : c.id = id ∧ c.indx = k <;> simp [getPageCache, h]

lemma mem_frames_of_cached (h : getPageCache st.cache id k = some c) : c.addr ∈ frames st :=
  mem_append_left _ (mem_map_of_mem (getPageCache_mem h).1)

lemma cachedPages_eq (h : getPageCache cache id (first + i) = some c) :
    cachedPages cache id first i = c.addr := by rw [cachedPages, h]

/-! ## Frames -/

lemma direct_eq (hf : f + 4096 ≤ 2 ^ 47) : direct f = f + (2 ^ 64 - 2 ^ 47) := by
  simp only [direct, add64, directOffset]
  omega

/-- Different frames do not overlap in the direct map. -/
lemma direct_apart (hf : 4096 ∣ f ∧ f + 4096 ≤ 2 ^ 47) (hg : 4096 ∣ g ∧ g + 4096 ≤ 2 ^ 47)
    (hne : f ≠ g) : Apart (direct f) 4096 (direct g) 4096 := by
  rw [direct_eq hf.2, direct_eq hg.2]
  obtain ⟨⟨a, rfl⟩, -⟩ := hf
  obtain ⟨⟨b, rfl⟩, -⟩ := hg
  simp only [Apart]
  omega

lemma Ready.apart (h : Ready st) (hf : f ∈ frames st) (hg : g ∈ frames st) (hne : f ≠ g) :
    Apart (direct f) 4096 (direct g) 4096 :=
  direct_apart (h.frame f hf).2 (h.frame g hg).2 hne

lemma Ready.cached_not_free (h : Ready st) (hc : getPageCache st.cache id k = some c) :
    c.addr ∉ st.free := by
  have hd := (nodup_append.mp h.nodup).2.2
  intro hf
  exact hd c.addr (mem_map_of_mem (getPageCache_mem hc).1) c.addr hf rfl

/-- Pages of one file at different places have different frames. -/
lemma Ready.addr_injective (h : Ready st) {k' : Nat} (hc : getPageCache st.cache id k = some c)
    (hc' : getPageCache st.cache id k' = some c') (he : c.addr = c'.addr) : k = k' := by
  have hnd : (st.cache.map CachePage.addr).Nodup := (nodup_append.mp h.nodup).1
  obtain ⟨hm, -, hk⟩ := getPageCache_mem hc
  obtain ⟨hm', -, hk'⟩ := getPageCache_mem hc'
  have heq : c = c' := inj_on_of_nodup_map hnd hm hm' he
  rw [← hk, ← hk', heq]

/-! ## One page -/

/-- What loading page `k` of the file into the frame `f` leaves. -/
def withPage (st : FsState) (inode : Inode) (k f flags : Nat) (fs : List Nat) : FsState :=
  { st with
    cache := ⟨inode.inodeNum, k, f, flags⟩ :: st.cache
    free := fs
    faults := []
    mem := fun a =>
      if direct f ≤ a ∧ a < direct f + 4096 then
        st.disk ((inode.startBlock + k) * 4096 + (a - direct f))
      else st.mem a }

/-- The state after a page has been read into the frame `f` and entered, with these frames left. -/
def entered (st : FsState) (inode : Inode) (k f flags : Nat) (free : List Nat) : FsState :=
  { withPage st inode k f flags free with faults := st.faults.tail }

/-- The state with disk reads that succeed. -/
def FsState.noFaults (st : FsState) : FsState := { st with faults := [] }

/-- The frames are fine, whatever disk reads do. -/
def Sound (st : FsState) : Prop := Ready st.noFaults

lemma Ready.sound (h : Ready st) : Sound st := ⟨h.frame, h.nodup, rfl⟩

/-- The load has come to an end, with success or not. -/
def Ends (e : Except FsState FsState) (st' : FsState) : Prop := e = .ok st' ∨ e = .error st'

/-- The page is what is on the disk. -/
def HoldsBlock (st : FsState) (inode : Inode) (c : CachePage) : Prop :=
  ∀ d < 4096, st.mem (direct c.addr + d) = st.disk ((inode.startBlock + c.indx) * 4096 + d)

lemma entered_mem (st : FsState) (inode : Inode) (k f flags : Nat) (free : List Nat) (a : Nat) :
    (entered st inode k f flags free).mem a = if direct f ≤ a ∧ a < direct f + 4096 then
        st.disk ((inode.startBlock + k) * 4096 + (a - direct f))
      else st.mem a := by simp only [entered, withPage]

lemma entered_disk (st : FsState) (inode : Inode) (k f flags : Nat) (free : List Nat) :
    (entered st inode k f flags free).disk = st.disk := by simp only [entered, withPage]

/-- A block that is read into another frame does not change a page. -/
lemma HoldsBlock.entered {free : List Nat} (h : HoldsBlock st inode c)
    (hap : Apart (direct c.addr) 4096 (direct f) 4096) :
    HoldsBlock (entered st inode k f flags free) inode c := by
  intro d hd
  have hout : ¬ (direct f ≤ direct c.addr + d ∧ direct c.addr + d < direct f + 4096) := by
    simp only [Apart] at hap
    omega
  rw [entered_mem, if_neg hout]
  exact h d hd

lemma holdsBlock_entered (st : FsState) (inode : Inode) (k f flags : Nat) (free : List Nat) :
    HoldsBlock (entered st inode k f flags free) inode ⟨inode.inodeNum, k, f, flags⟩ := by
  intro d hd
  have hin : direct f ≤ direct f + d ∧ direct f + d < direct f + 4096 := by omega
  rw [entered_mem, if_pos hin, entered_disk, Nat.add_sub_cancel_left]

/-- A load that succeeds takes the first free frame, or none. -/
lemma loadPage_entered (hlba : (first + k) * 8 + inode.startBlock * 8 < 2 ^ 64)
    (h : loadPage inode first flags k st = .ok st') :
    (st.free = [] ∧ st' = entered st inode (first + k) 0 flags []) ∨
      ∃ f free, st.free = f :: free ∧ st' = entered st inode (first + k) f flags free := by
  have hsector : add64 ((first + k) * 8) (inode.startBlock * 8) * 512 =
      (inode.startBlock + (first + k)) * 4096 := by
    simp only [add64]
    omega
  obtain ⟨cache, free, faults, inodes, disk, mem⟩ := st
  rw [loadPage] at h
  split_ifs at h with hok
  cases h
  cases free with
  | nil =>
    refine .inl ⟨rfl, ?_⟩
    rcases faults with _ | ⟨_ | _, faults⟩
    · simp only [pmmAllocPage, ahciRead, hsector, addPageToCache, entered, withPage]
    · simp only [pmmAllocPage, ahciRead, hsector, addPageToCache, entered, withPage]
    · cases hok
  | cons f free =>
    refine .inr ⟨f, free, rfl, ?_⟩
    rcases faults with _ | ⟨_ | _, faults⟩
    · simp only [pmmAllocPage, ahciRead, hsector, addPageToCache, entered, withPage]
    · simp only [pmmAllocPage, ahciRead, hsector, addPageToCache, entered, withPage]
    · cases hok

lemma loadPage_failed (hzero : 0 ∉ st.free) (h : loadPage inode first flags k st = .error st') :
    st'.noFaults = st.noFaults := by
  obtain ⟨cache, free, faults, inodes, disk, mem⟩ := st
  rcases free with _ | ⟨f, free⟩ <;> rcases faults with _ | ⟨_ | _, faults⟩ <;>
    simp only [loadPage, pmmAllocPage, ahciRead, if_true, Bool.false_eq_true, if_false,
      reduceCtorEq, Except.error.injEq] at h
  all_goals subst h
  · rfl
  · have hf : f ≠ 0 := fun heq => hzero (heq ▸ mem_cons_self)
    simp only [pmmFreePage, if_neg hf, FsState.noFaults]

lemma loadPages_cons {pages : Nat → Nat} {is : List Nat} :
    loadPages inode first flags pages (i :: is) st =
      (if pages i = 0 then loadPage inode first flags i st else .ok st) >>=
        loadPages inode first flags pages is := by rfl

lemma Ready.of_perm (h : Ready st) (hp : (frames st').Perm (frames st))
    (hfaults : st'.faults = []) : Ready st' :=
  ⟨fun f hf => h.frame f (hp.mem_iff.mp hf), hp.nodup_iff.mpr h.nodup, hfaults⟩

/-- The cache and the free frames have changed, but no content: pages that were
cached stay where they are, new ones carry `flags`, and memory changes only in the
frames that were taken. -/
structure Extends (inode : Inode) (flags : Nat) (st st' : FsState) : Prop where
  ready : Ready st'
  frames : (frames st').Perm (frames st)
  free : st'.free <:+ st.free
  content : ∀ pos, content st' inode pos = content st inode pos
  kept : ∀ k c, getPageCache st.cache inode.inodeNum k = some c →
    getPageCache st'.cache inode.inodeNum k = some c
  new : ∀ k c, getPageCache st'.cache inode.inodeNum k = some c →
    getPageCache st.cache inode.inodeNum k = some c ∨ c.flags = flags
  mem : ∀ a, (∀ f ∈ st.free, f ∉ st'.free → ¬ (direct f ≤ a ∧ a < direct f + 4096)) →
    st'.mem a = st.mem a
  inodes : st'.inodes = st.inodes

lemma Extends.refl (h : Ready st) : Extends inode flags st st :=
  ⟨h, List.Perm.refl _, suffix_refl _, fun _ => rfl, fun _ _ hc => hc, fun _ _ hc => .inl hc,
    fun _ _ => rfl, rfl⟩

/-! ## The loop -/

/-- The entries `new` have been added in front. Those with a frame hold their blocks. -/
structure Added (inode : Inode) (st st' : FsState) (new : List CachePage) : Prop where
  cache : st'.cache = new ++ st.cache
  id : ∀ c ∈ new, c.id = inode.inodeNum
  missing : ∀ c ∈ new, getPageCache st.cache inode.inodeNum c.indx = none
  free : st.free = ((new.map CachePage.addr).filter (· ≠ 0)).reverse ++ st'.free
  framed : ∀ c ∈ new, c.addr ≠ 0 → HoldsBlock st' inode c
  mem : ∀ a, (∀ c ∈ new, ¬ (direct c.addr ≤ a ∧ a < direct c.addr + 4096)) → st'.mem a = st.mem a
  disk : st'.disk = st.disk

lemma Added.refl (inode : Inode) (st : FsState) : Added inode st st [] where
  cache := rfl
  id := fun _ hc => absurd hc not_mem_nil
  missing := fun _ hc => absurd hc not_mem_nil
  free := rfl
  framed := fun _ hc => absurd hc not_mem_nil
  mem := fun _ _ => rfl
  disk := rfl

lemma Added.suffix (h : Added inode st st' new) : st'.free <:+ st.free :=
  ⟨_, h.free.symm⟩

/-- An entry with a frame has one of the frames that were free. -/
lemma Added.taken (h : Added inode st st' new) (hc : c ∈ new) (hne : c.addr ≠ 0) :
    c.addr ∈ st.free := by
  rw [h.free]
  apply mem_append_left
  rw [mem_reverse, mem_filter]
  exact ⟨mem_map_of_mem hc, by simpa using hne⟩

lemma Added.addr_ne (h : Added inode st st' new) (hnodup : st.free.Nodup) (hc : c ∈ new)
    (hf : f ∈ st'.free) (hne : c.addr ≠ 0) : c.addr ≠ f := by
  rw [h.free, nodup_append] at hnodup
  apply hnodup.2.2 c.addr _ f hf
  rw [mem_reverse, mem_filter]
  exact ⟨mem_map_of_mem hc, by simpa using hne⟩

/-- Every frame that is free is a page below the end of the direct map, and is free once. -/
structure FreePages (st : FsState) : Prop where
  page : ∀ f ∈ st.free, f ≠ 0 ∧ 4096 ∣ f ∧ f + 4096 ≤ 2 ^ 47
  nodup : st.free.Nodup

lemma Sound.freePages (h : Sound st) : FreePages st :=
  ⟨fun f hf => h.frame f (mem_append_right _ hf), (nodup_append.mp h.nodup).2.1⟩

lemma FreePages.zero (h : FreePages st) : 0 ∉ st.free := fun hmem => (h.page 0 hmem).1 rfl

lemma page_zero : 4096 ∣ 0 ∧ 0 + 4096 ≤ 2 ^ 47 := ⟨Dvd.intro 0 rfl, by norm_num⟩

/-- The memory has the pages of the cache, except for those without a frame. -/
def CachedSame (st : FsState) (m : Mem) : Prop :=
  ∀ c ∈ st.cache, c.addr ≠ 0 → ∀ d < 4096, m (direct c.addr + d) = st.mem (direct c.addr + d)

lemma CachedSame.refl (st : FsState) : CachedSame st st.mem := fun _ _ _ _ _ => rfl

section

variable (h : Added inode st st' new)
include h

section

variable (hpages : FreePages st)
include hpages

/-- The address of an entry is that of a page, also without a frame. -/
lemma Added.page (hc : c ∈ new) : 4096 ∣ c.addr ∧ c.addr + 4096 ≤ 2 ^ 47 := by
  by_cases hzero : c.addr = 0
  · rw [hzero]
    exact page_zero
  · exact (hpages.page _ (h.taken hc hzero)).2

section

variable (hmissing : getPageCache st.cache inode.inodeNum k = none)
include hmissing

/-- One more page, in a frame of its own or without one. In the second case it overwrites the others
without one. -/
lemma Added.enter {free : List Nat} (hf : 4096 ∣ f ∧ f + 4096 ≤ 2 ^ 47)
    (hother : ∀ c ∈ new, c.addr ≠ 0 → c.addr ≠ f)
    (hfree : st.free = (((f :: new.map CachePage.addr).filter (· ≠ 0)).reverse ++ free)) :
    Added inode st (entered st' inode k f flags free) (⟨inode.inodeNum, k, f, flags⟩ :: new) where
  cache := congrArg (_ :: ·) h.cache
  id := forall_mem_cons.mpr ⟨rfl, h.id⟩
  missing := forall_mem_cons.mpr ⟨hmissing, h.missing⟩
  free := hfree
  framed := by
    intro c hc hne
    rcases mem_cons.mp hc with rfl | hc
    · exact holdsBlock_entered st' inode k f flags free
    · exact (h.framed c hc hne).entered (direct_apart (h.page hpages hc) hf (hother c hc hne))
  mem := by
    intro a ha
    obtain ⟨hout, hold⟩ := forall_mem_cons.mp ha
    rw [entered_mem, if_neg hout]
    exact h.mem a hold
  disk := (entered_disk ..).trans h.disk

lemma Added.enter_zero (hfree : st'.free = []) :
    Added inode st (entered st' inode k 0 flags []) (⟨inode.inodeNum, k, 0, flags⟩ :: new) := by
  refine h.enter hpages hmissing page_zero (fun _ _ hne => hne) ?_
  rw [← hfree]
  exact h.free

lemma Added.enter_frame {free : List Nat} (hfree : st'.free = f :: free) :
    Added inode st (entered st' inode k f flags free) (⟨inode.inodeNum, k, f, flags⟩ :: new) := by
  have hf' : f ∈ st'.free := hfree ▸ mem_cons_self
  have hf := hpages.page f (h.suffix.subset hf')
  have hold := h.free
  refine h.enter hpages hmissing hf.2 (fun c hc => h.addr_ne hpages.nodup hc hf') ?_
  rw [filter_cons_of_pos (by simpa using hf.1), reverse_cons, append_assoc]
  rw [hfree] at hold
  exact hold

end

end

lemma Added.congr (heq : st''.noFaults = st'.noFaults) : Added inode st st'' new := by
  obtain ⟨cache', free', faults', inodes', disk', mem'⟩ := st''
  obtain ⟨rfl, rfl, -, rfl, rfl, rfl⟩ := heq
  exact ⟨h.cache, h.id, h.missing, h.free, h.framed, h.mem, h.disk⟩

lemma Added.loadPage (hpages : FreePages st)
    (hlba : (first + k) * 8 + inode.startBlock * 8 < 2 ^ 64)
    (hmissing : getPageCache st.cache inode.inodeNum (first + k) = none)
    (hload : loadPage inode first flags k st' = .ok st'') :
    ∃ f, Added inode st st'' (⟨inode.inodeNum, first + k, f, flags⟩ :: new) ∧
      st''.inodes = st'.inodes ∧ (f = 0 → st'.free = []) ∧
      st'.free.length ≤ st''.free.length + 1 := by
  obtain ⟨hfree, rfl⟩ | ⟨f, free, hfree, rfl⟩ := loadPage_entered hlba hload
  · refine ⟨0, h.enter_zero hpages hmissing hfree, rfl, fun _ => hfree, ?_⟩
    rw [hfree]
    exact Nat.zero_le _
  · refine ⟨f, h.enter_frame hpages hmissing hfree, rfl, fun hzero => ?_, ?_⟩
    · have hmem : 0 ∈ st'.free := hfree ▸ hzero ▸ mem_cons_self
      exact absurd (h.suffix.subset hmem) hpages.zero
    · rw [hfree]
      exact le_rfl

/-- However the loop ends, it has added pages. With enough frames each of them has one, and
without an error all missing pages are among them. -/
lemma Added.loadPages (hpages : FreePages st)
    (hlba : ∀ k ∈ is, (first + k) * 8 + inode.startBlock * 8 < 2 ^ 64)
    (hmissing : ∀ k ∈ is, pages k = 0 → getPageCache st.cache inode.inodeNum (first + k) = none)
    (hload : Ends (loadPages inode first flags pages is st') st'') :
    ∃ new', Added inode st st'' new' ∧ new ⊆ new' ∧ st''.inodes = st'.inodes ∧
      (∀ c ∈ new', c ∈ new ∨ c.flags = flags) ∧
      (is.countP (pages · = 0) ≤ st'.free.length → (∀ c ∈ new, c.addr ≠ 0) →
        ∀ c ∈ new', c.addr ≠ 0) ∧
      (Fs.loadPages inode first flags pages is st' = .ok st'' →
        ∀ k ∈ is, pages k = 0 → ∃ c ∈ new', c.indx = first + k) := by
  induction is generalizing st' new with
  | nil =>
    rcases hload with hload | hload <;> cases hload
    exact ⟨new, h, Subset.refl _, rfl, fun c hc => .inl hc, fun _ hframed => hframed,
      fun _ k hk => absurd hk not_mem_nil⟩
  | cons k is ih =>
    obtain ⟨hk, hlba⟩ := forall_mem_cons.mp hlba
    obtain ⟨hkm, hmissing⟩ := forall_mem_cons.mp hmissing
    rw [loadPages_cons] at hload ⊢
    by_cases hp : pages k = 0
    · rw [if_pos hp] at hload ⊢
      rw [countP_cons_of_pos (by simpa using hp)]
      cases hone : Fs.loadPage inode first flags k st' with
      | ok st1 =>
        rw [hone] at hload
        obtain ⟨f, hadded, hinodes, hzero, hlen⟩ := h.loadPage hpages hk (hkm hp) hone
        obtain ⟨new', hadded', hsub, hinodes', hflags, hframed, hall⟩ :=
          ih hadded hlba hmissing hload
        refine ⟨new', hadded', fun c hc => hsub (mem_cons_of_mem _ hc), hinodes'.trans hinodes,
          fun c hc => ?_, fun hcount hnew => hframed (by omega) (forall_mem_cons.mpr ⟨?_, hnew⟩),
          fun hok => forall_mem_cons.mpr ⟨fun _ => ⟨_, hsub mem_cons_self, rfl⟩, hall hok⟩⟩
        · rcases hflags c hc with hc | hflag
          · exact (mem_cons.mp hc).elim (fun heq => .inr (heq ▸ rfl)) .inl
          · exact .inr hflag
        · intro hnull
          rw [hzero hnull] at hcount
          exact Nat.not_succ_le_zero _ hcount
      | error st1 =>
        rw [hone] at hload
        have hzero : 0 ∉ st'.free := fun hmem => hpages.zero (h.suffix.subset hmem)
        rcases hload with hload | hload <;> cases hload
        have hsame := loadPage_failed hzero hone
        have hinodes := congrArg FsState.inodes hsame
        exact ⟨new, h.congr hsame, Subset.refl _, hinodes,
          fun c hc => .inl hc, fun _ hframed => hframed, fun hok => nomatch hok⟩
    · rw [if_neg hp] at hload ⊢
      rw [countP_cons_of_neg (by simpa using hp)]
      obtain ⟨new', hadded, hsub, hinodes, hflags, hframed, hall⟩ := ih h hlba hmissing hload
      exact ⟨new', hadded, hsub, hinodes, hflags, hframed,
        fun hok => forall_mem_cons.mpr ⟨fun hzero => absurd hzero hp, hall hok⟩⟩

/-! ## After the loop -/

lemma Added.lookup : getPageCache st'.cache id k =
    (getPageCache new id k).or (getPageCache st.cache id k) := by
  rw [h.cache, getPageCache, find?_append]
  rfl

/-- When the pages that were added hold their blocks, no file has changed, whatever there is outside
of the cache and at the address 0. -/
lemma Added.content {m : Mem} (hsound : Sound st) (hm : CachedSame st' m)
    (hblocks : ∀ c ∈ new, HoldsBlock { st' with mem := m } inode c)
    (hi : other.inodeNum = inode.inodeNum → other.startBlock = inode.startBlock) :
    content { st' with mem := m } other pos = content st other pos := by
  have hlt : pos % 4096 < 4096 := Nat.mod_lt _ (by norm_num)
  rw [Fs.content, Fs.content, h.lookup]
  cases hnew : getPageCache new other.inodeNum (pos / 4096) with
  | some c =>
    obtain ⟨hc, hid, hindx⟩ := getPageCache_mem hnew
    have hnum : other.inodeNum = inode.inodeNum := hid.symm.trans (h.id c hc)
    have hnone : getPageCache st.cache other.inodeNum (pos / 4096) = none := by
      rw [hnum, ← hindx]
      exact h.missing c hc
    have hblock := hblocks c hc (pos % 4096) hlt
    rw [hnone, hi hnum, ← h.disk, ← hindx]
    exact hblock
  | none =>
    cases hold : getPageCache st.cache other.inodeNum (pos / 4096) with
    | none => exact congrFun h.disk _
    | some c =>
      have hcached : c.addr ∈ Fs.frames st := mem_frames_of_cached hold
      have hmem : c ∈ st'.cache := h.cache ▸ mem_append_right _ (getPageCache_mem hold).1
      refine (hm c hmem (hsound.frame _ hcached).1 _ hlt).trans (h.mem _ fun c' hc' => ?_)
      have hap : Apart (direct c.addr) 4096 (direct c'.addr) 4096 := by
        by_cases hzero : c'.addr = 0
        · rw [hzero]
          exact direct_apart (hsound.frame _ hcached).2 page_zero (hsound.frame _ hcached).1
        · have htaken := h.taken hc' hzero
          refine hsound.apart hcached (mem_append_right _ htaken) fun heq => ?_
          exact hsound.cached_not_free hold (heq ▸ htaken)
      simp only [Apart] at hap
      omega

/-- The frames that are free are those that were free without those of the entries. -/
lemma Added.mem_free_iff (hpages : FreePages st) :
    f ∈ st'.free ↔ f ∈ st.free ∧ f ∉ new.map CachePage.addr := by
  constructor
  · intro hf
    have hzero : f ≠ 0 := (hpages.page f (h.suffix.subset hf)).1
    refine ⟨h.suffix.subset hf, fun hmem => ?_⟩
    obtain ⟨c, hc, rfl⟩ := mem_map.mp hmem
    exact h.addr_ne hpages.nodup hc hf hzero rfl
  · rintro ⟨hf, hnot⟩
    rw [h.free, mem_append] at hf
    apply hf.resolve_left
    intro hmem
    exact hnot (mem_filter.mp (mem_reverse.mp hmem)).1

/-- Frames change their owner when each new entry has one. -/
lemma Added.frames_perm (hnull : ∀ c ∈ new, c.addr ≠ 0) : (Fs.frames st').Perm (Fs.frames st) := by
  have hall : (new.map CachePage.addr).filter (· ≠ 0) = new.map CachePage.addr := by
    simpa using hnull
  rw [Fs.frames, Fs.frames, h.cache, h.free, hall, map_append, append_assoc]
  exact (perm_append_comm_assoc _ _ _).trans
    ((((reverse_perm _).symm.append_right _)).append_left _)

lemma Added.extends (hready : Ready st) (hfaults : st'.faults = [])
    (hinodes : st'.inodes = st.inodes) (hflags : ∀ c ∈ new, c.flags = flags)
    (hnull : ∀ c ∈ new, c.addr ≠ 0) : Extends inode flags st st' := by
  have hframes := h.frames_perm hnull
  have hpages : FreePages st := hready.sound.freePages
  refine ⟨hready.of_perm hframes hfaults, hframes, h.suffix, fun pos => ?_, fun k c hc => ?_,
    fun k c hc => ?_, fun a ha => h.mem a fun c hc => ?_, hinodes⟩
  · exact h.content hready.sound (CachedSame.refl st') (fun c hc => h.framed c hc (hnull c hc))
      fun _ => rfl
  · rw [h.lookup, hc]
    cases hnew : getPageCache new inode.inodeNum k with
    | none => rfl
    | some c' =>
      obtain ⟨hmem, -, rfl⟩ := getPageCache_mem hnew
      rw [h.missing c' hmem] at hc
      cases hc
  · rw [h.lookup] at hc
    cases hnew : getPageCache new inode.inodeNum k with
    | none =>
      rw [hnew] at hc
      exact .inl hc
    | some c' =>
      rw [hnew] at hc
      cases hc
      exact .inr (hflags c (getPageCache_mem hnew).1)
  · exact ha c.addr (h.taken hc (hnull c hc)) fun hmem =>
      h.addr_ne hpages.nodup hc hmem (hnull c hc) rfl

end

lemma loadPages_ok (inode : Inode) (first flags : Nat) (pages : Nat → Nat) (is : List Nat)
    (h : st.faults = []) :
    ∃ st', loadPages inode first flags pages is st = .ok st' ∧ st'.faults = [] := by
  induction is generalizing st with
  | nil => exact ⟨st, rfl, h⟩
  | cons k is ih =>
    rw [loadPages_cons]
    split_ifs
    · obtain ⟨cache, free, faults, inodes, disk, mem⟩ := st
      cases h
      cases free <;> exact ih rfl
    · exact ih h

/-- The page is not cached. -/
def Missing (cache : List CachePage) (id first i : Nat) : Bool :=
  (getPageCache cache id (first + i)).isNone

lemma missing_iff : Missing cache id first i = true ↔ getPageCache cache id (first + i) = none := by
  simp [Missing]

/-! ## Marking pages dirty -/

/-- The caches have the same pages in the same frames. -/
structure SameAddrs (cache cache' : List CachePage) : Prop where
  addrs : cache'.map CachePage.addr = cache.map CachePage.addr
  lookup : ∀ id k, (getPageCache cache' id k).map CachePage.addr =
    (getPageCache cache id k).map CachePage.addr

lemma SameAddrs.refl (cache : List CachePage) : SameAddrs cache cache :=
  ⟨rfl, fun _ _ => rfl⟩

lemma SameAddrs.trans {cache'' : List CachePage} (h : SameAddrs cache cache')
    (h' : SameAddrs cache' cache'') : SameAddrs cache cache'' :=
  ⟨h'.addrs.trans h.addrs, fun id k => (h'.lookup id k).trans (h.lookup id k)⟩

lemma SameAddrs.none_iff (h : SameAddrs cache cache') :
    getPageCache cache' id k = none ↔ getPageCache cache id k = none := by
  rw [← map_eq_none_iff (f := CachePage.addr), h.lookup, map_eq_none_iff]

lemma SameAddrs.cons (h : SameAddrs cache cache') (hid : c'.id = c.id) (hindx : c'.indx = c.indx)
    (haddr : c'.addr = c.addr) : SameAddrs (c :: cache) (c' :: cache') := by
  constructor
  · simp [h.addrs, haddr]
  · intro id k
    rw [getPageCache_cons, getPageCache_cons, hid, hindx]
    split_ifs
    · simp [haddr]
    · exact h.lookup id k

lemma markDirty_same (id k : Nat) (cache : List CachePage) :
    SameAddrs cache (markDirty id k cache) := by
  induction cache with
  | nil => exact SameAddrs.refl []
  | cons c cache ih =>
    rw [markDirty]
    split_ifs
    · exact (SameAddrs.refl cache).cons rfl rfl rfl
    · exact ih.cons rfl rfl rfl

/-- The page found afterwards is the one found before, with the flag set when it is
the one that was marked. -/
lemma getPageCache_markDirty (id k k' : Nat) (cache : List CachePage) :
    getPageCache (markDirty id k cache) id k' = (getPageCache cache id k').map fun c =>
        if k = k' then { c with flags := c.flags ||| dirtyFlag } else c := by
  induction cache with
  | nil => simp [markDirty, getPageCache]
  | cons c cache ih =>
    rw [markDirty]
    by_cases hc : c.id = id ∧ c.indx = k
    · rw [if_pos hc, getPageCache_cons, getPageCache_cons]
      by_cases hk : k = k'
      · simp [hc, hk]
      · have hck : ¬ (c.id = id ∧ c.indx = k') := fun he => hk (hc.2.symm.trans he.2)
        rw [if_neg hck, if_neg hck]
        simp [hk]
    · rw [if_neg hc, getPageCache_cons, getPageCache_cons]
      by_cases hck : c.id = id ∧ c.indx = k'
      · have hk : k ≠ k' := fun he => hc (he ▸ hck)
        rw [if_pos hck, if_pos hck]
        simp [hk]
      · rw [if_neg hck, if_neg hck]
        exact ih

lemma content_congr (st : FsState) (h : SameAddrs st.cache cache') (inode : Inode) (pos : Nat) :
    content { st with cache := cache' } inode pos = content st inode pos := by
  have hl := h.lookup inode.inodeNum (pos / 4096)
  simp only [content]
  cases hc : getPageCache st.cache inode.inodeNum (pos / 4096) with
  | none =>
    rw [h.none_iff.mpr hc]
  | some c =>
    rw [hc] at hl
    obtain ⟨c', hc', ha⟩ := map_eq_some_iff.mp hl
    rw [hc']
    simp [ha]

lemma Ready.same (h : Ready st) (hs : SameAddrs st.cache cache') :
    Ready { st with cache := cache' } := by
  refine h.of_perm ?_ (show st.faults = [] from h.faults)
  rw [frames, frames, hs.addrs]

end DestinX.Fs
