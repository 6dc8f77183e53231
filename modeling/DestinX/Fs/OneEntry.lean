import DestinX.Fs.Write

/-!
# One entry for each cached page

A call of `dfs_read` or `dfs_write`, however it ends, only adds entries to `cache_list`, for
pages of its file that had none. A call returns one result, and after a request that is read or
written correctly the content of every file is known.
-/

namespace DestinX.Fs

open Base List Option Prod

/-! ## The cache as a table -/

/-- The page and its frame. -/
def place (c : CachePage) : (Nat × Nat) × Nat := ((c.id, c.indx), c.addr)

def places (cache : List CachePage) : List ((Nat × Nat) × Nat) := cache.map place

/-- No page has two entries. -/
def OneEntry (cache : List CachePage) : Prop := ((places cache).map Prod.fst).Nodup

variable {st st' st'' : FsState} {inode inode' : Inode} {cache cache' : List CachePage}
  {c : CachePage} {mode : Mode} {fp : List UInt8} {r r' : FsState × Nat} {pages : Nat → Nat}
  {is : List Nat} {id k f first flags i pos buffer offset size fuel n : Nat}

lemma lookup_places (cache : List CachePage) (id k : Nat) :
    (places cache).lookup (id, k) = (getPageCache cache id k).map CachePage.addr := by
  induction cache with
  | nil => rfl
  | cons c cache ih =>
    rw [getPageCache_cons, places, map_cons, place, lookup_cons]
    by_cases hc : c.id = id ∧ c.indx = k
    · simp [hc]
    · have hne : ((id, k) == (c.id, c.indx)) = false := by
        simp only [beq_eq_false_iff_ne, ne_eq, mk.injEq]
        exact fun h => hc ⟨h.1.symm, h.2.symm⟩
      rw [hne, if_neg hc]
      exact ih

lemma lookup_eq_none_iff :
    (places cache).lookup (id, k) = none ↔ (id, k) ∉ (places cache).map Prod.fst := by
  rw [lookup_places, getPageCache]
  simp [places, place]

/-- The content of a file by the table. -/
lemma content_eq (st : FsState) (inode : Inode) (pos : Nat) : content st inode pos =
      match (places st.cache).lookup (inode.inodeNum, pos / 4096) with
      | some f => st.mem (direct f + pos % 4096)
      | none => st.disk ((inode.startBlock + pos / 4096) * 4096 + pos % 4096) := by
  rw [content, lookup_places]
  cases getPageCache st.cache inode.inodeNum (pos / 4096) <;> rfl

lemma content_of_lookup {pos : Nat}
    (h : (places st.cache).lookup (inode.inodeNum, pos / 4096) = some f) :
    content st inode pos = st.mem (direct f + pos % 4096) := by rw [content_eq, h]

lemma frames_eq (st : FsState) : frames st = (places st.cache).map Prod.snd ++ st.free := by
  simp [frames, places, place]

lemma mem_frames_of_lookup (h : (places st.cache).lookup (id, k) = some f) : f ∈ frames st := by
  rw [lookup_places] at h
  obtain ⟨c, hc, rfl⟩ := map_eq_some_iff.mp h
  exact mem_frames_of_cached hc

lemma lookup_injective {id' k' : Nat} (hnodup : (frames st).Nodup)
    (h : (places st.cache).lookup (id, k) = some f)
    (h' : (places st.cache).lookup (id', k') = some f) : id = id' ∧ k = k' := by
  rw [lookup_places] at h h'
  obtain ⟨c, hc, hf⟩ := map_eq_some_iff.mp h
  obtain ⟨c', hc', hf'⟩ := map_eq_some_iff.mp h'
  obtain ⟨hm, rfl, rfl⟩ := getPageCache_mem hc
  obtain ⟨hm', rfl, rfl⟩ := getPageCache_mem hc'
  obtain rfl : c = c' := inj_on_of_nodup_map (nodup_append.mp hnodup).1 hm hm' (hf.trans hf'.symm)
  exact ⟨rfl, rfl⟩

lemma places_markDirty (id k : Nat) (cache : List CachePage) :
    places (markDirty id k cache) = places cache := by
  induction cache with
  | nil => rfl
  | cons c cache ih =>
    rw [markDirty]
    split_ifs
    · rfl
    · exact congrArg (place c :: ·) ih

lemma places_mark (mode : Mode) (id first count : Nat) (cache : List CachePage) :
    places (mode.mark id first count cache) = places cache := by
  rw [Mode.mark]
  split_ifs
  · generalize range count = is
    induction is generalizing cache with
    | nil => rfl
    | cons i is ih => exact (ih _).trans (places_markDirty id _ cache)
  · rfl

/-! ## What a call can do to the cache -/

/-- Entries for pages of the file have been added. As long as no frame is the address 0,
which stands for a failed allocation, the frames are the same. -/
structure Grown (st : FsState) (id : Nat) (st' : FsState) : Prop where
  new : ∃ new, places st'.cache = new ++ places st.cache ∧ ∀ p ∈ new, p.1.1 = id
  disk : st'.disk = st.disk
  inodes : st'.inodes = st.inodes
  frames : 0 ∉ st.free → (∀ c ∈ st'.cache, c.addr ≠ 0) → (Fs.frames st').Perm (Fs.frames st)

lemma Grown.refl (st : FsState) (id : Nat) : Grown st id st :=
  ⟨⟨[], rfl, by simp⟩, rfl, rfl, fun _ _ => Perm.refl _⟩

lemma notNull_iff : (∀ c ∈ cache, c.addr ≠ 0) ↔ ∀ p ∈ places cache, p.2 ≠ 0 := by
  simp [places, place]

lemma Grown.notNull (h : Grown st id st') (hnull : ∀ c ∈ st'.cache, c.addr ≠ 0) :
    ∀ c ∈ st.cache, c.addr ≠ 0 := by
  obtain ⟨new, hnew, -⟩ := h.new
  rw [notNull_iff] at hnull ⊢
  exact fun p hp => hnull p (hnew ▸ mem_append_right _ hp)

lemma Grown.trans (h : Grown st id st') (h' : Grown st' id st'') : Grown st id st'' := by
  obtain ⟨new, hnew, hid⟩ := h.new
  obtain ⟨new', hnew', hid'⟩ := h'.new
  refine ⟨⟨new' ++ new, by rw [hnew', hnew, append_assoc], fun p hp => ?_⟩,
    h'.disk.trans h.disk, h'.inodes.trans h.inodes, fun hfree hnull => ?_⟩
  · rcases mem_append.mp hp with hp | hp
    · exact hid' p hp
    · exact hid p hp
  · have hperm := h.frames hfree (h'.notNull hnull)
    refine (h'.frames (fun hmem => ?_) hnull).trans hperm
    rcases mem_append.mp (hperm.mem_iff.mp (mem_append_right _ hmem)) with hmem | hmem
    · obtain ⟨c, hc, hzero⟩ := mem_map.mp hmem
      exact h.notNull (h'.notNull hnull) c hc hzero
    · exact hfree hmem

/-- The flags of the entries and the bytes of memory do not count. -/
lemma Grown.mark (st : FsState) (mode : Mode) (id first count : Nat) (m : Mem) :
    Grown st id { st with cache := mode.mark id first count st.cache, mem := m } := by
  have hplaces := places_mark mode id first count st.cache
  refine ⟨⟨[], hplaces, by simp⟩, rfl, rfl, fun _ _ => ?_⟩
  rw [frames_eq, frames_eq, hplaces]

/-- An entry that was there is still found, unless its page has got a new one. -/
lemma Grown.lookup (h : Grown st id st') (hone : OneEntry st'.cache) {p : Nat × Nat}
    (hp : (places st.cache).lookup p = some f) : (places st'.cache).lookup p = some f := by
  obtain ⟨new, hnew, -⟩ := h.new
  have hnot : new.lookup p = none := by
    rw [List.lookup_eq_none_iff]
    intro q hq
    have hmem : p ∈ (places st.cache).map fst := by
      by_contra hno
      have := lookup_eq_none_iff.mpr hno
      rw [hp] at this
      cases this
    rw [OneEntry, hnew, map_append] at hone
    have hd := (nodup_append.mp hone).2.2 q.1 (mem_map_of_mem hq) p hmem
    simpa using Ne.symm hd
  rw [hnew, lookup_append, hnot]
  exact hp

lemma Grown.lookup_other (h : Grown st id st') {id' : Nat} (hne : id' ≠ id) (k : Nat) :
    (places st'.cache).lookup (id', k) = (places st.cache).lookup (id', k) := by
  obtain ⟨new, hnew, hid⟩ := h.new
  have hnot : new.lookup (id', k) = none := by
    rw [List.lookup_eq_none_iff]
    intro q hq
    have hq := hid q hq
    rw [bne_iff_ne]
    intro heq
    exact hne (hq ▸ heq ▸ rfl)
  rw [hnew, lookup_append, hnot, none_or]

/-! ## Loading -/

lemma ahciRead_mem (st : FsState) (lba paddr : Nat) :
    (st.faults.head? = some true ∧ (ahciRead st lba paddr).2 = false ∧
      (ahciRead st lba paddr).1.mem = st.mem) ∨
    (st.faults.head? ≠ some true ∧ (ahciRead st lba paddr).2 = true ∧
      (ahciRead st lba paddr).1.mem = fun x =>
        if direct paddr ≤ x ∧ x < direct paddr + 4096 then st.disk (lba * 512 + (x - direct paddr))
        else st.mem x) := by
  rw [ahciRead]
  split
  · next hfaults => exact .inl ⟨by simp [hfaults], rfl, rfl⟩
  · next hfaults =>
      refine .inr ⟨fun hhead => ?_, rfl, by dsimp only⟩
      obtain ⟨rest, hrest⟩ := head?_eq_some_iff.mp hhead
      exact hfaults rest hrest

lemma enter_grown {lba id k : Nat} (hst' : addPageToCache
      (ahciRead (pmmAllocPage st).2 lba (pmmAllocPage st).1).1 id k
        (pmmAllocPage st).1 flags = st') :
    Grown st id st' ∧ places st'.cache = ((id, k), (pmmAllocPage st).1) :: places st.cache := by
  obtain ⟨hcache, hfree, hdisk, hinodes⟩ :=
    ahciRead_frame (pmmAllocPage st).2 lba (pmmAllocPage st).1
  obtain ⟨halloc, htaken⟩ := pmmAllocPage_frame st
  have hplaces : places st'.cache = ((id, k), (pmmAllocPage st).1) :: places st.cache := by
    simp [← hst', addPageToCache, places, place, hcache, halloc.1]
  subst hst'
  refine ⟨⟨⟨[((id, k), (pmmAllocPage st).1)], hplaces, by simp⟩, hdisk.trans halloc.2.1,
    hinodes.trans halloc.2.2, fun _ hnull => ?_⟩, hplaces⟩
  have hne : (pmmAllocPage st).1 ≠ 0 := hnull _ mem_cons_self
  have hst := htaken.resolve_left fun hnone => hne (by rw [hnone])
  simp only [frames, addPageToCache, hcache, halloc.1, hfree, map_cons]
  rw [← hst]
  exact perm_middle.symm

lemma giveBack_grown {lba : Nat} (id : Nat) (hst' : pmmFreePage
      (ahciRead (pmmAllocPage st).2 lba (pmmAllocPage st).1).1 (pmmAllocPage st).1 = st') :
    Grown st id st' ∧ places st'.cache = places st.cache := by
  obtain ⟨hcache, hfree, hdisk, hinodes⟩ :=
    ahciRead_frame (pmmAllocPage st).2 lba (pmmAllocPage st).1
  obtain ⟨halloc, htaken⟩ := pmmAllocPage_frame st
  generalize (ahciRead (pmmAllocPage st).2 lba (pmmAllocPage st).1).1 = s at *
  have hsame : st'.cache = st.cache ∧ st'.disk = st.disk ∧ st'.inodes = st.inodes := by
    rw [← hst', pmmFreePage]
    split_ifs <;> exact ⟨hcache.trans halloc.1, hdisk.trans halloc.2.1, hinodes.trans halloc.2.2⟩
  have hplaces : places st'.cache = places st.cache := by rw [hsame.1]
  refine ⟨⟨⟨[], hplaces, by simp⟩, hsame.2.1, hsame.2.2, fun hzero _ => ?_⟩, hplaces⟩
  have hback : st'.free = st.free := by
    rw [← hst', pmmFreePage]
    rcases htaken with hnone | hst
    · rw [hnone] at hfree ⊢
      exact hfree
    · have hne : (pmmAllocPage st).1 ≠ 0 := fun h => hzero (hst ▸ h ▸ mem_cons_self)
      rw [if_neg hne]
      exact (congrArg _ hfree).trans hst
  rw [frames, frames, hsame.1, hback]

lemma loadPage_grown (h : Ends (loadPage inode first flags i st) st') :
    Grown st inode.inodeNum st' ∧ (places st'.cache = places st.cache ∨
        ∃ f, places st'.cache = ((inode.inodeNum, first + i), f) :: places st.cache) := by
  rw [loadPage] at h
  split_ifs at h with hok
  · rcases h with h | h
    · obtain ⟨hgrown, hplaces⟩ := enter_grown (Except.ok.inj h)
      exact ⟨hgrown, .inr ⟨_, hplaces⟩⟩
    · cases h
  · rcases h with h | h
    · cases h
    · obtain ⟨hgrown, hplaces⟩ := giveBack_grown inode.inodeNum (Except.error.inj h)
      exact ⟨hgrown, .inl hplaces⟩

lemma OneEntry.cons (h : OneEntry cache) (hplaces : places cache' = ((id, k), f) :: places cache)
    (hnone : (places cache).lookup (id, k) = none) : OneEntry cache' := by
  rw [OneEntry, hplaces, map_cons, nodup_cons]
  exact ⟨lookup_eq_none_iff.mp hnone, h⟩

/-- The loop loads pages that have no entry, so that each gets one. -/
lemma loadPages_grown (hnodup : is.Nodup)
    (h : Ends (loadPages inode first flags pages is st) st') :
    Grown st inode.inodeNum st' ∧ (OneEntry st.cache →
        (∀ i ∈ is, pages i = 0 → (places st.cache).lookup (inode.inodeNum, first + i) = none) →
        OneEntry st'.cache) := by
  induction is generalizing st with
  | nil =>
    rcases h with h | h <;> cases h
    exact ⟨Grown.refl _ _, fun hone _ => hone⟩
  | cons i is ih =>
    obtain ⟨hi, hnodup⟩ := nodup_cons.mp hnodup
    simp only [loadPages, foldlM_cons] at ih h
    by_cases hp : pages i = 0
    · rw [if_pos hp] at h
      have hstep : ∀ st1, Ends (loadPage inode first flags i st) st1 → OneEntry st.cache →
          (∀ j ∈ i :: is, pages j = 0 →
            (places st.cache).lookup (inode.inodeNum, first + j) = none) →
          OneEntry st1.cache ∧ ∀ j ∈ is, pages j = 0 →
            (places st1.cache).lookup (inode.inodeNum, first + j) = none := by
        intro st1 hst1 hone hnone
        rcases (loadPage_grown hst1).2 with hplaces | ⟨f, hplaces⟩
        · rw [OneEntry, hplaces]
          exact ⟨hone, fun j hj => hnone j (mem_cons_of_mem i hj)⟩
        · refine ⟨hone.cons hplaces (hnone i mem_cons_self hp), fun j hj hpj => ?_⟩
          have hne : ((inode.inodeNum, first + j) == (inode.inodeNum, first + i)) = false := by
            have hij : j ≠ i := fun heq => hi (heq ▸ hj)
            simpa using hij
          rw [hplaces, lookup_cons, hne]
          exact hnone j (mem_cons_of_mem i hj) hpj
      cases hload : loadPage inode first flags i st with
      | ok st1 =>
        rw [hload] at h
        obtain ⟨hgrown, hone⟩ := ih hnodup h
        refine ⟨(loadPage_grown (.inl hload)).1.trans hgrown, fun h0 hnone => ?_⟩
        obtain ⟨h1, hnone1⟩ := hstep st1 (.inl hload) h0 hnone
        exact hone h1 hnone1
      | error st1 =>
        rw [hload] at h
        rcases h with h | h <;> cases h
        exact ⟨(loadPage_grown (.inr hload)).1,
          fun h0 hnone => (hstep _ (.inr hload) h0 hnone).1⟩
    · rw [if_neg hp] at h
      obtain ⟨hgrown, hone⟩ := ih hnodup h
      exact ⟨hgrown, fun h0 hnone => hone h0 fun j hj => hnone j (mem_cons_of_mem i hj)⟩

/-! ## Whole calls -/

lemma cachedPages_lookup (hnull : ∀ c ∈ cache, c.addr ≠ 0)
    (h : cachedPages cache id first i = 0) : (places cache).lookup (id, first + i) = none := by
  rw [lookup_places]
  rw [cachedPages] at h
  cases hc : getPageCache cache id (first + i) with
  | none => rfl
  | some c =>
    rw [hc] at h
    exact absurd h (hnull c (getPageCache_mem hc).1)

/-- Whatever the call does: with memory left, every page has one entry afterwards. -/
lemma transfer_grown (hcall : transfer mode fuel st fp buffer offset size = some (st', n)) :
    ∃ id, Grown st id st' ∧ (∀ inode, st.inodes fp = some inode → id = inode.inodeNum) ∧
      (OneEntry st.cache → (∀ c ∈ st'.cache, c.addr ≠ 0) → OneEntry st'.cache) := by
  induction fuel generalizing st size with
  | zero => cases hcall
  | succ fuel ih =>
    obtain ⟨⟨rfl, -⟩, -⟩ | ⟨inode, hinode, -, -, -, hcases⟩ := transfer_ended hcall
    · cases hinode : st'.inodes fp with
      | none => exact ⟨0, Grown.refl st' 0, fun inode h => (by cases h), fun hone _ => hone⟩
      | some inode =>
        refine ⟨inode.inodeNum, Grown.refl st' _, fun inode' h => ?_, fun hone _ => hone⟩
        cases h
        rfl
    have hid : ∀ inode', st.inodes fp = some inode' → inode.inodeNum = inode'.inodeNum := by
      intro inode' h
      cases hinode.symm.trans h
      rfl
    have hplaces := places_mark mode inode.inodeNum (pageStart offset / 4096)
      (pageCount offset size) st.cache
    have hloaded : ∀ st1, Ends (mode.load inode st offset size) st1 →
        Grown st inode.inodeNum st1 ∧
          (OneEntry st.cache → (∀ c ∈ st.cache, c.addr ≠ 0) → OneEntry st1.cache) := by
      intro st1 h
      obtain ⟨hgrown, hone⟩ := loadPages_grown nodup_range h
      refine ⟨(Grown.mark st mode inode.inodeNum _ _ st.mem).trans hgrown,
        fun h0 hnull => hone ?_ fun i _ hp => ?_⟩
      · rw [OneEntry, hplaces]
        exact h0
      · rw [hplaces]
        exact cachedPages_lookup hnull hp
    rcases hcases with ⟨-, hhit⟩ | ⟨-, ⟨-, herror⟩ | ⟨st1, hok, hagain⟩⟩
    · obtain ⟨-, m, rfl⟩ := hit_same hhit
      refine ⟨_, Grown.mark st mode inode.inodeNum _ _ m, hid, fun hone _ => ?_⟩
      rw [OneEntry, hplaces]
      exact hone
    · obtain ⟨hgrown, hone⟩ := hloaded _ (.inr herror)
      exact ⟨_, hgrown, hid, fun h0 hnull => hone h0 (hgrown.notNull hnull)⟩
    · obtain ⟨hgrown, hone⟩ := hloaded _ (.inl hok)
      obtain ⟨id, hgrown', hid', hone'⟩ := ih hagain
      obtain rfl := hid' inode (hgrown.inodes ▸ hinode)
      exact ⟨_, hgrown.trans hgrown', hid, fun h0 hnull =>
        hone' (hone h0 (hgrown.notNull (hgrown'.notNull hnull))) hnull⟩

lemma transfer_succ (h : transfer mode fuel st fp buffer offset size = some r) :
    transfer mode (fuel + 1) st fp buffer offset size = some r := by
  induction fuel generalizing st size with
  | zero => cases h
  | succ fuel ih =>
    rw [transfer] at h ⊢
    unfold transferBody at h ⊢
    by_cases hzero : buffer = 0 ∨ size = 0
    · rw [if_pos hzero] at h ⊢
      exact h
    rw [if_neg hzero] at h ⊢
    obtain ⟨inode, hinode, h⟩ := bind_eq_some_iff.mp h
    rw [hinode, bind_some]
    split_ifs at h ⊢ with hbehind hint hmiss
    · exact h
    · cases hload : mode.load inode st offset size with
      | error st1 =>
        rw [hload] at h
        exact h
      | ok st1 =>
        rw [hload] at h
        exact ih h
    · exact h

lemma Returns.unique (h : Returns mode st fp buffer offset size r)
    (h' : Returns mode st fp buffer offset size r') : r = r' := by
  have hmono : ∀ d fuel r, transfer mode fuel st fp buffer offset size = some r →
      transfer mode (fuel + d) st fp buffer offset size = some r := by
    intro d
    induction d with
    | zero => exact fun _ _ h => h
    | succ d ih => exact fun fuel r h => transfer_succ (ih fuel r h)
  obtain ⟨fuel, hfuel⟩ := h
  obtain ⟨fuel', hfuel'⟩ := h'
  have h1 := hmono fuel' fuel r hfuel
  have h2 := hmono fuel fuel' r' hfuel'
  rw [Nat.add_comm, h2] at h1
  exact (some.inj h1).symm

end DestinX.Fs
