import DestinX.Fs.DiskErrors

/-!
# Calls in which a load fails

`dfs_read` and `dfs_write` give up at the first disk error, with the pages before it in the
cache. When memory runs out `pmm_alloc_page` returns 0, which the code takes for a frame: all
pages loaded from there on share the frame at the address 0. The command table of `ahci_read` is
built in a free frame, or at the address 0 as well, so that in the end other bytes can be there.
-/

namespace DestinX.Fs

open Base List Option Nat

variable {st st' st'' : FsState} {inode i : Inode} {fp : List UInt8} {mode : Mode}
  {pages : Nat → Nat} {is : List Nat} {new : List CachePage} {c : CachePage}
  {cache cache' : List CachePage} {first flags k buffer offset size fuel f pos id : Nat}

/-! ## What a failed load should leave -/

/-- The entries in front of those that were there. -/
def addedPages (st st' : FsState) : List CachePage :=
  st'.cache.take (st'.cache.length - st.cache.length)

/-- No file has changed, the pages that were added are what is on the disk, and their frames are
all that has been taken. -/
structure FailsClean (inode : Inode) (st st' : FsState) : Prop where
  content : ∀ i pos, (i.inodeNum = inode.inodeNum → i.startBlock = inode.startBlock) →
    content st' i pos = content st i pos
  kept : places st'.cache = places (addedPages st st') ++ places st.cache
  blocks : ∀ c ∈ addedPages st st', c.id = inode.inodeNum ∧ HoldsBlock st' inode c
  frames : ∀ f, f ∈ st'.free ↔ f ∈ st.free ∧ f ∉ (addedPages st st').map CachePage.addr

/-! ## The call -/

/-- A load of the call fails. -/
structure LoadFails (mode : Mode) (inode : Inode) (st : FsState) (buffer offset size : Nat)
    (st' : FsState) : Prop where
  asks : ¬ (buffer = 0 ∨ size = 0)
  inFile : offset ≤ inode.size
  miss : miss st.cache inode.inodeNum (pageStart offset / 4096) (pageCount offset size) = true
  load : mode.load inode st offset size = .error st'

/-- The call returns 0, or goes on to the copying with all pages in the cache. -/
def ComesToEnd (mode : Mode) (inode : Inode) (buffer offset : Nat) (e : Option (FsState × Nat)) :
    Prop :=
  ∃ st₁ size₁, e = some (st₁, 0) ∨ AllCached st₁.cache inode offset (pageCount offset size₁) ∧
      e = mode.hit inode st₁ buffer offset size₁

/-- The entries that were added are those of the loads. -/
lemma Added.addedPages_eq (h : Added inode (mode.marked inode st offset size) st' new) :
    addedPages st st' = new := by
  have hlength : (mode.marked inode st offset size).cache.length = st.cache.length := by
    have hplaces := congrArg List.length (places_mark mode inode.inodeNum (pageStart offset / 4096)
      (pageCount offset size) st.cache)
    rw [places, places, length_map, length_map] at hplaces
    exact hplaces
  rw [addedPages, h.cache, length_append, hlength, Nat.add_sub_cancel, take_left]

/-- Whether the call was clean depends on the pages without a frame. -/
lemma Added.failsClean_iff {m : Mem} (h : Added inode (mode.marked inode st offset size) st' new)
    (hsound : Sound st) (hm : CachedSame st' m) : FailsClean inode st { st' with mem := m } ↔
      ∀ c ∈ new, c.addr = 0 → HoldsBlock { st' with mem := m } inode c := by
  have hsame := mark_same mode inode.inodeNum (pageStart offset / 4096) (pageCount offset size)
    st.cache
  have hadded : addedPages st { st' with mem := m } = new := h.addedPages_eq
  constructor
  · intro hclean c hc _
    exact (hclean.blocks c (hadded ▸ hc)).2
  · intro hunframed
    have hsound1 : Sound (mode.marked inode st offset size) := hsound.same hsame
    have hblocks : ∀ c ∈ new, HoldsBlock { st' with mem := m } inode c := by
      intro c hc
      by_cases hzero : c.addr = 0
      · exact hunframed c hc hzero
      · intro d hd
        exact (hm c (h.cache ▸ mem_append_left _ hc) hzero d hd).trans (h.framed c hc hzero d hd)
    exact {
      content := fun i pos hi =>
        (h.content hsound1 hm hblocks hi).trans (content_congr st hsame i pos)
      kept := by
        have hplaces := places_mark mode inode.inodeNum (pageStart offset / 4096)
          (pageCount offset size) st.cache
        rw [hadded, ← hplaces]
        exact (congrArg places h.cache).trans (map_append ..)
      blocks := fun c hc => by
        rw [hadded] at hc
        exact ⟨h.id c hc, hblocks c hc⟩
      frames := fun f => by
        rw [hadded]
        exact h.mem_free_iff hsound1.freePages }

/-! ## The call within the call -/

lemma pageCount_cutSize_le (ho : offset < 2 ^ 64) (hs : size < 2 ^ 64) (hin : offset ≤ inode.size)
    (hcount : pageCount offset size < 2 ^ 31) (hpos : 0 < pageCount offset size) :
    pageCount offset (cutSize inode offset size) ≤ pageCount offset size := by
  by_cases hcut : inode.size < add64 offset size
  · rw [cutSize, if_pos hcut]
    simp only [add64] at hcut
    have hsize : sub64 inode.size offset = inode.size - offset := by
      simp only [sub64]
      omega
    have hlt : inode.size - offset < 2 ^ 64 := by omega
    rw [hsize, pageCount_eq ho hlt]
    rw [pageCount_eq ho hs] at hcount hpos ⊢
    omega
  · rw [cutSize, if_neg hcut]

lemma LoadFails.body {again : FsState → Nat → Option (FsState × Nat)}
    (h : LoadFails mode inode st buffer offset size st')
    (hinode : st.inodes fp = some inode) (hcount : pageCount offset size < 2 ^ 31) :
    transferBody mode again st fp buffer offset size = some (st', 0) := by
  rw [transferBody, if_neg h.asks, hinode, bind_some, if_neg (not_lt.mpr h.inFile),
    if_neg (not_le.mpr hcount), h.miss, if_pos rfl, h.load]

section

variable (hinode : st.inodes fp = some inode)
include hinode

lemma ComesToEnd.cached (ho : offset < 2 ^ 64) (hin : offset ≤ inode.size)
    (hcount : pageCount offset size < 2 ^ 31)
    (hall : AllCached st.cache inode offset (pageCount offset size)) :
    ∃ e, ComesToEnd mode inode buffer offset e ∧ ∀ again,
      transferBody mode again st fp buffer offset size = e := by
  by_cases hargs : buffer = 0 ∨ size = 0
  · exact ⟨some (st, 0), ⟨st, size, .inl rfl⟩, fun again => transferBody_nothing hargs⟩
  · refine ⟨mode.hit inode st buffer offset size, ⟨st, size, .inr ⟨hall, rfl⟩⟩, fun again => ?_⟩
    exact transferBody_cached hinode ho hin hcount hall hargs

/-- The call enters itself once at most and comes to its end. -/
def EndsOnce (mode : Mode) (inode : Inode) (st : FsState) (fp : List UInt8)
    (buffer offset size : Nat) : Prop :=
  ∃ e, ComesToEnd mode inode buffer offset e ∧ ∀ again,
    transferBody mode (fun st' size' => transferBody mode again st' fp buffer offset size') st fp
      buffer offset size = e

variable (hsound : Sound st) (hblock : inode.startBlock ≤ 2 ^ 60) (ho : offset < 2 ^ 64)
  (hs : size < 2 ^ 64) (hcount : pageCount offset size < 2 ^ 31)
include hsound hblock ho hs hcount

/-- After the loads the pages are in the cache, so that the second call is the last one. -/
lemma ends_of_miss (hin : offset ≤ inode.size) (hargs : ¬ (buffer = 0 ∨ size = 0))
    (hmiss : miss st.cache inode.inodeNum (pageStart offset / 4096)
      (pageCount offset size) = true) :
    EndsOnce mode inode st fp buffer offset size := by
  have hpos : 0 < pageCount offset size := by
    apply pos_of_ne_zero
    intro hzero
    rw [hzero] at hmiss
    cases hmiss
  cases hload : mode.load inode st offset size with
  | error st₁ =>
    have hfails : LoadFails mode inode st buffer offset size st₁ := ⟨hargs, hin, hmiss, hload⟩
    exact ⟨some (st₁, 0), ⟨st₁, size, .inl rfl⟩, fun again => hfails.body hinode hcount⟩
  | ok st₁ =>
    obtain ⟨-, -, hinodes, -, -, hall⟩ := load_added hsound ho hblock hcount (.inl hload)
    have hle := pageCount_cutSize_le ho hs hin hcount hpos
    have hall1 : AllCached st₁.cache inode offset (pageCount offset (cutSize inode offset size)) :=
      (hall hload).mono hle
    obtain ⟨e, hend, hnext⟩ := ComesToEnd.cached (hinodes ▸ hinode) ho hin
      (lt_of_le_of_lt hle hcount) hall1
    refine ⟨e, hend, fun again => ?_⟩
    rw [transferBody_loaded hinode hin hcount hargs hmiss hload]
    exact hnext again

lemma transferBody_ends : EndsOnce mode inode st fp buffer offset size := by
  by_cases hargs : buffer = 0 ∨ size = 0
  · exact ⟨some (st, 0), ⟨st, size, .inl rfl⟩, fun again => transferBody_nothing hargs⟩
  by_cases hin : offset ≤ inode.size
  · cases hmiss : miss st.cache inode.inodeNum (pageStart offset / 4096)
      (pageCount offset size) with
    | false =>
      rw [pageStart_div ho] at hmiss
      obtain ⟨e, hend, hnext⟩ := ComesToEnd.cached hinode ho hin hcount (miss_iff.mp hmiss)
      exact ⟨e, hend, fun again => hnext _⟩
    | true => exact ends_of_miss hinode hsound hblock ho hs hcount hin hargs hmiss
  · exact ⟨some (st, 0), ⟨st, size, .inl rfl⟩,
      fun again => transferBody_behind hinode hargs (not_le.mp hin)⟩

end

/-- A file of three pages, the first of which differs from the others. -/
def threePages : Inode := ⟨1, 12288, 0, 3⟩

def threePagesState (free : List Nat) (faults : List Bool) : FsState where
  cache := []
  free := free
  faults := faults
  inodes := fun _ => some threePages
  disk := fun a => if a < 4096 then 1 else 2
  mem := fun _ => 0

/-- There are frames for the pages and a command table, and the third load fails. -/
def thirdFails : FsState := threePagesState [4096, 8192, 12288, 16384] [false, false, true]

end DestinX.Fs
