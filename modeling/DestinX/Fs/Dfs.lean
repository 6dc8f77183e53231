import DestinX.Base.Copy

/-!
# Reading and writing files

`dfs_read` and `dfs_write` of `fs/dfs.c` with the page cache of `mm/page_cache.c`. Memory is the
virtual address space of the kernel, where a physical page is seen at its address plus
`DIRECT_OFFSET`. The nodes of `cache_list` are kept as a list.

The two functions run the same code with four differences, which `Mode` names. For the first
page `dfs_write` adds the offset to the address and `dfs_read` does not. A result of `none`
means that the call leaves the canonical addresses, or an `int` overflows.
-/

namespace DestinX.Fs

open Base

def add64 (a b : Nat) : Nat := (a + b) % 2 ^ 64

def sub64 (a b : Nat) : Nat := (a + 2 ^ 64 - b) % 2 ^ 64

def directOffset : Nat := 0xFFFF800000000000

/-- Where the kernel sees the physical address. -/
def direct (addr : Nat) : Nat := add64 addr directOffset

/-- `page_cache_t` -/
structure CachePage where
  (id indx addr flags : Nat)
  deriving DecidableEq, Repr

/-- The fields of `inode_t` that reading and writing use, with the extent. -/
structure Inode where
  (inodeNum size startBlock length : Nat)
  deriving DecidableEq, Repr

/-- The pages that `pmm_alloc_page` will return are listed in `free`, and `faults`
says which of the next disk reads fail. A path leads to the inode that
`dfs_get_inode` finds for it. -/
structure FsState where
  cache : List CachePage
  free : List Nat
  faults : List Bool
  inodes : List UInt8 → Option Inode
  disk : Nat → UInt8
  mem : Mem

/-! ## The page cache -/

def dirtyFlag : Nat := 1

def getPageCache (cache : List CachePage) (id indx : Nat) : Option CachePage :=
  cache.find? fun c => c.id = id ∧ c.indx = indx

def addPageToCache (st : FsState) (id indx addr flags : Nat) : FsState :=
  { st with cache := ⟨id, indx, addr, flags⟩ :: st.cache }

/-- Set `DIRTY_FLAG` in the entry that `get_page_cache` finds. -/
def markDirty (id indx : Nat) : List CachePage → List CachePage
  | [] => []
  | c :: cs =>
    if c.id = id ∧ c.indx = indx then { c with flags := c.flags ||| dirtyFlag } :: cs
    else c :: markDirty id indx cs

/-! ## Loading pages -/

def pmmAllocPage (st : FsState) : Nat × FsState :=
  match st.free with
  | [] => (0, st)
  | f :: free => (f, { st with free := free })

/-- Give the page back that has just been allocated. Address 0 stands for none. -/
def pmmFreePage (st : FsState) (paddr : Nat) : FsState :=
  if paddr = 0 then st else { st with free := paddr :: st.free }

/-- `ahci_read` of eight sectors into one page, with its success. The command table, which it builds
in a free frame and gives back, is left out; if there is no free frame, it is built in the frame at
the address 0. Where this matters there are conditions on the free frames. -/
def ahciRead (st : FsState) (lba paddr : Nat) : FsState × Bool :=
  match st.faults with
  | true :: faults => ({ st with faults := faults }, false)
  | _ =>
    ({ st with
      faults := st.faults.tail
      mem := fun a =>
        if direct paddr ≤ a ∧ a < direct paddr + 4096 then st.disk (lba * 512 + (a - direct paddr))
        else st.mem a }, true)

/-- Nothing is taken, or the first free frame. -/
lemma pmmAllocPage_frame (st : FsState) :
    ((pmmAllocPage st).2.cache = st.cache ∧ (pmmAllocPage st).2.disk = st.disk ∧
      (pmmAllocPage st).2.inodes = st.inodes) ∧
    (pmmAllocPage st = (0, st) ∨ (pmmAllocPage st).1 :: (pmmAllocPage st).2.free = st.free) := by
  rw [pmmAllocPage]
  cases hst : st.free with
  | nil => exact ⟨⟨rfl, rfl, rfl⟩, .inl rfl⟩
  | cons f fs => exact ⟨⟨rfl, rfl, rfl⟩, .inr rfl⟩

lemma ahciRead_frame (st : FsState) (lba paddr : Nat) :
    (ahciRead st lba paddr).1.cache = st.cache ∧ (ahciRead st lba paddr).1.free = st.free ∧
      (ahciRead st lba paddr).1.disk = st.disk ∧
      (ahciRead st lba paddr).1.inodes = st.inodes := by
  rw [ahciRead]
  split <;> exact ⟨rfl, rfl, rfl, rfl⟩

/-- Load page `first + i` of the file, or give up. -/
def loadPage (inode : Inode) (first flags i : Nat) (st : FsState) : Except FsState FsState :=
  let p := pmmAllocPage st
  let r := ahciRead p.2 (add64 ((first + i) * 8) (inode.startBlock * 8)) p.1
  if r.2 then .ok (addPageToCache r.1 inode.inodeNum (first + i) p.1 flags)
  else .error (pmmFreePage r.1 p.1)

def loadPages (inode : Inode) (first flags : Nat) (pages : Nat → Nat) (is : List Nat)
    (st : FsState) : Except FsState FsState :=
  is.foldlM (fun st i => if pages i = 0 then loadPage inode first flags i st else .ok st) st

/-! ## Copying -/

/-- Bytes that go between the buffer and a page. -/
structure Piece where
  (buf page len : Nat)
  deriving DecidableEq, Repr

/-- The arguments of the calls of `memcpy` in the three cases of the `switch`. In the
third one `(i - 1) * PAGE_SIZE_4KB` is an `int`. With no page at all, `pages[0]` does
not exist. -/
def pieces (count : Nat) (pages : Nat → Nat) (buffer offset size start : Nat) :
    Option (List Piece) :=
  match count with
  | 0 => none
  | 1 => some [⟨buffer, add64 (direct (pages 0)) start, size⟩]
  | 2 => some [⟨buffer, add64 (direct (pages 0)) start, sub64 4096 offset⟩,
        ⟨sub64 (add64 buffer 4096) offset, direct (pages 1), add64 size offset % 4096⟩]
  | n + 3 =>
    if n * 4096 < 2 ^ 31 then
      some (⟨buffer, add64 (direct (pages 0)) start, sub64 4096 offset⟩ ::
        (List.range (n + 1)).map (fun k =>
          ⟨add64 (sub64 (add64 buffer 4096) offset) (k * 4096), direct (pages (k + 1)), 4096⟩) ++
        [⟨add64 (sub64 buffer offset) ((n + 2) * 4096), direct (pages (n + 2)),
          add64 size offset % 4096⟩])
    else none

/-- The range lies in one half of the canonical addresses. -/
def Canonical (a n : Nat) : Prop := n = 0 ∨ a + n ≤ 2 ^ 47 ∨ (2 ^ 64 - 2 ^ 47 ≤ a ∧ a + n ≤ 2 ^ 64)

instance (a n : Nat) : Decidable (Canonical a n) := inferInstanceAs (Decidable (_ ∨ _))

/-- The calls of `memcpy` one after the other. -/
def memcpys (m : Mem) (cs : List Copy) : Option Mem :=
  if ∀ c ∈ cs, Canonical c.dst c.len ∧ Canonical c.src c.len then some (runCopies m cs) else none

/-! ## `dfs_read` and `dfs_write` -/

/-- The flags of loaded pages, whether pages that are found get marked dirty, what is
added to the address of the first page, and the direction. -/
structure Mode where
  flags : Nat
  marks : Bool
  start : Nat → Nat
  copy : Piece → Copy

def readMode : Mode := ⟨0, false, fun _ => 0, fun p => ⟨p.buf, p.page, p.len⟩⟩

def writeMode : Mode := ⟨dirtyFlag, true, fun offset => offset, fun p => ⟨p.page, p.buf, p.len⟩⟩

/-- `offset & PAGE_MASK_4KB` -/
def pageStart (offset : Nat) : Nat := offset &&& 0xFFFFFFFFFFFFF000

def pageCount (offset size : Nat) : Nat :=
  sub64 (add64 (sub64 (add64 offset size) (pageStart offset)) 4096) 1 / 4096

/-- The array `pages`: the addresses of the pages that are cached, 0 for the others. -/
def cachedPages (cache : List CachePage) (id first i : Nat) : Nat :=
  match getPageCache cache id (first + i) with
  | some c => c.addr
  | none => 0

/-- Some page of the request is not cached. -/
def miss (cache : List CachePage) (id first count : Nat) : Bool :=
  (List.range count).any fun i => (getPageCache cache id (first + i)).isNone

def Mode.mark (mode : Mode) (id first count : Nat) (cache : List CachePage) : List CachePage :=
  if mode.marks then (List.range count).foldl (fun cache i => markDirty id (first + i) cache) cache
  else cache

/-- The case in which all pages are cached. -/
def Mode.hit (mode : Mode) (inode : Inode) (st : FsState) (buffer offset size : Nat) :
    Option (FsState × Nat) :=
  let count := pageCount offset size
  let first := pageStart offset / 4096
  (pieces count (cachedPages st.cache inode.inodeNum first) buffer offset size
    (mode.start offset)).bind fun ps =>
      (memcpys st.mem (ps.map mode.copy)).map fun m =>
        ({ st with cache := mode.mark inode.inodeNum first count st.cache, mem := m }, size)

/-- The case in which some are not. An early return comes with the state it leaves. -/
def Mode.load (mode : Mode) (inode : Inode) (st : FsState) (offset size : Nat) :
    Except FsState FsState :=
  let count := pageCount offset size
  let first := pageStart offset / 4096
  loadPages inode first mode.flags (cachedPages st.cache inode.inodeNum first) (List.range count)
    { st with cache := mode.mark inode.inodeNum first count st.cache }

/-- The size cut at the end of the file. -/
def cutSize (inode : Inode) (offset size : Nat) : Nat :=
  if inode.size < add64 offset size then sub64 inode.size offset else size

/-- The common code, with the call of the function itself as a parameter. The loops
over the pages count in an `int`. -/
def transferBody (mode : Mode) (again : FsState → Nat → Option (FsState × Nat)) (st : FsState)
    (fp : List UInt8) (buffer offset size : Nat) : Option (FsState × Nat) :=
  if buffer = 0 ∨ size = 0 then some (st, 0)
  else (st.inodes fp).bind fun inode =>
    if inode.size < offset then some (st, 0)
    else if 2 ^ 31 ≤ pageCount offset size then none
    else if miss st.cache inode.inodeNum (pageStart offset / 4096) (pageCount offset size) then
      match mode.load inode st offset size with
      | .error st' => some (st', 0)
      | .ok st' => again st' (cutSize inode offset size)
    else mode.hit inode st buffer offset size

/-- The first argument bounds the depth of the recursion. -/
def transfer (mode : Mode) : Nat → FsState → List UInt8 → Nat → Nat → Nat → Option (FsState × Nat)
  | 0, _, _, _, _, _ => none
  | fuel + 1, st, fp, buffer, offset, size =>
    transferBody mode (fun st' size' => transfer mode fuel st' fp buffer offset size') st fp buffer
      offset size

def dfsRead : Nat → FsState → List UInt8 → Nat → Nat → Nat → Option (FsState × Nat) :=
  transfer readMode

def dfsWrite : Nat → FsState → List UInt8 → Nat → Nat → Nat → Option (FsState × Nat) :=
  transfer writeMode

/-! ## How a call ends -/

variable {mode : Mode} {st st' : FsState} {inode : Inode} {fp : List UInt8}
  {buffer offset size fuel n : Nat}

lemma hit_same (h : mode.hit inode st buffer offset size = some (st', n)) :
    n = size ∧ ∃ m, st' = { st with
      cache := mode.mark inode.inodeNum (pageStart offset / 4096) (pageCount offset size) st.cache
      mem := m } := by
  obtain ⟨ps, -, h⟩ := Option.bind_eq_some_iff.mp h
  obtain ⟨m, -, h⟩ := Option.map_eq_some_iff.mp h
  cases h
  exact ⟨rfl, m, rfl⟩

/-- There is nothing to transfer, or all pages are cached, or some are loaded, with an error or
before the function is called again. -/
lemma transfer_ended
    (hcall : transfer mode (fuel + 1) st fp buffer offset size = some (st', n)) :
    ((st' = st ∧ n = 0) ∧ (buffer = 0 ∨ size = 0 ∨ ∀ i, st.inodes fp = some i → i.size < offset)) ∨
    ∃ inode, st.inodes fp = some inode ∧ ¬ (buffer = 0 ∨ size = 0) ∧ offset ≤ inode.size ∧
      pageCount offset size < 2 ^ 31 ∧
      ((miss st.cache inode.inodeNum (pageStart offset / 4096) (pageCount offset size) = false ∧
          mode.hit inode st buffer offset size = some (st', n)) ∨
        (miss st.cache inode.inodeNum (pageStart offset / 4096) (pageCount offset size) = true ∧
          ((n = 0 ∧ mode.load inode st offset size = .error st') ∨
            ∃ st1, mode.load inode st offset size = .ok st1 ∧ transfer mode fuel st1 fp buffer
              offset (cutSize inode offset size) = some (st', n)))) := by
  rw [transfer] at hcall
  unfold transferBody at hcall
  by_cases hargs : buffer = 0 ∨ size = 0
  · rw [if_pos hargs] at hcall
    cases hcall
    exact .inl ⟨⟨rfl, rfl⟩, hargs.imp_right Or.inl⟩
  rw [if_neg hargs] at hcall
  obtain ⟨inode, hinode, hcall⟩ := Option.bind_eq_some_iff.mp hcall
  split_ifs at hcall with hbehind hint hmiss
  · cases hcall
    refine .inl ⟨⟨rfl, rfl⟩, .inr (.inr fun i hi => ?_)⟩
    cases hinode.symm.trans hi
    exact hbehind
  · refine .inr ⟨inode, hinode, hargs, not_lt.mp hbehind, not_le.mp hint, .inr ⟨hmiss, ?_⟩⟩
    cases hload : mode.load inode st offset size with
    | error st1 =>
      rw [hload] at hcall
      cases hcall
      exact .inl ⟨rfl, rfl⟩
    | ok st1 =>
      rw [hload] at hcall
      exact .inr ⟨st1, rfl, hcall⟩
  · exact .inr ⟨inode, hinode, hargs, not_lt.mp hbehind, not_le.mp hint,
      .inl ⟨Bool.eq_false_of_not_eq_true hmiss, hcall⟩⟩

end DestinX.Fs
