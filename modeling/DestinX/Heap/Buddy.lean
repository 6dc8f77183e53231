import DestinX.Base.Memory

/-!
# The buddy allocator

The state holds the raw bytes of the kernel's address space and the globals of `mm/buddy.c` and
`mm/slab.c`. Free blocks carry their links in their own first bytes (`free_block_t`: `prev` at
offset 0, `next` at offset 8). Physical pages that the heap obtains later are supplied by the
environment, one `Growth` each time; their contents are arbitrary.
-/

namespace DestinX

open Base Function

def pageSize : Nat := 0x1000
def heapStart : Nat := 0xFFFFE00000000000
def heapSize : Nat := 0x1000000
def maxOrders : Nat := 12
def startPages : Nat := 4096

/-- `page_metadata_t`: a four-bit order and two flags in one byte. -/
structure PageMetadata where
  order : Nat
  (isFree isSlab : Bool)
  deriving DecidableEq, Repr

/-- `kmem_cache_t`. -/
structure KmemCache where
  (objSize slabsPartial slabsFull : Nat)
  deriving DecidableEq, Repr

/-- The bytes of memory and the globals of the heap. -/
structure Heap where
  mem : Mem
  freeAreas : Nat → Nat
  metadata : Nat → PageMetadata
  (metadataSize currentHeapEnd : Nat)
  caches : Nat → KmemCache

/-- What one growth of the heap finds in the pages it maps: the bytes of the
heap pages and the entries of the metadata pages. -/
structure Growth where
  bytes : Mem
  entries : Nat → PageMetadata

/-- `(addr - HEAP_START) / PAGE_SIZE_4KB`, computed in 64 bits and truncated to
the 32 bits of an `int`. -/
def pageIndex (addr : Nat) : Nat :=
  (addr + 2 ^ 64 - heapStart) % 2 ^ 64 / pageSize % 2 ^ 32

def pageAddr (p : Nat) : Nat := heapStart + pageSize * p

def Heap.setMetadata (s : Heap) (index : Nat) (md : PageMetadata) : Heap :=
  { s with metadata := update s.metadata index md }

/-- `buddy_list_remove`. The links of the block are read again after the first
store, as the source does. -/
def buddyListRemove (s : Heap) (addr order : Nat) : Heap :=
  let prev := load64 s.mem addr
  let m := if prev = 0 then s.mem else store64 s.mem (prev + 8) (load64 s.mem (addr + 8))
  let areas :=
    if prev = 0 then update s.freeAreas order (load64 s.mem (addr + 8))
    else s.freeAreas
  let next := load64 m (addr + 8)
  let m' := if next = 0 then m else store64 m next (load64 m addr)
  let s' : Heap := { s with mem := m', freeAreas := areas }
  s'.setMetadata (pageIndex addr) { s.metadata (pageIndex addr) with isFree := false }

/-- `buddy_list_add`. -/
def buddyListAdd (s : Heap) (addr order : Nat) : Heap :=
  let head := s.freeAreas order
  let m := store64 (store64 s.mem addr 0) (addr + 8) head
  let m' := if head = 0 then m else store64 m head addr
  let s' : Heap := { s with mem := m', freeAreas := update s.freeAreas order addr }
  s'.setMetadata (pageIndex addr) ⟨order % 16, true, false⟩

/-- The inner loop of `buddy_alloc`: halve the block down from order `i`, giving
the upper half of each step back. -/
def buddySplit (s : Heap) (addr order : Nat) : Nat → Heap
  | 0 => s
  | i + 1 =>
    if order < i + 1 then
      buddySplit (buddyListAdd s (addr ^^^ (2 ^ i * pageSize)) i) addr order i
    else s

/-- The body of the search loop once `free_areas[i]` is not empty. -/
def buddyTake (s : Heap) (order i : Nat) : Heap × Nat :=
  let addr := s.freeAreas i
  let s' := buddySplit (buddyListRemove s addr i) addr order i
  (s'.setMetadata (pageIndex addr) ⟨order % 16, false, false⟩, addr)

/-- The search loop of `buddy_alloc` over `free_areas[order .. MAX_ORDERS]`. -/
def buddyServe (s : Heap) (order : Nat) : Option (Heap × Nat) :=
  ((List.range' order (maxOrders + 1 - order)).find? fun i => s.freeAreas i ≠ 0).map
    fun i => buddyTake s order i

/-- `sizeof(page_metadata_t)` is one byte, so one page holds `START_PAGES`
entries. -/
def metadataPages : Nat := (startPages * 1 + pageSize - 1) / pageSize

/-- The growth path of `buddy_alloc` up to its recursive call. -/
def buddyGrow (s : Heap) (g : Growth) : Heap :=
  let entries := fun i =>
    if s.metadataSize ≤ i ∧ i < s.metadataSize + metadataPages * pageSize then g.entries i
    else s.metadata i
  let bytes := fun x =>
    if s.currentHeapEnd ≤ x ∧ x < s.currentHeapEnd + startPages * pageSize then g.bytes x
    else s.mem x
  let metadata := (List.range startPages).foldl (fun md i => update md
      ((s.currentHeapEnd + i * pageSize + 2 ^ 64 - heapStart) % 2 ^ 64 / pageSize)
      ⟨maxOrders, false, false⟩) entries
  let s' : Heap :=
    { s with
      mem := bytes
      metadata := metadata
      metadataSize := s.metadataSize + metadataPages * pageSize }
  let s'' := buddyListAdd s' s.currentHeapEnd maxOrders
  { s'' with currentHeapEnd := s.currentHeapEnd + startPages }

/-- `buddy_alloc`. Every growth consumes one element of the environment; `none`
means that the environment had no more memory to give. -/
def buddyAlloc : List Growth → Heap → Nat → Option (Heap × Nat)
  | [], s, order => buddyServe s order
  | g :: env, s, order =>
    match buddyServe s order with
    | some r => some r
    | none => buddyAlloc env (buddyGrow s g) order

/-- The merge loop of `buddy_free`, entered with `n = MAX_ORDERS - i`
iterations left. -/
def buddyCoalesce (s : Heap) (addr i : Nat) : Nat → Heap × Nat × Nat
  | 0 => (s, addr, i)
  | n + 1 =>
    let buddy := addr ^^^ (2 ^ i * pageSize)
    let md := s.metadata (pageIndex buddy)
    if md.isFree ∧ md.order = i then
      buddyCoalesce (buddyListRemove s buddy i) (if buddy < addr then buddy else addr) (i + 1) n
    else (s, addr, i)

/-- `buddy_free`. -/
def buddyFree (s : Heap) (addr : Nat) : Heap :=
  let i := (s.metadata (pageIndex addr)).order
  let r := buddyCoalesce s addr i (maxOrders - i)
  buddyListAdd r.1 r.2.1 r.2.2

/-- `init_buddy`, from whatever the globals and the mapped pages held before. -/
def initBuddy (s : Heap) : Heap :=
  buddyListAdd { s with
      currentHeapEnd := heapStart + startPages * pageSize
      metadataSize := startPages
      freeAreas := fun i => if i ≤ maxOrders then 0 else s.freeAreas i
      metadata := fun i => if i < startPages then ⟨0, false, false⟩ else s.metadata i }
    heapStart maxOrders

end DestinX
