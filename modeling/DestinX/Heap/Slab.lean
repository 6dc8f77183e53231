import DestinX.Heap.Buddy

/-!
# Slab caches, `kmalloc` and `kfree`

A slab is one page that `buddy_alloc(0)` handed out. Its first 40 bytes hold the
`slab_t` header and the rest is cut into objects of the cache's size:

* `free_list` at offset 0, the first free object;
* `free_count` and `total_count`, 32 bits each, at offsets 8 and 12;
* `parent_cache` at offset 16, here the index of the cache in `kernel_caches`;
* `prev` and `next` at offsets 24 and 32.

A free object holds the address of the next free object in its first word.
The list heads `slabs_partial` and `slabs_full` are fields of the caches.
-/

namespace DestinX

open Base

def numCaches : Nat := 8

/-- `sizeof(slab_t)`. -/
def slabHeader : Nat := 40

/-- The table `sizes` of `init_slab`. -/
def cacheSizes : List Nat := [16, 32, 64, 128, 256, 512, 1024, 2048]

/-- `init_slab`. -/
def initSlab (s : Heap) : Heap :=
  { s with
    caches := fun i => if i < numCaches then ⟨cacheSizes.getD i 0, 0, 0⟩ else s.caches i }

/-- `init_kheap`. -/
def initKheap (s : Heap) : Heap := initSlab (initBuddy s)

/-- `slab_list_remove`: the memory afterwards and the new head. The source
clears `prev` twice and leaves `next` as it is. -/
def slabListRemove (m : Mem) (head slab : Nat) : Mem × Nat :=
  let next := load64 m (slab + 32)
  let m₁ := if next = 0 then m else store64 m (next + 24) (load64 m (slab + 24))
  let prev := load64 m₁ (slab + 24)
  let m₂ := if prev = 0 then m₁ else store64 m₁ (prev + 32) (load64 m₁ (slab + 32))
  (store64 m₂ (slab + 24) 0, if prev = 0 then load64 m₁ (slab + 32) else head)

/-- `slab_list_add`: the memory afterwards; the new head is the slab. -/
def slabListAdd (m : Mem) (head slab : Nat) : Mem :=
  let m₁ := store64 (store64 m (slab + 32) head) (slab + 24) 0
  if head = 0 then m₁ else store64 m₁ (head + 24) slab

def Heap.setCache (s : Heap) (c : Nat) (k : KmemCache) : Heap :=
  { s with caches := Function.update s.caches c k }

/-- The loop of `slab_create` from the object at `curr` on. `none` stands for a
loop that does not come to its end, which is what an object size of zero gives. -/
def slabCarve (objSize slab : Nat) : Nat → Mem → Nat → Option Mem
  | 0, _, _ => none
  | fuel + 1, m, curr =>
    if curr + objSize ≤ slab + pageSize then
      let next := curr + objSize
      let m₁ := store64 m curr (if next + objSize ≤ slab + pageSize then next else 0)
      let m₂ := store32 m₁ (slab + 8) ((load32 m₁ (slab + 8) + 1) % 2 ^ 32)
      slabCarve objSize slab fuel m₂ next
    else some m

/-- `slab_create`. -/
def slabCreate (env : List Growth) (s : Heap) (c : Nat) : Option (Heap × Nat) :=
  (buddyAlloc env s 0).bind fun r =>
    let page := r.2
    let md := r.1.metadata (pageIndex page)
    let s₁ := r.1.setMetadata (pageIndex page) { md with isSlab := true }
    let firstObj := (page + slabHeader + 7) / 8 * 8
    let m₁ := store64 s₁.mem (page + 16) c
    let m₂ := store32 (store64 m₁ page firstObj) (page + 8) 0
    (slabCarve (s₁.caches c).objSize page (pageSize + 1) m₂ firstObj).map fun m₃ =>
      ({ s₁ with mem := store32 m₃ (page + 12) (load32 m₃ (page + 8)) }, page)

/-- The first part of `slab_alloc`: a cache without a partial slab gets a new
one. -/
def slabRefill (env : List Growth) (s : Heap) (c : Nat) : Option Heap :=
  if (s.caches c).slabsPartial = 0 then
    (slabCreate env s c).map fun r =>
      let m := slabListAdd r.1.mem (r.1.caches c).slabsPartial r.2
      { r.1 with mem := m }.setCache c { r.1.caches c with slabsPartial := r.2 }
  else some s

/-- The second part of `slab_alloc`: take the first free object of the first
partial slab, and move the slab when this was its last one. -/
def slabTake (s : Heap) (c : Nat) : Heap × Nat :=
  let cache := s.caches c
  let slab := cache.slabsPartial
  let obj := load64 s.mem slab
  let m₁ := store64 s.mem slab (load64 s.mem obj)
  let m₂ := store32 m₁ (slab + 8) ((load32 m₁ (slab + 8) + (2 ^ 32 - 1)) % 2 ^ 32)
  if load32 m₂ (slab + 8) = 0 then
    let r := slabListRemove m₂ cache.slabsPartial slab
    let m₃ := slabListAdd r.1 cache.slabsFull slab
    ({ s with mem := m₃ }.setCache c { cache with slabsPartial := r.2, slabsFull := slab }, obj)
  else ({ s with mem := m₂ }, obj)

/-- `slab_alloc` of the cache `kernel_caches[c]`. -/
def slabAlloc (env : List Growth) (s : Heap) (c : Nat) : Option (Heap × Nat) :=
  (slabRefill env s c).map fun s' => slabTake s' c

/-- The first part of `slab_free`: a full slab goes back to the partial ones. -/
def slabReopen (s : Heap) (slab c : Nat) : Heap :=
  if load32 s.mem (slab + 8) = 0 then
    let cache := s.caches c
    let r := slabListRemove s.mem cache.slabsFull slab
    let m := slabListAdd r.1 cache.slabsPartial slab
    { s with mem := m }.setCache c { cache with slabsFull := r.2, slabsPartial := slab }
  else s

/-- The middle of `slab_free`: the object becomes the first free one. -/
def slabPush (s : Heap) (slab ptr : Nat) : Heap :=
  let m₁ := store64 s.mem ptr (load64 s.mem slab)
  let m₂ := store64 m₁ slab ptr
  { s with mem := store32 m₂ (slab + 8) ((load32 m₂ (slab + 8) + 1) % 2 ^ 32) }

/-- The end of `slab_free`: a slab without live objects returns its page. -/
def slabRetire (s : Heap) (slab c ptr : Nat) : Heap :=
  if load32 s.mem (slab + 8) = load32 s.mem (slab + 12) then
    let cache := s.caches c
    let r := slabListRemove s.mem cache.slabsPartial slab
    let s₁ := { s with mem := r.1 }.setCache c { cache with slabsPartial := r.2 }
    let md := s₁.metadata (pageIndex ptr)
    buddyFree (s₁.setMetadata (pageIndex ptr) { md with isSlab := false }) slab
  else s

/-- `slab_free`. -/
def slabFree (s : Heap) (ptr : Nat) : Heap :=
  if ptr = 0 then s
  else
    let slab := ptr / pageSize * pageSize
    let c := load64 s.mem (slab + 16)
    slabRetire (slabPush (slabReopen s slab c) slab ptr) slab c ptr

/-- The loop of `kmalloc` that finds the order: `block` is doubled in 64 bits
until it reaches `size`. For sizes above `2 ^ 63` it becomes zero and the loop
does not end. -/
def orderLoop (size : Nat) : Nat → Nat → Nat → Option Nat
  | 0, _, _ => none
  | fuel + 1, block, order =>
    if block < size then orderLoop size fuel (block * 2 % 2 ^ 64) (order + 1) else some order

/-- `kmalloc`, without its lock: the kernel takes it around the whole body. -/
def kmalloc (env : List Growth) (s : Heap) (size : Nat) : Option (Heap × Nat) :=
  if size = 0 then some (s, 0)
  else if 2048 < size then (orderLoop size 64 pageSize 0).bind fun order => buddyAlloc env s order
  else
    match (List.range numCaches).find? fun i => size ≤ (s.caches i).objSize with
    | some c => slabAlloc env s c
    | none => some (s, 0)

/-- `kfree`: the metadata of the page decides which allocator gets the pointer. -/
def kfree (s : Heap) (ptr : Nat) : Heap :=
  if ptr = 0 then s
  else if (s.metadata (pageIndex ptr)).isSlab then slabFree s ptr
  else buddyFree s ptr

end DestinX
