import DestinX.Heap.HeapSafety

/-!
# When `kmalloc` comes back

`buddy_alloc` grows the heap by a block of the largest order until it can serve the request. An
order above `MAX_ORDERS` is never served, and the doubling loop that computes the order does not
end for sizes above half of the address space. The growth does not look at what
`pmm_alloc_pages` returns, so after a failure it maps frames from the address 0 on.
-/

namespace DestinX

open Base Function List Nat

/-! ## The answers of `pmm_alloc_pages` -/

/-- One growth of the heap: the results of the two calls of `pmm_alloc_pages`, for the metadata and
for the heap, and what the mapped pages hold. -/
structure Supply where
  (metadataFrames heapFrames : Nat)
  growth : Growth

/-- Both calls were successful. -/
def Supply.Succeeds (g : Supply) : Prop := g.metadataFrames ≠ 0 ∧ g.heapFrames ≠ 0

def frameRange (base count : Nat) : List Nat := (List.range count).map fun i => base + i * pageSize

/-- The frames that the two loops of the growth map. -/
def Supply.mapped (g : Supply) : List Nat :=
  frameRange g.metadataFrames metadataPages ++ frameRange g.heapFrames startPages

/-- The frames that a call of `pmm_alloc_pages` with this result has given. -/
def obtainedFrom (base count : Nat) : List Nat := if base = 0 then [] else frameRange base count

def Supply.obtained (g : Supply) : List Nat :=
  obtainedFrom g.metadataFrames metadataPages ++ obtainedFrom g.heapFrames startPages

/-- The first `n` growths. -/
def growthsOf (env : Nat → Supply) (n : Nat) : List Growth :=
  (List.range n).map fun i => (env i).growth

/-! ## What should hold -/

/-- The order that `kmalloc` asks `buddy_alloc` for. -/
def requested (s : Heap) (size : Nat) : Option Nat :=
  if size = 0 then none
  else if 2048 < size then orderLoop size 64 pageSize 0
  else
    ((List.range numCaches).find? fun i => size ≤ (s.caches i).objSize).bind fun c =>
      if (s.caches c).slabsPartial = 0 then some 0 else none

/-- There is no free block for the request. -/
def NeedsGrowth (s : Heap) (size : Nat) : Prop :=
  ∃ order, requested s size = some order ∧ buddyServe s order = none

/-- How often the call grows the heap, if it can do so `n` times. -/
def growthsDone (env : Nat → Supply) (s : Heap) (size n : Nat) : Nat :=
  ((requested s size).map fun order => (buddyGrowths (growthsOf env n) s order).length).getD 0

/-- All frames that the call maps have been obtained for it. -/
def MapsObtained (env : Nat → Supply) (s : Heap) (size n : Nat) : Prop :=
  ∀ i < growthsDone env s size n, ∀ f ∈ (env i).mapped,
    ∃ j < growthsDone env s size n, f ∈ (env j).obtained

/-- The size is too large for every block, or there is no memory to grow by. -/
def Refused (env : Nat → Supply) (s : Heap) (size : Nat) : Prop :=
  heapSize < size ∨ NeedsGrowth s size ∧ ¬ (env 0).Succeeds

/-- The bytes lie in the heap, or in the pages by which it has grown, and meet no allocation. -/
structure NewBlock (s : Heap) (v : KheapView) (a size : Nat) : Prop where
  inside : heapStart ≤ a ∧ a + size ≤ heapStart + heapSize ∨
    NeedsGrowth s size ∧ heapStart + heapSize ≤ a ∧ a + size ≤ heapStart + 2 * heapSize
  apart : ∀ c : Cell, c.Held s v → Apart a size (c.addr s) (c.size s)

/-- The call returns: `NULL` with the heap intact when it is refused, and else a block, unless no
bytes were asked for. -/
def ComesBack (env : Nat → Supply) (s : Heap) (v : KheapView) (size : Nat) : Prop :=
  ∃ n s' a, kmalloc (growthsOf env n) s size = some (s', a) ∧ MapsObtained env s size n ∧
    (Refused env s size → a = 0 ∧ ∃ v', KheapInv s' v') ∧
    (¬ Refused env s size → size = 0 ∨ NewBlock s v a size)

variable {env : Nat → Supply} {gs : List Growth} {g : Growth} {s s1 s' : Heap} {v : KheapView}
  {size order a n c p k : Nat}

/-! ## Sizes -/

/-- The block that doubles is a power of two, until it is 0. -/
lemma orderLoop_endless (hsize : 2 ^ 63 < size) :
    ∀ fuel block order, (block = 0 ∨ ∃ j ≤ 63, block = 2 ^ j) →
      orderLoop size fuel block order = none := by
  intro fuel
  induction fuel with
  | zero => exact fun _ _ _ => rfl
  | succ fuel ih =>
    intro block order hblock
    have hlt : block < size := by
      rcases hblock with rfl | ⟨j, hj, rfl⟩
      · omega
      · exact lt_of_le_of_lt (Nat.pow_le_pow_right (by norm_num) hj) hsize
    rw [orderLoop, if_pos hlt]
    apply ih
    rcases hblock with rfl | ⟨j, hj, rfl⟩
    · exact .inl rfl
    · rw [← pow_succ]
      rcases lt_or_eq_of_le hj with hj | rfl
      · refine .inr ⟨j + 1, hj, mod_eq_of_lt ?_⟩
        exact Nat.pow_lt_pow_right (by norm_num) (by omega)
      · exact .inl (mod_self _)

lemma orderLoop_returns :
    ∀ m fuel block order, block * 2 ^ m < 2 ^ 64 → size ≤ block * 2 ^ m → m < fuel →
      ∃ k ≤ order + m, orderLoop size fuel block order = some k := by
  intro m
  induction m with
  | zero =>
    intro fuel block order _ hle hfuel
    obtain ⟨fuel, rfl⟩ := exists_eq_succ_of_ne_zero (ne_of_gt hfuel)
    rw [pow_zero, mul_one] at hle
    exact ⟨order, le_rfl, if_neg (not_lt.mpr hle)⟩
  | succ m ih =>
    intro fuel block order hword hle hfuel
    obtain ⟨fuel, rfl⟩ := exists_eq_succ_of_ne_zero (ne_of_gt (zero_lt_of_lt hfuel))
    by_cases hlt : block < size
    · have hdouble : block * 2 * 2 ^ m = block * 2 ^ (m + 1) := by rw [mul_assoc, ← pow_succ']
      have hle2 : block * 2 ≤ block * 2 ^ (m + 1) :=
        hdouble ▸ Nat.le_mul_of_pos_right _ (Nat.pow_pos (by norm_num))
      have hmod : block * 2 % 2 ^ 64 = block * 2 := mod_eq_of_lt (lt_of_le_of_lt hle2 hword)
      obtain ⟨k, hk, hrun⟩ := ih fuel (block * 2) (order + 1) (hdouble ▸ hword) (hdouble ▸ hle)
        (by omega)
      refine ⟨k, by omega, ?_⟩
      rw [orderLoop, if_pos hlt, hmod]
      exact hrun
    · exact ⟨order, le_add_right _ _, if_neg hlt⟩

/-- Sizes up to that of the largest block give an order that there is. -/
lemma orderLoop_of_le (hsize : size ≤ heapSize) :
    ∃ k ≤ maxOrders, orderLoop size 64 pageSize 0 = some k := by
  obtain ⟨k, hk, hrun⟩ := @orderLoop_returns size 12 64 pageSize 0 (by decide) hsize (by decide)
  exact ⟨k, le_trans hk (by decide), hrun⟩

lemma lt_of_orderLoop (hsize : heapSize < size) (h : orderLoop size 64 pageSize 0 = some k) :
    maxOrders < k := by
  by_contra hle
  have hle1 := (orderLoop_le 64 pageSize 0 (by decide) h).2
  have hpow : 2 ^ (k - 0) ≤ 2 ^ 12 := Nat.pow_le_pow_right (by norm_num) (not_lt.mp hle)
  have hmul : pageSize * 2 ^ (k - 0) ≤ heapSize := mul_le_mul_left pageSize hpow
  omega

/-! ## Calls that do not return -/

/-- No number of growths is enough for an order that there is not. -/
lemma buddyAlloc_endless (horder : maxOrders < order) (gs : List Growth) (s : Heap) :
    buddyAlloc gs s order = none := by
  have hserve : ∀ s : Heap, buddyServe s order = none := by
    intro s
    apply buddyServe_eq_none_iff.mpr
    intro i hi hi'
    omega
  induction gs generalizing s with
  | nil => exact hserve s
  | cons g gs ih =>
    rw [buddyAlloc, hserve s]
    exact ih (buddyGrow s g)

lemma kmalloc_endless (hsize : heapSize < size) (gs : List Growth) (s : Heap) :
    kmalloc gs s size = none := by
  have hbig : 2048 < size := lt_trans (by decide) hsize
  rw [kmalloc, if_neg (ne_of_gt (zero_lt_of_lt hbig)), if_pos hbig]
  cases horder : orderLoop size 64 pageSize 0 with
  | none => rfl
  | some k => exact buddyAlloc_endless (lt_of_orderLoop hsize horder) gs s

/-! ## Growing once -/

@[simp] lemma buddyListAdd_caches (s : Heap) (addr order : Nat) :
    (buddyListAdd s addr order).caches = s.caches := rfl

lemma buddySplit_caches (addr order : Nat) :
    ∀ i s, (buddySplit s addr order i).caches = s.caches := by
  intro i
  induction i with
  | zero => exact fun _ => rfl
  | succ i ih =>
    intro s
    rw [buddySplit]
    split_ifs
    · rw [ih, buddyListAdd_caches]
    · rfl

lemma buddyTake_caches (s : Heap) (order i : Nat) : (buddyTake s order i).1.caches = s.caches :=
  buddySplit_caches (s.freeAreas i) order i (buddyListRemove s (s.freeAreas i) i)

lemma buddyGrow_freeAreas (s : Heap) (g : Growth) :
    (buddyGrow s g).freeAreas = update s.freeAreas maxOrders s.currentHeapEnd := by
  unfold buddyGrow
  rfl

lemma buddyGrow_caches (s : Heap) (g : Growth) : (buddyGrow s g).caches = s.caches := by
  unfold buddyGrow
  rfl

lemma buddyServe_grown (hnone : buddyServe s order = none) (horder : order ≤ maxOrders)
    (hend : s.currentHeapEnd ≠ 0) :
    ∃ s', buddyServe (buddyGrow s g) order = some (s', s.currentHeapEnd) ∧
      s'.caches = s.caches := by
  have hempty := buddyServe_eq_none_iff.mp hnone
  have hareas := buddyGrow_freeAreas s g
  have hfind : ((range' order (maxOrders + 1 - order)).find? fun i =>
      (buddyGrow s g).freeAreas i ≠ 0) = some maxOrders := by
    rw [find?_eq_some_iff_append]
    refine ⟨by simp [hareas, hend], range' order (maxOrders - order), [], ?_, ?_⟩
    · rw [succ_sub horder, range'_concat]
      simp [Nat.add_sub_cancel' horder]
    · intro i hi
      rw [mem_range'_1] at hi
      have hlt : i ≠ maxOrders := by omega
      simp [hareas, update_of_ne hlt, hempty i hi.1 (by omega)]
  refine ⟨(buddyTake (buddyGrow s g) order maxOrders).1, ?_, ?_⟩
  · rw [buddyServe, hfind, Option.map_some]
    have haddr : (buddyTake (buddyGrow s g) order maxOrders).2 = s.currentHeapEnd := by
      change (buddyGrow s g).freeAreas maxOrders = _
      rw [hareas, update_self]
    rw [← haddr]
  · rw [buddyTake_caches, buddyGrow_caches]

lemma buddyAlloc_grown (hnone : buddyServe s order = none) (horder : order ≤ maxOrders)
    (hend : s.currentHeapEnd ≠ 0) :
    ∃ s', buddyAlloc [g] s order = some (s', s.currentHeapEnd) ∧ s'.caches = s.caches := by
  rw [buddyAlloc, hnone]
  exact buddyServe_grown hnone horder hend

/-! ## A new slab -/

section

variable (halloc : buddyAlloc gs s 0 = some (s1, pageAddr p)) (hcaches : s1.caches = s.caches)
  (hp32 : p < 2 ^ 32) (hc : c < numCaches) (hz : 8 ≤ (s.caches c).objSize)
  (hz' : (s.caches c).objSize + slabHeader ≤ pageSize)
include halloc hcaches hp32 hc hz hz'

lemma slabCreate_returns : ∃ s', slabCreate gs s c = some (s', pageAddr p) ∧ s'.caches = s.caches ∧
      SlabPage s'.mem (s.caches c).objSize c p (List.range (slots (s.caches c).objSize)) := by
  have hc64 : c < 2 ^ 64 := by
    simp only [numCaches] at hc
    omega
  obtain ⟨m, hcarve, hpage, -⟩ := slabCarve_page hz hz' hp32 hc64 s1.mem
  rw [← hcaches] at hcarve
  simp only [slabCreate, halloc, Option.bind_some, first_obj]
  refine ⟨_, Option.map_eq_some_iff.mpr ⟨m, hcarve, rfl⟩, ?_, hpage⟩
  exact hcaches

/-- A cache without a partial slab hands out the first slot of a new one. -/
lemma slabAlloc_new (hnoSlab : (s.caches c).slabsPartial = 0) :
    ∃ s', slabAlloc gs s c = some (s', objAddr (s.caches c).objSize p 0) := by
  obtain ⟨s2, hcreate, hcaches2, hpage⟩ := slabCreate_returns halloc hcaches hp32 hc hz hz'
  have hslots : 0 < slots (s.caches c).objSize := div_pos (by omega) (by omega)
  have hrange : range (slots (s.caches c).objSize) =
      0 :: (range (slots (s.caches c).objSize)).tail := by
    obtain ⟨n, hn⟩ := exists_eq_succ_of_ne_zero hslots.ne'
    rw [hn, range_succ_eq_map]
    rfl
  have hrefill : slabRefill gs s c = some (linkSlab s2 false c (pageAddr p)) := by
    rw [slabRefill, if_pos hnoSlab, hcreate]
    rfl
  have hfirst : load64 (linkSlab s2 false c (pageAddr p)).mem (pageAddr p) =
      objAddr (s.caches c).objSize p 0 := by
    rw [hrange] at hpage
    rw [← hpage.first]
    have hhead : (s2.caches c).head false = 0 := by
      rw [hcaches2]
      exact hnoSlab
    change load64 (slabListAdd s2.mem ((s2.caches c).head false) (pageAddr p)) (pageAddr p) = _
    rw [hhead, slabListAdd, if_pos rfl, load64_store64_apart (by simp only [Apart]; omega),
      load64_store64_apart (by simp only [Apart]; omega)]
  have hslab : ((linkSlab s2 false c (pageAddr p)).caches c).slabsPartial = pageAddr p := by
    simp [linkSlab, Heap.setCache, KmemCache.setHead]
  refine ⟨(slabTake (linkSlab s2 false c (pageAddr p)) c).1, ?_⟩
  rw [slabAlloc, hrefill, Option.map_some, ← hfirst]
  congr 2
  rw [slabTake_eq hslab]

end

/-! ## Requests -/

lemma requested_big (hbig : 2048 < size) : requested s size = orderLoop size 64 pageSize 0 := by
  rw [requested, if_neg (ne_of_gt (zero_lt_of_lt hbig)), if_pos hbig]

lemma kmalloc_big (hbig : 2048 < size) (horder : orderLoop size 64 pageSize 0 = some order) :
    kmalloc gs s size = buddyAlloc gs s order := by
  rw [kmalloc, if_neg (ne_of_gt (zero_lt_of_lt hbig)), if_pos hbig, horder,
    Option.bind_some]

lemma NeedsGrowth.size_ne_zero (h : NeedsGrowth s size) : size ≠ 0 := by
  rintro rfl
  obtain ⟨order, hreq, -⟩ := h
  cases hreq

section

variable (hsize : size ≠ 0) (hsmall : size ≤ 2048)
  (hc : ((List.range numCaches).find? fun i => size ≤ (s.caches i).objSize) = some c)
include hsize hsmall hc

/-- The request of a small size for a page, if the cache has no partial slab. -/
lemma requested_small : requested s size =
    if (s.caches c).slabsPartial = 0 then some 0 else none := by
  rw [requested, if_neg hsize, if_neg (not_lt.mpr hsmall), hc, Option.bind_some]

lemma kmalloc_small : kmalloc gs s size = slabAlloc gs s c := by
  rw [kmalloc, if_neg hsize, if_neg (not_lt.mpr hsmall), hc]

/-- A small size needs a growth when its cache is without a partial slab and no page is free. -/
lemma NeedsGrowth.small_iff :
    NeedsGrowth s size ↔ (s.caches c).slabsPartial = 0 ∧ buddyServe s 0 = none := by
  rw [NeedsGrowth, requested_small hsize hsmall hc]
  constructor
  · rintro ⟨order, hreq, hserve⟩
    split_ifs at hreq with hnoSlab
    cases hreq
    exact ⟨hnoSlab, hserve⟩
  · rintro ⟨hnoSlab, hserve⟩
    exact ⟨0, if_pos hnoSlab, hserve⟩

end

lemma NeedsGrowth.big_iff (hbig : 2048 < size)
    (horder : orderLoop size 64 pageSize 0 = some order) :
    NeedsGrowth s size ↔ buddyServe s order = none := by
  rw [NeedsGrowth, requested_big hbig, horder]
  constructor
  · rintro ⟨_, hreq, hserve⟩
    cases hreq
    exact hserve
  · intro hserve
    exact ⟨order, rfl, hserve⟩

/-! ## Growths of a call -/

lemma growthsOf_succ (env : Nat → Supply) (n : Nat) :
    growthsOf env (n + 1) = (env 0).growth :: growthsOf (fun i => env (i + 1)) n := by
  rw [growthsOf, range_succ_eq_map, map_cons, map_map]
  rfl

lemma growthsDone_zero (env : Nat → Supply) (s : Heap) (size : Nat) :
    growthsDone env s size 0 = 0 := by
  rw [growthsDone]
  cases requested s size <;> rfl

lemma NeedsGrowth.growthsDone_pos (h : NeedsGrowth s size) (n : Nat) :
    0 < growthsDone env s size (n + 1) := by
  obtain ⟨order, hreq, hserve⟩ := h
  rw [growthsDone, hreq, Option.map_some, growthsOf_succ, buddyGrowths, hserve]
  exact succ_pos _

lemma NeedsGrowth.growthsDone_one (h : NeedsGrowth s size) : growthsDone env s size 1 = 1 := by
  obtain ⟨order, hreq, hserve⟩ := h
  rw [growthsDone, hreq, Option.map_some, growthsOf_succ, buddyGrowths, hserve]
  rfl

lemma zero_notMem_obtained (g : Supply) : 0 ∉ g.obtained := by
  have hone : ∀ base count, 0 ∉ obtainedFrom base count := by
    intro base count hmem
    rw [obtainedFrom] at hmem
    split_ifs at hmem with hbase
    · cases hmem
    · obtain ⟨i, -, hi⟩ := mem_map.mp hmem
      omega
  rw [Supply.obtained, mem_append]
  exact not_or.mpr ⟨hone _ _, hone _ _⟩

/-- It is mapped when a call of `pmm_alloc_pages` has failed. -/
lemma Supply.zero_mem_mapped {g : Supply} (h : ¬ g.Succeeds) : 0 ∈ g.mapped := by
  rw [Supply.Succeeds, not_and_or, not_not, not_not] at h
  rw [Supply.mapped, mem_append]
  rcases h with hzero | hzero
  · exact .inl (mem_map.mpr ⟨0, by decide, by rw [hzero, Nat.zero_mul]⟩)
  · exact .inr (mem_map.mpr ⟨0, by simp [startPages], by rw [hzero, Nat.zero_mul]⟩)

lemma Supply.Succeeds.mapped_eq {g : Supply} (h : g.Succeeds) : g.mapped = g.obtained := by
  rw [Supply.mapped, Supply.obtained, obtainedFrom, obtainedFrom, if_neg h.1, if_neg h.2]

/-! ## Calls that return -/

lemma NeedsGrowth.kmalloc_none (hs : StandardSizes s) (h : NeedsGrowth s size) :
    kmalloc [] s size = none := by
  by_cases hbig : 2048 < size
  · obtain ⟨order, hreq, hserve⟩ := h
    rw [requested_big hbig] at hreq
    rw [kmalloc_big hbig hreq]
    exact hserve
  · obtain ⟨c, -, hfind, -⟩ := pick_cache hs (not_lt.mp hbig)
    obtain ⟨hnoSlab, hserve⟩ :=
      (NeedsGrowth.small_iff h.size_ne_zero (not_lt.mp hbig) hfind).mp h
    rw [kmalloc_small h.size_ne_zero (not_lt.mp hbig) hfind, slabAlloc, slabRefill,
      if_pos hnoSlab, slabCreate, buddyAlloc, hserve]
    rfl

lemma NeedsGrowth.kmalloc_grown (h : KheapInv s v) (hs : StandardSizes s)
    (hend : s.currentHeapEnd = heapStart + heapSize) (hsize : size ≤ heapSize)
    (hneeds : NeedsGrowth s size) (g : Growth) :
    ∃ s' a, kmalloc [g] s size = some (s', a) ∧ heapStart + heapSize ≤ a ∧
      a + size ≤ heapStart + 2 * heapSize := by
  have hend0 : s.currentHeapEnd ≠ 0 := by
    rw [hend]
    decide
  by_cases hbig : 2048 < size
  · obtain ⟨order, horder, hloop⟩ := orderLoop_of_le hsize
    have hserve := (NeedsGrowth.big_iff hbig hloop).mp hneeds
    obtain ⟨s', hrun, -⟩ := @buddyAlloc_grown g s order hserve horder hend0
    refine ⟨s', s.currentHeapEnd, ?_, hend.ge, ?_⟩
    · rw [kmalloc_big hbig hloop]
      exact hrun
    · omega
  · have hsmall := not_lt.mp hbig
    obtain ⟨c, hc, hfind, hobj, hle⟩ := pick_cache hs hsmall
    obtain ⟨hnoSlab, hserve⟩ := (NeedsGrowth.small_iff hneeds.size_ne_zero hsmall hfind).mp hneeds
    obtain ⟨hz, hz'⟩ := h.core.sized c hc
    obtain ⟨s1, hrun, hcaches⟩ := @buddyAlloc_grown g s 0 hserve (zero_le _) hend0
    have hpage : s.currentHeapEnd = pageAddr 4096 := hend
    rw [hpage] at hrun
    obtain ⟨s', halloc⟩ := slabAlloc_new hrun hcaches (by decide) hc hz hz' hnoSlab
    refine ⟨s', objAddr (s.caches c).objSize 4096 0, ?_, ?_, ?_⟩
    · rw [kmalloc_small hneeds.size_ne_zero hsmall hfind]
      exact halloc
    · simp only [objAddr, pageAddr, slabHeader, pageSize, heapStart, heapSize]
      omega
    · simp only [objAddr, pageAddr, slabHeader, pageSize, heapStart, heapSize] at hz' ⊢
      omega

lemma kmalloc_served (h : KheapInv s v) (hs : StandardSizes s) (hsize : size ≤ heapSize)
    (hneeds : ¬ NeedsGrowth s size) : ∃ s' a, kmalloc [] s size = some (s', a) := by
  by_cases hzero : size = 0
  · exact ⟨s, 0, if_pos hzero⟩
  by_cases hbig : 2048 < size
  · obtain ⟨order, -, hloop⟩ := orderLoop_of_le hsize
    rw [NeedsGrowth.big_iff hbig hloop] at hneeds
    obtain ⟨⟨s', a⟩, hserve⟩ := Option.ne_none_iff_exists'.mp hneeds
    refine ⟨s', a, ?_⟩
    rw [kmalloc_big hbig hloop]
    exact hserve
  · have hsmall := not_lt.mp hbig
    obtain ⟨c, hc, hfind, -⟩ := pick_cache hs hsmall
    rw [NeedsGrowth.small_iff hzero hsmall hfind, not_and] at hneeds
    rw [kmalloc_small hzero hsmall hfind]
    by_cases hnoSlab : (s.caches c).slabsPartial = 0
    · obtain ⟨⟨s1, a⟩, hserve⟩ := Option.ne_none_iff_exists'.mp (hneeds hnoSlab)
      obtain ⟨-, p, free, rfl, -, hcore, -, hkeep⟩ := h.core.serve hserve
      have hp32 : p < 2 ^ 32 := hcore.live_lt (update_self _ _ _)
      obtain ⟨hz, hz'⟩ := h.core.sized c hc
      have halloc : buddyAlloc [] s 0 = some (s1, pageAddr p) := hserve
      obtain ⟨s', hrun⟩ := slabAlloc_new halloc hkeep.caches hp32 hc hz hz' hnoSlab
      exact ⟨s', _, hrun⟩
    · refine ⟨(slabTake s c).1, (slabTake s c).2, ?_⟩
      rw [slabAlloc, slabRefill, if_neg hnoSlab]
      rfl

/-- The cell that is handed out is a new block. -/
lemma newBlock_of_served (h : KheapInv s v) (hs : StandardSizes s)
    (hrun : kmalloc [] s size = some (s', a)) : size = 0 ∨ NewBlock s v a size := by
  rcases kmalloc_spec h hs hrun with ⟨hzero, -⟩ | ⟨v', c, hinv, hsame, rfl, hnew, hheld,
    hsize, hle, -⟩
  · exact .inl hzero
  · have hc : c.Held s' v' := (hheld c).mpr (.inr rfl)
    have hin := hinv.core.cell_inside hc
    rw [c.addr_congr hsame, c.size_congr hsame] at hin
    refine .inr ⟨.inl ⟨hin.1, by omega⟩, fun b hb => ?_⟩
    have hb' : b.Held s' v' := (hheld b).mpr (.inl hb)
    have hne : c ≠ b := fun heq => hnew (heq ▸ hb)
    have hap := hinv.core.cells_apart hc hb' hne
    rw [c.addr_congr hsame, c.size_congr hsame, b.addr_congr hsame, b.size_congr hsame] at hap
    simp only [Apart] at hap ⊢
    omega

lemma NeedsGrowth.newBlock (hneeds : NeedsGrowth s size) (h : KheapInv s v)
    (hle : heapStart + heapSize ≤ a) (hle' : a + size ≤ heapStart + 2 * heapSize) :
    NewBlock s v a size := by
  refine ⟨.inr ⟨hneeds, hle, hle'⟩, fun b hb => .inr ?_⟩
  exact le_trans (h.core.cell_inside hb).2 hle

/-- Frames from 2 MiB on for the metadata and from 16 MiB on for the heap. -/
def amplySupplied : Supply := ⟨0x200000, 0x1000000, ⟨fun _ => 0, fun _ => ⟨0, false, false⟩⟩⟩

end DestinX
