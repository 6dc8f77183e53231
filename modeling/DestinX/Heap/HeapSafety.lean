import DestinX.Heap.KmallocSpec
import DestinX.Heap.BuddyRuns

/-!
# Safety of `kmalloc` and `kfree`

Runs from `init_kheap` of `kmalloc`, `kfree` of a live pointer, and stores of callers into their
own allocations, as long as the free lists serve every request. The live allocations are
disjoint and stay clear of the bookkeeping inside the heap.
-/

namespace DestinX

open Base Function List

/-- The heap together with the live results of `kmalloc` and the sizes they were
requested with. -/
structure HeapSystem where
  heap : Heap
  allocs : Nat → Option Nat

/-- The states that runs from `init_kheap` reach when the heap never grows. -/
inductive HeapRun (s₀ : Heap) : HeapSystem → Prop
  | init : HeapRun s₀ ⟨initKheap s₀, fun _ => none⟩
  | alloc {t : HeapSystem} (run : HeapRun s₀ t) (size : Nat) (heap : Heap) (a : Nat)
      (h : kmalloc [] t.heap size = some (heap, a)) :
      HeapRun s₀ ⟨heap, if a = 0 then t.allocs else update t.allocs a (some size)⟩
  | free {t : HeapSystem} (run : HeapRun s₀ t) (a size : Nat) (h : t.allocs a = some size) :
      HeapRun s₀ ⟨kfree t.heap a, update t.allocs a none⟩
  | write {t : HeapSystem} (run : HeapRun s₀ t) (a size x : Nat) (b : UInt8)
      (h : t.allocs a = some size) (hx : a ≤ x) (hx' : x < a + usable size) :
      HeapRun s₀ ⟨{ t.heap with mem := update t.heap.mem x b }, t.allocs⟩

/-! ## What the allocators keep inside the heap -/

/-- A `slab_t` header starts at `a`: it is on a list of some cache. -/
def SlabAt (s : Heap) (a : Nat) : Prop :=
  ∃ c < numCaches, Reaches (field s.mem 32) (ptr (s.caches c).slabsPartial) a ∨
    Reaches (field s.mem 32) (ptr (s.caches c).slabsFull) a

/-- A free object starts at `a`: it is on the free list of some slab. -/
def FreeObjectAt (s : Heap) (a : Nat) : Prop :=
  ∃ slab, SlabAt s slab ∧ Reaches (field s.mem 0) (ptr (load64 s.mem slab)) a

/-- A `free_block_t` node starts at `a`: it is on `free_areas[k]` for some `k`. -/
def FreeNodeAt (s : Heap) (a : Nat) : Prop :=
  ∃ k ≤ maxOrders, Reaches (field s.mem 8) (ptr (s.freeAreas k)) a

variable {s : Heap} {v : KheapView} {a : Nat}

lemma KheapCore.slabAt_iff (h : KheapCore s v) :
    SlabAt s a ↔ ∃ full c p, p ∈ v.lists full c ∧ a = pageAddr p := by
  have hreach : ∀ full, ∀ c < numCaches,
      (Reaches (field s.mem 32) (ptr ((s.caches c).head full)) a ↔
        a ∈ (v.lists full c).map pageAddr) :=
    fun full c hc => (h.lists.list full c hc).chain.reaches_iff
  constructor
  · rintro ⟨c, hc, hr | hr⟩
    · obtain ⟨p, hp, rfl⟩ := mem_map.mp ((hreach false c hc).mp hr)
      exact ⟨false, c, p, hp, rfl⟩
    · obtain ⟨p, hp, rfl⟩ := mem_map.mp ((hreach true c hc).mp hr)
      exact ⟨true, c, p, hp, rfl⟩
  · rintro ⟨full, c, p, hp, rfl⟩
    have hc := (h.lists.bounded full c p hp).1
    have hr := (hreach full c hc).mpr (mem_map_of_mem hp)
    cases full with
    | false => exact ⟨c, hc, .inl hr⟩
    | true => exact ⟨c, hc, .inr hr⟩

lemma KheapCore.freeObjectAt (h : KheapCore s v) (ha : FreeObjectAt s a) :
    ∃ full c p i, p ∈ v.lists full c ∧ i ∈ v.objs p ∧ a = objAddr (s.caches c).objSize p i := by
  obtain ⟨slab, hslab, hr⟩ := ha
  obtain ⟨full, c, p, hp, rfl⟩ := h.slabAt_iff.mp hslab
  obtain ⟨i, hi, rfl⟩ := mem_map.mp ((h.page hp).chain.reaches_iff.mp hr)
  exact ⟨full, c, p, i, hp, hi, rfl⟩

lemma KheapCore.freeNodeAt (h : KheapCore s v) (ha : FreeNodeAt s a) :
    ∃ k p, p ∈ v.free k ∧ a = pageAddr p := by
  obtain ⟨k, hk, hr⟩ := ha
  obtain ⟨p, hp, rfl⟩ := mem_map.mp ((h.buddy.lists k hk).chain.reaches_iff.mp hr)
  exact ⟨k, p, hp, rfl⟩

/-! ## Cells stay clear of the bookkeeping -/

variable {b : Cell}

section

variable (h : KheapCore s v)
include h

lemma KheapCore.cell_slabAt (hb : b.Held s v) (ha : SlabAt s a) :
    Apart (b.addr s) (b.size s) a slabHeader := by
  obtain ⟨full, c, p, hp, rfl⟩ := h.slabAt_iff.mp ha
  apply apart_of_no_common (h.size_pos hb) (by decide)
  intro x hx hx' hpx hpx'
  obtain ⟨hslab, hlinks⟩ := h.cell_outside hb hp hx hx'
  simp only [slabHeader] at hpx'
  by_cases hlow : x < pageAddr p + 24
  · exact hslab (.inl ⟨hpx, hlow⟩)
  · exact hlinks ⟨by omega, by omega⟩

lemma KheapCore.cell_freeObjectAt (hb : b.Held s v) (ha : FreeObjectAt s a) :
    Apart (b.addr s) (b.size s) a 8 := by
  obtain ⟨full, c, p, i, hp, hi, rfl⟩ := h.freeObjectAt ha
  apply apart_of_no_common (h.size_pos hb) (by decide)
  intro x hx hx' hpx hpx'
  exact (h.cell_outside hb hp hx hx').1 (.inr ⟨i, hi, hpx, hpx'⟩)

lemma KheapCore.cell_freeNodeAt (hb : b.Held s v) (ha : FreeNodeAt s a) :
    Apart (b.addr s) (b.size s) a 16 := by
  obtain ⟨k, p, hp, rfl⟩ := h.freeNodeAt ha
  have hlive := h.home_live hb
  have hin := Cell.inside hb
  apply apart_of_no_common (h.size_pos hb) (by decide)
  intro x hx hx' hpx hpx'
  have hhome : (b.home.1, b.home.2) ∈ blocks v.free v.live := .inr hlive
  have hout := h.buddy.node_outside (x := x) hhome (.inl hp)
    (fun he => h.buddy.not_free hlive k ((Prod.mk.inj he).1 ▸ hp)) (by omega) (by omega)
  omega

lemma KheapCore.cell_inside (hb : b.Held s v) :
    heapStart ≤ b.addr s ∧ b.addr s + b.size s ≤ heapStart + heapSize := by
  have hin := Cell.inside hb
  have hend := h.buddy.tiling.inside _
    (.inr (h.home_live hb) : (b.home.1, b.home.2) ∈ blocks v.free v.live)
  simp only [pageAddr, pageSize, startPages, heapSize] at *
  omega

end

/-! ## Runs -/

/-- What every state of a run satisfies: the live allocations are exactly the
cells that are handed out. -/
structure HeapInv (t : HeapSystem) (v : KheapView) : Prop where
  kheap : KheapInv t.heap v
  sizes : StandardSizes t.heap
  cell : ∀ a size, t.allocs a = some size → ∃ c : Cell, c.Held t.heap v ∧ c.addr t.heap = a ∧
    c.size t.heap = usable size ∧ size ≤ usable size
  alloc : ∀ c : Cell, c.Held t.heap v → ∃ size, t.allocs (c.addr t.heap) = some size

lemma cacheSizes_bounds :
    ∀ c < numCaches, 8 ≤ cacheSizes.getD c 0 ∧ cacheSizes.getD c 0 + slabHeader ≤ pageSize := by
  decide

lemma initKheap_inv (s0 : Heap) : ∃ v, HeapInv ⟨initKheap s0, fun _ => none⟩ v := by
  have hcore : KheapCore (initKheap s0)
      ⟨update (fun _ => []) maxOrders [0], fun _ => none, fun _ _ => [], fun _ => []⟩ := by
    refine ⟨(initBuddy_core s0).transport (fun x hx => absurd rfl hx) rfl rfl, by simp,
      ⟨?_, by simp, by simp⟩, ?_, by simp, by simp [OnList]⟩
    · intro full c hc
      have hhead : ((initKheap s0).caches c).head full = 0 := by
        cases full <;> simp [initKheap, initSlab, hc, KmemCache.head]
      rw [hhead]
      exact ⟨rfl, trivial⟩
    · intro c hc
      have hsize : ((initKheap s0).caches c).objSize = cacheSizes.getD c 0 := by
        simp [initKheap, initSlab, hc]
      rw [hsize]
      exact cacheSizes_bounds c hc
  refine ⟨_, ⟨hcore, by simp [Marked], ⟨by simp, by simp, by simp⟩⟩, ?_, by simp, ?_⟩
  · intro c hc
    simp [initKheap, initSlab, hc]
  · rintro (⟨p, k⟩ | ⟨c, p, i⟩) hheld
    · simp [Cell.Held] at hheld
    · simp [Cell.Held] at hheld

variable {t : HeapSystem}

lemma Cell.addr_congr {s' : Heap} (h : SameSizes s s') (c : Cell) : c.addr s' = c.addr s := by
  cases c with
  | block p k => rfl
  | slot c p i => rw [Cell.addr, Cell.addr, h c]

lemma Cell.size_congr {s' : Heap} (h : SameSizes s s') (c : Cell) : c.size s' = c.size s := by
  cases c with
  | block p k => rfl
  | slot c p i => rw [Cell.size, Cell.size, h c]

lemma KheapCore.addr_ne_zero (h : KheapCore s v) (hb : b.Held s v) : b.addr s ≠ 0 := by
  have hin := (h.cell_inside hb).1
  simp only [heapStart] at hin
  omega

section

variable (hi : HeapInv t v)
include hi

/-- One more cell is handed out. -/
lemma HeapInv.handed_out {size : Nat} {heap : Heap} {v' : KheapView} {c : Cell}
    (hinv : KheapInv heap v') (hsame : SameSizes t.heap heap)
    (hheld : ∀ b : Cell, b.Held heap v' ↔ b.Held t.heap v ∨ b = c)
    (hsize : c.size t.heap = usable size) (hle : size ≤ usable size) :
    HeapInv ⟨heap, if c.addr t.heap = 0 then t.allocs
      else update t.allocs (c.addr t.heap) (some size)⟩ v' := by
  have hc : c.Held heap v' := (hheld c).mpr (.inr rfl)
  have hne : c.addr t.heap ≠ 0 := by
    rw [← c.addr_congr hsame]
    exact hinv.core.addr_ne_zero hc
  rw [if_neg hne]
  refine ⟨hinv, hi.sizes.congr hsame, ?_, ?_⟩
  · intro a n ha
    by_cases hac : a = c.addr t.heap
    · subst hac
      simp only [update_self, Option.some.injEq] at ha
      subst ha
      exact ⟨c, hc, c.addr_congr hsame, (c.size_congr hsame).trans hsize, hle⟩
    · simp only [update_of_ne hac] at ha
      obtain ⟨d, hd, haddr, hds, hdn⟩ := hi.cell a n ha
      exact ⟨d, (hheld d).mpr (.inl hd), (d.addr_congr hsame).trans haddr,
        (d.size_congr hsame).trans hds, hdn⟩
  · intro d hd
    simp only [d.addr_congr hsame]
    rcases (hheld d).mp hd with hd' | rfl
    · obtain ⟨n, hn⟩ := hi.alloc d hd'
      by_cases hac : d.addr t.heap = c.addr t.heap
      · exact ⟨size, by rw [hac, update_self]⟩
      · exact ⟨n, by rw [update_of_ne hac, hn]⟩
    · exact ⟨size, update_self _ _ _⟩

lemma HeapInv.step_alloc {size : Nat} {heap : Heap}
    (hrun : kmalloc [] t.heap size = some (heap, a)) :
    ∃ v', HeapInv ⟨heap, if a = 0 then t.allocs else update t.allocs a (some size)⟩ v' := by
  rcases kmalloc_spec hi.kheap hi.sizes hrun with
    ⟨_, rfl, rfl⟩ | ⟨v', c, hinv, hsame, rfl, hnew, hheld, hsize, hle, -⟩
  · exact ⟨v, by simpa using hi⟩
  · exact ⟨v', hi.handed_out hinv hsame hheld hsize hle⟩

/-- What `kmalloc` returns is not in use. -/
lemma HeapInv.fresh {size : Nat} {heap : Heap} (hrun : kmalloc [] t.heap size = some (heap, a))
    (hne : a ≠ 0) : t.allocs a = none := by
  rcases kmalloc_spec hi.kheap hi.sizes hrun with
    ⟨-, rfl, -⟩ | ⟨v', c, hinv, hsame, rfl, hnew, hheld, -⟩
  · exact absurd rfl hne
  by_contra hlive
  obtain ⟨n, hn⟩ := Option.ne_none_iff_exists'.mp hlive
  obtain ⟨d, hd, haddr, -⟩ := hi.cell _ n hn
  have heq : d = c := hinv.core.addr_injective ((hheld d).mpr (.inl hd)) ((hheld c).mpr (.inr rfl))
    (by rw [d.addr_congr hsame, c.addr_congr hsame, haddr])
  exact hnew (heq ▸ hd)

lemma HeapInv.taken_back {heap : Heap} {v' : KheapView} {c : Cell} (hc : c.Held t.heap v)
    (hinv : KheapInv heap v') (hsame : SameSizes t.heap heap)
    (hheld : ∀ b : Cell, b.Held heap v' ↔ b.Held t.heap v ∧ b ≠ c) :
    HeapInv ⟨heap, update t.allocs (c.addr t.heap) none⟩ v' := by
  refine ⟨hinv, hi.sizes.congr hsame, ?_, ?_⟩
  · intro a n hn
    have hac : a ≠ c.addr t.heap := by
      rintro rfl
      simp at hn
    simp only [update_of_ne hac] at hn
    obtain ⟨d, hd, haddr, hds, hdn⟩ := hi.cell a n hn
    have hdc : d ≠ c := by
      rintro rfl
      exact hac haddr.symm
    exact ⟨d, (hheld d).mpr ⟨hd, hdc⟩, (d.addr_congr hsame).trans haddr,
      (d.size_congr hsame).trans hds, hdn⟩
  · intro d hd
    obtain ⟨hd', hdc⟩ := (hheld d).mp hd
    obtain ⟨n, hn⟩ := hi.alloc d hd'
    have hac : d.addr t.heap ≠ c.addr t.heap :=
      fun he => hdc (hi.kheap.core.addr_injective hd' hc he)
    refine ⟨n, ?_⟩
    simp only [d.addr_congr hsame]
    rw [update_of_ne hac, hn]

lemma HeapInv.step_free {size : Nat} (ha : t.allocs a = some size) :
    ∃ v', HeapInv ⟨kfree t.heap a, update t.allocs a none⟩ v' := by
  obtain ⟨c, hc, rfl, _, _⟩ := hi.cell a size ha
  obtain ⟨v', hinv, hsame, hheld, -⟩ := kfree_spec hi.kheap hc
  exact ⟨v', hi.taken_back hc hinv hsame hheld⟩

lemma HeapInv.step_write {size x : Nat} (ha : t.allocs a = some size) (hx : a ≤ x)
    (hx' : x < a + usable size) (b : UInt8) :
    HeapInv ⟨{ t.heap with mem := update t.heap.mem x b }, t.allocs⟩ v := by
  obtain ⟨c, hc, rfl, hsize, _⟩ := hi.cell a size ha
  rw [← hsize] at hx'
  have hsorted := hi.kheap.sorted
  exact ⟨⟨hi.kheap.core.write hc hx hx' b, hi.kheap.marked,
    ⟨hsorted.partial_some, hsorted.partial_used, hsorted.full_none⟩⟩, hi.sizes, hi.cell, hi.alloc⟩

end

lemma HeapRun.inv {s0 : Heap} (run : HeapRun s0 t) : ∃ v, HeapInv t v := by
  induction run with
  | init => exact initKheap_inv s0
  | alloc run size heap a h ih =>
    obtain ⟨v, hi⟩ := ih
    exact hi.step_alloc h
  | free run a size h ih =>
    obtain ⟨v, hi⟩ := ih
    exact hi.step_free h
  | write run a size x b h hx hx' ih =>
    obtain ⟨v, hi⟩ := ih
    exact ⟨v, hi.step_write h hx hx' b⟩

/-- Safety of the live allocations in one state. The next one is at an address that is not
live. -/
structure HeapSafe (t : HeapSystem) : Prop where
  fresh : ∀ size heap a, kmalloc [] t.heap size = some (heap, a) → a ≠ 0 → t.allocs a = none
  enough : ∀ a n, t.allocs a = some n → n ≤ usable n
  inside : ∀ a n, t.allocs a = some n → heapStart ≤ a ∧ a + usable n ≤ heapStart + heapSize
  disjoint : ∀ a n a' n', t.allocs a = some n → t.allocs a' = some n' → a ≠ a' →
    Apart a (usable n) a' (usable n')
  headers : ∀ a n h, t.allocs a = some n → SlabAt t.heap h → Apart a (usable n) h slabHeader
  freeObjects : ∀ a n o, t.allocs a = some n → FreeObjectAt t.heap o → Apart a (usable n) o 8
  freeNodes : ∀ a n b, t.allocs a = some n → FreeNodeAt t.heap b → Apart a (usable n) b 16

/-- In every state of a run the live allocations are large enough, lie inside the
heap, are pairwise disjoint and overlap no bookkeeping of the allocators, and no address is
handed out twice. -/
theorem kmalloc_heap_safe {s₀ : Heap} (run : HeapRun s₀ t) : HeapSafe t := by
  obtain ⟨v, hi⟩ := run.inv
  have hcore := hi.kheap.core
  constructor
  · exact fun size heap a => hi.fresh
  · intro a n ha
    obtain ⟨c, _, _, _, hle⟩ := hi.cell a n ha
    exact hle
  · intro a n ha
    obtain ⟨c, hc, rfl, hs, _⟩ := hi.cell a n ha
    exact hs ▸ hcore.cell_inside hc
  · intro a n a' n' ha ha' hne
    obtain ⟨c, hc, rfl, hs, _⟩ := hi.cell a n ha
    obtain ⟨c', hc', rfl, hs', _⟩ := hi.cell a' n' ha'
    exact hs ▸ hs' ▸ hcore.cells_apart hc hc' fun he => hne (by rw [he])
  · intro a n h ha hh
    obtain ⟨c, hc, rfl, hs, _⟩ := hi.cell a n ha
    exact hs ▸ hcore.cell_slabAt hc hh
  · intro a n o ha ho
    obtain ⟨c, hc, rfl, hs, _⟩ := hi.cell a n ha
    exact hs ▸ hcore.cell_freeObjectAt hc ho
  · intro a n b ha hb
    obtain ⟨c, hc, rfl, hs, _⟩ := hi.cell a n ha
    exact hs ▸ hcore.cell_freeNodeAt hc hb

/-- Two pages and an object of a slab are handed out; the pages are freed and merge, and the
block of both is handed out. -/
lemma heap_run_merged : ∃ t, HeapRun zeroHeap t ∧ ∀ a, t.allocs a =
    if a = heapStart then some 8192 else if a = heapStart + 8232 then some 24 else none := by
  have heval : ((kmalloc [] (initKheap zeroHeap) 4096).bind fun r₁ =>
      (kmalloc [] r₁.1 4096).bind fun r₂ => (kmalloc [] r₂.1 24).bind fun r₃ =>
      (kmalloc [] (kfree (kfree r₃.1 heapStart) (heapStart + 4096)) 8192).map fun r₄ =>
        (r₁.2, r₂.2, r₃.2, r₄.2)) =
      some (heapStart, heapStart + 4096, heapStart + 8232, heapStart) := by decide +kernel
  simp only [Option.bind_eq_some_iff, Option.map_eq_some_iff, Prod.exists, Prod.mk.injEq] at heval
  obtain ⟨_, _, h₁, _, _, h₂, _, _, h₃, _, _, h₄, rfl, rfl, rfl, rfl⟩ := heval
  have run := (((((HeapRun.init.alloc 4096 _ _ h₁).alloc 4096 _ _ h₂).alloc 24 _ _ h₃).free
    heapStart 4096 rfl).free (heapStart + 4096) 4096 rfl).alloc 8192 _ _ h₄
  refine ⟨_, run, fun a => ?_⟩
  show update (update (update (update (update (update (fun _ => none) heapStart (some 4096))
    (heapStart + 4096) (some 4096)) (heapStart + 8232) (some 24)) heapStart none)
    (heapStart + 4096) none) heapStart (some 8192) a = _
  simp only [update_apply]
  split_ifs <;> first | rfl | omega

/-- Two allocations are live, and a byte of the first is written. -/
theorem kmalloc_heap_safe_merged : ∃ t, HeapRun zeroHeap t ∧ t.allocs heapStart = some 8192 ∧
      t.allocs (heapStart + 8232) = some 24 ∧ HeapSafe t := by
  obtain ⟨t, run, hallocs⟩ := heap_run_merged
  have hfirst : t.allocs heapStart = some 8192 := (hallocs heapStart).trans (if_pos rfl)
  have run' := run.write heapStart 8192 (heapStart + 8191) 1 hfirst (by decide) (by decide)
  exact ⟨_, run', hfirst, hallocs (heapStart + 8232), kmalloc_heap_safe run'⟩

end DestinX
