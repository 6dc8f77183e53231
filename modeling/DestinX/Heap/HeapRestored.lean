import DestinX.Heap.BuddyCoalescing
import DestinX.Heap.HeapSafety

/-!
# Freeing everything restores the initial heap

The free blocks stay coalesced, and the `is_slab` bit is set on pages of slabs only. A slab
always has a slot that is handed out, so when nothing is handed out there are no slabs, and the
free blocks are one block.
-/

namespace DestinX

open Base Function List

/-- The metadata marks page `p` as the first page of a free block of order `k`. -/
def MarkedFree (s : Heap) (p k : Nat) : Prop :=
  p < startPages ∧ (s.metadata p).isFree = true ∧ (s.metadata p).order = k

/-- No two blocks that are marked free below the largest order are buddies. -/
def CoalescedMarks (s : Heap) : Prop :=
  ∀ k < maxOrders, ∀ p, MarkedFree s p k → ¬ MarkedFree s (p ^^^ 2 ^ k) k

variable {s s' s₀ : Heap} {v : KheapView} {t : HeapSystem} {free : Nat → List Nat}
  {live : Nat → Option Nat} {a c p k order size : Nat}

lemma BuddyCore.markedFree_iff (hc : BuddyCore startPages s free live) :
    MarkedFree s p k ↔ p ∈ free k := by
  constructor
  · rintro ⟨hp, hfree, rfl⟩
    exact hc.unmarked p hp hfree
  · intro hp
    exact ⟨hc.free_lt hp, hc.marked k p hp⟩

lemma BuddyCore.coalesced_iff (hc : BuddyCore startPages s free live) :
    Coalesced free ↔ CoalescedMarks s := by simp only [Coalesced, CoalescedMarks, hc.markedFree_iff]

lemma CoalescedMarks.congr (h : CoalescedMarks s) (hs : SameMarks s s') : CoalescedMarks s' := by
  have hiff : ∀ p k, MarkedFree s' p k ↔ MarkedFree s p k := by
    intro p k
    rw [MarkedFree, MarkedFree, (hs p).1, (hs p).2]
  intro k hk p
  rw [hiff, hiff]
  exact h k hk p

/-! ## The free blocks stay coalesced -/

section

variable (h : KheapCore s v) (hm : CoalescedMarks s)
include h hm

lemma KheapCore.coalesced_serve (hrun : buddyServe s order = some (s', a)) :
    CoalescedMarks s' := by
  obtain ⟨_, p, free', _, _, hc', _, _, hco⟩ := buddyServe_spec (by decide) h.buddy hrun
  exact hc'.coalesced_iff.mp (hco (h.buddy.coalesced_iff.mpr hm))

lemma KheapCore.coalesced_free (hp : v.live p = some k) :
    CoalescedMarks (buddyFree s (pageAddr p)) := by
  obtain ⟨free', hc', _, hco⟩ :=
    buddyFree_spec (by decide) (by decide) h.buddy hp (h.order p k hp)
  exact hc'.coalesced_iff.mp (hco (h.buddy.coalesced_iff.mpr hm))

lemma KheapCore.coalesced_slabAlloc (hrun : slabAlloc [] s c = some (s', a)) :
    CoalescedMarks s' := by
  simp only [slabAlloc, Option.map_eq_some_iff] at hrun
  obtain ⟨s1, hrefill, htake⟩ := hrun
  have hmd := slabTake_metadata s1 c
  rw [htake] at hmd
  rcases slabRefill_cases hrefill with rfl | ⟨s2, hserve, hmark⟩
  · exact hm.congr (SameMarks.of_metadata hmd)
  · have hsame : SameMarks s2 (s2.setMetadata (pageIndex (s1.caches c).slabsPartial)
        { s2.metadata (pageIndex (s1.caches c).slabsPartial) with isSlab := true }) :=
      (SameMarks.of_metadata rfl).setMetadata rfl rfl
    exact ((h.coalesced_serve hm hserve).congr hsame).congr
      (SameMarks.of_metadata (hmd.trans hmark))

lemma KheapCore.coalesced_kmalloc (hrun : kmalloc [] s size = some (s', a)) :
    CoalescedMarks s' := by
  rw [kmalloc] at hrun
  split_ifs at hrun
  · cases hrun
    exact hm
  · obtain ⟨order, -, hserve⟩ := Option.bind_eq_some_iff.mp hrun
    exact h.coalesced_serve hm hserve
  · split at hrun
    · exact h.coalesced_slabAlloc hm hrun
    · cases hrun
      exact hm

end

lemma KheapInv.coalesced_kfree (h : KheapInv s v) (hm : CoalescedMarks s) {b : Cell}
    (hb : b.Held s v) : CoalescedMarks (kfree s (b.addr s)) := by
  have hne := h.core.addr_ne_zero hb
  cases b with
  | block p k =>
    have hlive : v.live p = some k := hb.1
    have hslab : ¬ (s.metadata p).isSlab = true := fun hs => hb.2 ((h.marked p k hb.1).mp hs)
    rw [kfree, if_neg hne, Cell.addr, pageIndex_pageAddr (h.core.live_lt hlive), if_neg hslab]
    exact h.core.coalesced_free hm hlive
  | slot c p i =>
    obtain ⟨⟨full, hp⟩, hi, -⟩ := hb
    have hlive : v.live p = some 0 := h.core.slabLive ⟨full, c, hp⟩
    have hz := h.core.size_ge hp
    have hslab : (s.metadata p).isSlab = true := (h.marked p 0 hlive).mpr ⟨full, c, hp⟩
    rw [kfree, if_neg hne, Cell.addr, pageIndex_obj hz hi (h.core.live_lt hlive), if_pos hslab]
    rcases slabFree_marks s (objAddr (s.caches c).objSize p i) with hsame | hsame
    · exact hm.congr hsame
    · rw [page_of_obj hz hi] at hsame
      exact (h.core.coalesced_free hm hlive).congr hsame

/-! ## Slabs and their slots -/

/-- Every slab has a slot that is handed out. -/
lemma KheapInv.onList_iff (h : KheapInv s v) :
    OnList v.lists p ↔ ∃ c i, (Cell.slot c p i).Held s v := by
  constructor
  · rintro ⟨full, c, hp⟩
    have hsized := h.core.sized c (h.core.lists.bounded full c p hp).1
    have hused : (v.objs p).length < slots (s.caches c).objSize := by
      cases full with
      | false => exact h.sorted.partial_used c p hp
      | true =>
        rw [h.sorted.full_none c p hp]
        exact Nat.div_pos (by omega) (by omega)
    by_contra hno
    push Not at hno
    have hall : List.range (slots (s.caches c).objSize) ⊆ v.objs p := by
      intro i hi
      by_contra hfree
      exact hno c i ⟨⟨full, hp⟩, mem_range.mp hi, hfree⟩
    have hlen := nodup_range.length_le_of_subset hall
    rw [length_range] at hlen
    omega
  · rintro ⟨c, i, ⟨full, hp⟩, -⟩
    exact ⟨full, c, hp⟩

/-! ## Runs -/

/-- What every state of a run satisfies in addition: the free blocks are coalesced, and
the pages that are marked as slabs are on the lists of the caches. -/
structure TidyInv (t : HeapSystem) (v : KheapView) : Prop where
  heap : HeapInv t v
  coalesced : CoalescedMarks t.heap
  slabs : ∀ p < startPages, (t.heap.metadata p).isSlab = true → OnList v.lists p

lemma initKheap_tidy (s₀ : Heap) : ∃ v, TidyInv ⟨initKheap s₀, fun _ => none⟩ v := by
  obtain ⟨v, hi⟩ := initKheap_inv s₀
  have hcore : BuddyCore startPages (initKheap s₀) _ _ :=
    (initBuddy_core s₀).transport (fun x hx => absurd rfl hx) rfl rfl
  refine ⟨v, hi, hcore.coalesced_iff.mp coalesced_init, fun p hp hslab => ?_⟩
  have hclear : NoNewSlab { s₀ with
      metadata := fun i => if i < startPages then ⟨0, false, false⟩ else s₀.metadata i }
      (initKheap s₀) := NoNewSlab.update rfl fun h => absurd h Bool.false_ne_true
  have hold := hclear p hslab
  simp only [if_pos hp] at hold
  cases hold

lemma TidyInv.step_alloc (hi : TidyInv t v) {heap : Heap}
    (hrun : kmalloc [] t.heap size = some (heap, a)) :
    ∃ v', TidyInv ⟨heap, if a = 0 then t.allocs else update t.allocs a (some size)⟩ v' := by
  have hm := hi.heap.kheap.core.coalesced_kmalloc hi.coalesced hrun
  rcases kmalloc_spec hi.heap.kheap hi.heap.sizes hrun with
    ⟨_, rfl, rfl⟩ | ⟨v', c, hinv, hsame, rfl, hnew, hheld, hsize, hle, hslab⟩
  · exact ⟨v, by simpa using hi⟩
  refine ⟨v', hi.heap.handed_out hinv hsame hheld hsize hle, hm, fun p hp hmark => ?_⟩
  have hold : (t.heap.metadata p).isSlab = true → OnList v'.lists p := by
    intro hmark'
    obtain ⟨d, i, hd⟩ := hi.heap.kheap.onList_iff.mp (hi.slabs p hp hmark')
    exact hinv.onList_iff.mpr ⟨d, i, (hheld _).mpr (.inl hd)⟩
  cases c with
  | block q k => exact hold (hslab p hmark)
  | slot d q i =>
    rcases hslab p hmark with hmark' | rfl
    · exact hold hmark'
    · exact hinv.onList_iff.mpr ⟨d, i, (hheld _).mpr (.inr rfl)⟩

lemma TidyInv.step_free (hi : TidyInv t v) (ha : t.allocs a = some size) :
    ∃ v', TidyInv ⟨kfree t.heap a, update t.allocs a none⟩ v' := by
  obtain ⟨c, hc, rfl, _, _⟩ := hi.heap.cell a size ha
  obtain ⟨v', hinv, hsame, hheld, hslab, hown⟩ := kfree_spec hi.heap.kheap hc
  refine ⟨v', hi.heap.taken_back hc hinv hsame hheld,
    hi.heap.kheap.coalesced_kfree hi.coalesced hc, fun p hp hmark => ?_⟩
  obtain ⟨d, i, hd⟩ := hi.heap.kheap.onList_iff.mp (hi.slabs p hp (hslab p hmark))
  by_cases hcell : Cell.slot d p i = c
  · exact hown d p i hcell.symm hmark
  · exact hinv.onList_iff.mpr ⟨d, i, (hheld _).mpr ⟨hd, hcell⟩⟩

lemma HeapRun.tidy (run : HeapRun s₀ t) : ∃ v, TidyInv t v := by
  induction run with
  | init => exact initKheap_tidy s₀
  | alloc run size heap a h ih =>
    obtain ⟨v, hi⟩ := ih
    exact hi.step_alloc h
  | free run a size h ih =>
    obtain ⟨v, hi⟩ := ih
    exact hi.step_free h
  | write run a size x b h hx hx' ih =>
    obtain ⟨v, hi⟩ := ih
    exact ⟨v, hi.heap.step_write h hx hx' b, hi.coalesced.congr (SameMarks.of_metadata rfl),
      hi.slabs⟩

/-! ## Nothing is handed out -/

/-- The heap as `init_kheap` leaves it: one free block, no slabs, no marks of slabs. -/
structure HeapRestored (s : Heap) : Prop where
  whole : s.freeAreas maxOrders = heapStart ∧ ∀ p, FreeBlock s p maxOrders ↔ pageAddr p = heapStart
  empty : ∀ k < maxOrders, s.freeAreas k = 0
  caches : ∀ c < numCaches, (s.caches c).slabsPartial = 0 ∧ (s.caches c).slabsFull = 0
  unmarked : ∀ p < startPages, (s.metadata p).isSlab = false

lemma BuddyCore.one_block (hc : BuddyCore startPages s free live) (hm : Coalesced free)
    (hlive : ∀ p, live p = none) : ∀ p k, p ∈ free k ↔ p = 0 ∧ k = maxOrders := by
  have hall : ∀ x, Covers (0, maxOrders) x → Union (freeFamily free) x := by
    intro x hx
    refine hc.union_iff.mpr ⟨by simpa [startPages, maxOrders] using hx.2, fun p k hp => ?_⟩
    rw [hlive p] at hp
    cases hp
  obtain ⟨⟨q, j⟩, hq, hj, hcov⟩ :=
    (hc.merged hm).absorbs le_rfl (dvd_zero (2 ^ maxOrders)) hall
  obtain rfl : j = maxOrders := le_antisymm (hc.orders (q, j) (.inl hq)) hj
  obtain rfl : q = 0 := Nat.le_zero.mp (hcov 0 (covers_self 0 _)).1
  intro p k
  constructor
  · intro hp
    have hin := hc.free_lt hp
    have heq := hc.tiling.apart (p, k) (.inl hp) (0, maxOrders) (.inl hq) p (covers_self p k)
      ⟨Nat.zero_le p, by simpa [startPages, maxOrders] using hin⟩
    exact Prod.mk.inj heq
  · rintro ⟨rfl, rfl⟩
    exact hq

/-- When everything that was allocated has been freed, in whatever order, the heap is as
after its initialisation. -/
theorem kheap_restored (run : HeapRun s₀ t) (hfreed : ∀ a, t.allocs a = none) :
    HeapRestored t.heap := by
  obtain ⟨v, hi⟩ := run.tidy
  have hcore := hi.heap.kheap.core
  have hnone : ∀ b : Cell, ¬ b.Held t.heap v := by
    intro b hb
    obtain ⟨n, hn⟩ := hi.heap.alloc b hb
    rw [hfreed] at hn
    cases hn
  have hoff : ∀ p, ¬ OnList v.lists p := by
    intro p hp
    obtain ⟨c, i, hc⟩ := hi.heap.kheap.onList_iff.mp hp
    exact hnone _ hc
  have hlive : ∀ p, v.live p = none := by
    intro p
    cases hp : v.live p with
    | none => rfl
    | some k => exact absurd ⟨hp, hoff p⟩ (hnone (.block p k))
  have hblocks := hcore.buddy.one_block (hcore.buddy.coalesced_iff.mpr hi.coalesced) hlive
  have hlists : ∀ full c, v.lists full c = [] := by
    intro full c
    refine eq_nil_iff_forall_not_mem.mpr fun p hp => hoff p ⟨full, c, hp⟩
  refine ⟨⟨?_, fun p => ?_⟩, fun k hk => ?_, fun c hc => ⟨?_, ?_⟩, fun p hp => ?_⟩
  · have hlist := hcore.buddy.lists maxOrders le_rfl
    obtain ⟨q, l, hl⟩ := exists_cons_of_ne_nil
      (ne_nil_of_mem ((hblocks 0 maxOrders).mpr ⟨rfl, rfl⟩))
    rw [hl] at hlist
    have hq : q = 0 := ((hblocks q maxOrders).mp (by simp [hl])).1
    rw [hlist.head_eq, hq]
    rfl
  · rw [hcore.buddy.freeBlock_iff, hblocks]
    have hstart : pageAddr p = heapStart ↔ p = 0 := by
      simp only [pageAddr, pageSize]
      omega
    simp [hstart]
  · have hnil : v.free k = [] := by
      refine eq_nil_iff_forall_not_mem.mpr fun p hp => ?_
      exact hk.ne ((hblocks p k).mp hp).2
    exact (hcore.buddy.lists k hk.le).head_zero_iff.mpr hnil
  · exact (hcore.lists.list false c hc).head_zero_iff.mpr (hlists false c)
  · exact (hcore.lists.list true c hc).head_zero_iff.mpr (hlists true c)
  · by_contra hmark
    exact hoff p (hi.slabs p hp (by simpa using hmark))

/-- Both allocations are freed. -/
theorem kheap_restored_merged :
    ∃ t, HeapRun zeroHeap t ∧ (∀ a, t.allocs a = none) ∧ HeapRestored t.heap := by
  obtain ⟨t, run, hallocs⟩ := heap_run_merged
  have run' := (run.free (heapStart + 8232) 24 (hallocs _)).free heapStart 8192 (hallocs heapStart)
  have hfreed : ∀ a, update (update t.allocs (heapStart + 8232) none) heapStart none a = none := by
    intro a
    simp only [update_apply, hallocs]
    split_ifs <;> rfl
  exact ⟨_, run', hfreed, kheap_restored run' hfreed⟩

end DestinX
