import DestinX.Heap.SlabRelease

/-!
# `kmalloc` and `kfree` on cells

A successful `kmalloc` adds one cell of at least the requested size to the cells
that are handed out, and `kfree` of a cell takes exactly this cell back. The size
of the cell depends on the requested size alone.
-/

namespace DestinX

open Base List Option Nat

variable {s s' : Heap} {v : KheapView} {size a k : Nat}

/-- The bytes that a successful `kmalloc(size)` gives: a whole block for large
sizes, an object of the smallest fitting cache otherwise. -/
def usable (size : Nat) : Nat :=
  if 2048 < size then pageSize * 2 ^ (orderLoop size 64 pageSize 0).getD 0
  else (cacheSizes.find? fun z => size ≤ z).getD 0

/-- The caches have the object sizes of `init_slab`. -/
def StandardSizes (s : Heap) : Prop :=
  ∀ c < numCaches, (s.caches c).objSize = cacheSizes.getD c 0

lemma StandardSizes.congr (h : StandardSizes s) (hs : SameSizes s s') : StandardSizes s' :=
  fun c hc => (hs c).trans (h c hc)

/-! ## The choice of the size class -/

lemma orderLoop_le : ∀ fuel block order, block < 2 ^ 64 →
    orderLoop size fuel block order = some k → order ≤ k ∧ size ≤ block * 2 ^ (k - order) := by
  intro fuel
  induction fuel with
  | zero => simp [orderLoop]
  | succ fuel ih =>
    intro block order hb h
    rw [orderLoop] at h
    by_cases hlt : block < size
    · rw [if_pos hlt] at h
      obtain ⟨hle, hsize⟩ := ih _ _ (mod_lt _ (by norm_num)) h
      refine ⟨by omega, ?_⟩
      calc size ≤ block * 2 % 2 ^ 64 * 2 ^ (k - (order + 1)) := hsize
        _ ≤ block * 2 * 2 ^ (k - (order + 1)) := mul_le_mul_right _ (mod_le _ _)
        _ = block * 2 ^ (k - (order + 1) + 1) := by rw [mul_assoc, ← pow_succ']
        _ = block * 2 ^ (k - order) := by congr 2; omega
    · rw [if_neg hlt, some.injEq] at h
      subst h
      refine ⟨le_rfl, ?_⟩
      simpa using not_lt.mp hlt

lemma cacheSizes_eq : cacheSizes = (List.range numCaches).map fun i => cacheSizes.getD i 0 := rfl

/-- The cache that `kmalloc` picks for a small size. -/
lemma pick_cache (hs : StandardSizes s) (hsize : size ≤ 2048) :
    ∃ c < numCaches, ((List.range numCaches).find? fun i => size ≤ (s.caches i).objSize) = some c ∧
      (s.caches c).objSize = usable size ∧ size ≤ usable size := by
  have hfind : ((range numCaches).find? fun i => size ≤ (s.caches i).objSize) =
      (range numCaches).find? fun i => size ≤ cacheSizes.getD i 0 := by
    rw [← head?_filter, ← head?_filter]
    congr 1
    apply filter_congr
    intro i hi
    rw [hs i (mem_range.mp hi)]
  have husable : usable size = (((range numCaches).find? fun i =>
      size ≤ cacheSizes.getD i 0).map fun i => cacheSizes.getD i 0).getD 0 := by
    rw [usable, if_neg (by omega), cacheSizes_eq, find?_map]
    rfl
  cases hf : (range numCaches).find? fun i => size ≤ cacheSizes.getD i 0 with
  | none =>
    have h7 := find?_eq_none.mp hf 7 (by decide)
    simp [cacheSizes] at h7
    omega
  | some c =>
    have hc := mem_range.mp (mem_of_find?_eq_some hf)
    have hle : size ≤ cacheSizes.getD c 0 := by simpa using find?_some hf
    rw [hf] at husable
    exact ⟨c, hc, hfind.trans hf, (hs c hc).trans husable.symm, husable ▸ hle⟩

/-! ## One call -/

lemma buddyServe_cell (h : KheapInv s v) {order : Nat}
    (hrun : buddyServe s order = some (s', a)) :
    ∃ v' p, KheapInv s' v' ∧ SameSizes s s' ∧ a = (Cell.block p order).addr s ∧
      ¬ (Cell.block p order).Held s v ∧
      ∀ b : Cell, b.Held s' v' ↔ b.Held s v ∨ b = .block p order := by
  obtain ⟨_, p, free, rfl, hnone, hcore, hmd, hkeep⟩ := h.core.serve hrun
  have hoff := h.core.not_onList hnone
  have hsize : SameSizes s s' := fun c => by rw [hkeep.caches]
  refine ⟨_, p, ⟨hcore, ?_, ⟨h.sorted.partial_some, ?_, h.sorted.full_none⟩⟩, hsize, rfl, ?_, ?_⟩
  · intro q j hq
    by_cases hqp : q = p
    · subst hqp
      simp [hmd, hoff]
    · simp only [Function.update_of_ne hqp] at hq
      rw [hkeep.metadata q j hq]
      exact h.marked q j hq
  · rw [hkeep.caches]
    exact h.sorted.partial_used
  · rintro ⟨hlive, _⟩
    rw [hnone] at hlive
    cases hlive
  · intro b
    cases b with
    | block q j =>
      simp only [Cell.Held, Cell.block.injEq]
      by_cases hqp : q = p
      · subst hqp
        simp [hnone, hoff, eq_comm]
      · simp [hqp]
    | slot c q i => simp [Cell.Held, hkeep.caches]

/-- Handing out the cell marks as a slab at most the page of a slot. -/
def MarksSlab (s s' : Heap) : Cell → Prop
  | .block _ _ => NoNewSlab s s'
  | .slot _ p _ => ∀ q, (s'.metadata q).isSlab = true → (s.metadata q).isSlab = true ∨ q = p

/-- A successful `kmalloc` hands out one more cell, of at least the requested
size. -/
lemma kmalloc_spec (h : KheapInv s v) (hs : StandardSizes s)
    (hrun : kmalloc [] s size = some (s', a)) : (size = 0 ∧ a = 0 ∧ s' = s) ∨
      ∃ v' c, KheapInv s' v' ∧ SameSizes s s' ∧ a = Cell.addr s c ∧ ¬ c.Held s v ∧
        (∀ b : Cell, b.Held s' v' ↔ b.Held s v ∨ b = c) ∧ c.size s = usable size ∧
        size ≤ usable size ∧ MarksSlab s s' c := by
  rw [kmalloc] at hrun
  by_cases h0 : size = 0
  · rw [if_pos h0, some.injEq, Prod.mk.injEq] at hrun
    exact .inl ⟨h0, hrun.2.symm, hrun.1.symm⟩
  · right
    rw [if_neg h0] at hrun
    by_cases hbig : 2048 < size
    · rw [if_pos hbig, bind_eq_some_iff] at hrun
      obtain ⟨order, horder, hserve⟩ := hrun
      have hle := (orderLoop_le 64 pageSize 0 (by decide) horder).2
      have husable : usable size = pageSize * 2 ^ order := by
        rw [usable, if_pos hbig, horder, getD_some]
      obtain ⟨v', p, hinv, hsize, haddr, hnew, hheld⟩ := buddyServe_cell h hserve
      exact ⟨v', .block p order, hinv, hsize, haddr, hnew, hheld, husable.symm, husable ▸ hle,
        noNewSlab_buddyServe hserve⟩
    · obtain ⟨c, hc, hfind, hcs, hle⟩ := pick_cache hs (not_lt.mp hbig)
      rw [if_neg hbig, hfind] at hrun
      obtain ⟨v', p, i, hinv, hsize, haddr, hnew, hheld, hslab⟩ := slabAlloc_spec h hc hrun
      exact ⟨v', .slot c p i, hinv, hsize, haddr, hnew, hheld, hcs, hle, hslab⟩

lemma kfree_spec (h : KheapInv s v) {c : Cell} (hc : c.Held s v) :
    ∃ v', KheapInv (kfree s (c.addr s)) v' ∧ SameSizes s (kfree s (c.addr s)) ∧
      (∀ b : Cell, b.Held (kfree s (c.addr s)) v' ↔ b.Held s v ∧ b ≠ c) ∧
      NoNewSlab s (kfree s (c.addr s)) ∧
      ∀ d p i, c = .slot d p i → ((kfree s (c.addr s)).metadata p).isSlab = true →
        OnList v'.lists p := by
  cases c with
  | block p k =>
    have hp32 := h.core.live_lt hc.1
    have hslab : (s.metadata p).isSlab = false := by
      by_contra hslab
      exact hc.2 ((h.marked p k hc.1).mp (by simpa using hslab))
    obtain ⟨free, hcore, hkeep⟩ := h.core.release hc.1 hc.2
    have hrun : kfree s ((Cell.block p k).addr s) = buddyFree s (pageAddr p) := by
      rw [kfree, Cell.addr, if_neg (pageAddr_ne_zero p), pageIndex_pageAddr hp32, hslab]
      rfl
    rw [hrun]
    refine ⟨_, ⟨hcore, ?_, ⟨h.sorted.partial_some, ?_, h.sorted.full_none⟩⟩,
      fun c => by rw [hkeep.caches], ?_, noNewSlab_buddyFree _ _, fun d q i heq => ?_⟩
    · intro q j hq
      have hqp : q ≠ p := by
        rintro rfl
        simp at hq
      rw [hkeep.metadata q j hq]
      exact h.marked q j (by simpa [hqp] using hq)
    · rw [hkeep.caches]
      exact h.sorted.partial_used
    · intro b
      cases b with
      | block q j =>
        simp only [Cell.Held, ne_eq, Cell.block.injEq, not_and]
        by_cases hqp : q = p
        · subst hqp
          simp only [Function.update_self, reduceCtorEq, false_and, true_implies, false_iff,
            not_and, not_not]
          rintro ⟨hq, _⟩
          exact some.inj (hq.symm.trans hc.1)
        · simp [hqp]
      | slot c q i => simp [Cell.Held, hkeep.caches]
    · cases heq
  | slot c p i =>
    obtain ⟨⟨full, hp⟩, hi, _⟩ := id hc
    have hz := h.core.size_ge hp
    have hlive := h.core.slabLive ⟨full, c, hp⟩
    have hslab : (s.metadata p).isSlab = true := (h.marked p 0 hlive).mpr ⟨full, c, hp⟩
    have hne : objAddr (s.caches c).objSize p i ≠ 0 := by
      have hin := objAddr_inside (p := p) hi
      omega
    have hrun : kfree s ((Cell.slot c p i).addr s) = slabFree s ((Cell.slot c p i).addr s) := by
      rw [kfree, Cell.addr, if_neg hne, pageIndex_obj hz hi (h.core.live_lt hlive), if_pos hslab]
    rw [hrun]
    obtain ⟨v', hinv, hsize, hheld, hnone, hmark⟩ := slabFree_spec h hc rfl
    refine ⟨v', hinv, hsize, hheld, hnone, fun d q j heq => ?_⟩
    cases heq
    exact hmark

end DestinX
