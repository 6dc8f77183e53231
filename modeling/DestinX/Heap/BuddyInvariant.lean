import DestinX.Heap.BuddyLists

/-!
# The representation invariant of the buddy allocator

The abstract state is the list of free blocks of every order and the partial map from first
pages to orders of the blocks handed out. A block that an operation is working on counts as
handed out, so taking it from a list, halving it, joining it with its buddy and giving it back
are four moves that each keep the invariant.
-/

namespace DestinX

open Base Function List Prod

/-- The free blocks and the blocks handed out, as pairs of first page and order. -/
def blocks (free : Nat → List Nat) (live : Nat → Option Nat) : Set (Nat × Nat) :=
  {b | b.1 ∈ free b.2 ∨ live b.1 = some b.2}

/-- The heap `s` of `N` pages represents the free lists `free` and the blocks
`live`. Stale metadata of inner pages is harmless because `is_free` is clear. -/
structure BuddyCore (N : Nat) (s : Heap) (free : Nat → List Nat) (live : Nat → Option Nat) :
    Prop where
  lists : ∀ k ≤ maxOrders, FreeList s.mem (s.freeAreas k) (free k)
  orders : ∀ b ∈ blocks free live, b.2 ≤ maxOrders
  marked : ∀ k, ∀ p ∈ free k, (s.metadata p).isFree = true ∧ (s.metadata p).order = k
  unmarked : ∀ p < N, (s.metadata p).isFree = true → p ∈ free (s.metadata p).order
  tiling : Tiling N (blocks free live)
  exclusive : ∀ k, ∀ p ∈ free k, live p = none

/-- Nothing that belongs to the blocks of `live` differs between `s` and `s'`. -/
structure Keeps (s s' : Heap) (live : Nat → Option Nat) : Prop where
  bytes : ∀ q k x, live q = some k → pageAddr q ≤ x → x < pageAddr q + pageSize * 2 ^ k →
    s'.mem x = s.mem x
  metadata : ∀ q k, live q = some k → s'.metadata q = s.metadata q
  caches : s'.caches = s.caches
  heapEnd : s'.currentHeapEnd = s.currentHeapEnd
  size : s'.metadataSize = s.metadataSize

lemma Keeps.refl (s : Heap) (live : Nat → Option Nat) : Keeps s s live :=
  ⟨fun _ _ _ _ _ _ => rfl, fun _ _ _ => rfl, rfl, rfl, rfl⟩

lemma Keeps.trans {s1 s2 s3 : Heap} {live : Nat → Option Nat} (h : Keeps s1 s2 live)
    (h' : Keeps s2 s3 live) : Keeps s1 s3 live where
  bytes q k x hq hx hx' := (h'.bytes q k x hq hx hx').trans (h.bytes q k x hq hx hx')
  metadata q k hq := (h'.metadata q k hq).trans (h.metadata q k hq)
  caches := h'.caches.trans h.caches
  heapEnd := h'.heapEnd.trans h.heapEnd
  size := h'.size.trans h.size

lemma Keeps.mono {s s' : Heap} {live live' : Nat → Option Nat} (h : Keeps s s' live')
    (hsub : ∀ q k, live q = some k → live' q = some k) : Keeps s s' live where
  bytes q k x hq := h.bytes q k x (hsub q k hq)
  metadata q k hq := h.metadata q k (hsub q k hq)
  caches := h.caches
  heapEnd := h.heapEnd
  size := h.size

variable {N : Nat} {s : Heap} {free : Nat → List Nat} {live : Nat → Option Nat} {p k : Nat}

section

variable (hc : BuddyCore N s free live)
include hc

lemma BuddyCore.free_lt (hp : p ∈ free k) : p < N := by
  have h := hc.tiling.inside (p, k) (.inl hp)
  have hpos : 0 < 2 ^ k := by positivity
  simp only at h
  omega

lemma BuddyCore.live_lt (hp : live p = some k) : p < N := by
  have h := hc.tiling.inside (p, k) (.inr hp)
  have hpos : 0 < 2 ^ k := by positivity
  simp only at h
  omega

lemma BuddyCore.not_free (hp : live p = some k) (j : Nat) : p ∉ free j := by
  intro hj
  rw [hc.exclusive j p hj] at hp
  cases hp

/-- The node of a free block lies outside every other block. -/
lemma BuddyCore.node_outside {q j p' j' x : Nat} (hq : (q, j) ∈ blocks free live)
    (hp' : (p', j') ∈ blocks free live) (hne : (q, j) ≠ (p', j')) (hx : pageAddr q ≤ x)
    (hx' : x < pageAddr q + pageSize * 2 ^ j) : x < pageAddr p' ∨ pageAddr p' + 16 ≤ x := by
  have hd := hc.tiling.disjoint hq hp' hne
  have hpos : 0 < 2 ^ j' := by positivity
  simp only [pageAddr, pageSize] at *
  omega

end

lemma node_in_block {q j x : Nat} (hx' : x < pageAddr q + 16) :
    x < pageAddr q + pageSize * 2 ^ j := by
  have hpos : 0 < 2 ^ j := by positivity
  simp only [pageSize]
  omega

section

variable (hc : BuddyCore N s free live)
include hc

/-- Stores into blocks that are handed out do not reach the free lists. -/
lemma BuddyCore.transport {s' : Heap}
    (hmem : ∀ x, s'.mem x ≠ s.mem x → ∃ q j, live q = some j ∧ pageAddr q ≤ x ∧
      x < pageAddr q + pageSize * 2 ^ j)
    (hareas : s'.freeAreas = s.freeAreas) (hmd : s'.metadata = s.metadata) :
    BuddyCore N s' free live where
  lists := by
    intro k hk
    rw [hareas]
    apply (hc.lists k hk).congr
    intro p hp x hx hx'
    by_contra hne
    obtain ⟨q, j, hq, hqx, hqx'⟩ := hmem x hne
    have := hc.node_outside (.inr hq) (.inl hp)
      (fun h => hc.not_free hq k ((mk.inj h).1 ▸ hp)) hqx hqx'
    omega
  orders := hc.orders
  marked := by
    rw [hmd]
    exact hc.marked
  unmarked := by
    rw [hmd]
    exact hc.unmarked
  tiling := hc.tiling
  exclusive := hc.exclusive

/-! ## Giving a block back to its list -/

lemma blocks_release (hp : live p = some k) :
    blocks (update free k (p :: free k)) (update live p none) = blocks free live := by
  ext ⟨q, j⟩
  simp only [blocks, Set.mem_ofPred_eq]
  by_cases hq : q = p
  · subst hq
    by_cases hj : j = k
    · subst hj
      simp [hp]
    · have := hc.not_free hp j
      have hne : ¬ k = j := fun h => hj h.symm
      simp [hj, hp, this, hne]
  · by_cases hj : j = k
    · subst hj
      simp [hq]
    · simp [hq, hj]

lemma BuddyCore.listAdd_keeps (hN : N ≤ 2 ^ 32) (hp : live p = some k) :
    Keeps s (buddyListAdd s (pageAddr p) k) (update live p none) := by
  have hk : k ≤ maxOrders := hc.orders (p, k) (.inr hp)
  have hlt : p < 2 ^ 32 := (hc.live_lt hp).trans_le hN
  refine ⟨?_, ?_, rfl, rfl, rfl⟩
  · intro q j x hq hx hx'
    have hqp : q ≠ p := by
      rintro rfl
      simp at hq
    rw [update_of_ne hqp] at hq
    apply buddyListAdd_outside (hc.lists k hk)
    intro p' hp'
    rcases mem_cons.mp hp' with rfl | hp'
    · exact hc.node_outside (.inr hq) (.inr hp) (fun h => hqp (mk.inj h).1) hx hx'
    · refine hc.node_outside (.inr hq) (.inl hp') (fun h => ?_) hx hx'
      exact hc.not_free hq k ((mk.inj h).1 ▸ hp')
  · intro q j hq
    have hqp : q ≠ p := by
      rintro rfl
      simp at hq
    rw [buddyListAdd_metadata s k hlt, update_of_ne hqp]

lemma BuddyCore.listAdd (hN : N ≤ 2 ^ 32) (hp : live p = some k) :
    BuddyCore N (buddyListAdd s (pageAddr p) k) (update free k (p :: free k))
      (update live p none) := by
  have hk : k ≤ maxOrders := hc.orders (p, k) (.inr hp)
  have hlt : p < 2 ^ 32 := (hc.live_lt hp).trans_le hN
  have hk16 : k % 16 = k := Nat.mod_eq_of_lt (by simp only [maxOrders] at hk; omega)
  have hb := blocks_release hc hp
  refine ⟨?_, ?_, ?_, ?_, ?_, ?_⟩
  · intro j hj
    rw [buddyListAdd_freeAreas]
    by_cases hjk : j = k
    · subst hjk
      simp only [update_self]
      exact buddyListAdd_list (hc.lists j hj) (hc.not_free hp j) hlt
        fun q hq => (hc.free_lt hq).trans_le hN
    · rw [update_of_ne hjk, update_of_ne hjk]
      apply (hc.lists j hj).congr
      intro q hq x hx hx'
      apply buddyListAdd_outside (hc.lists k hk)
      intro p' hp'
      rcases mem_cons.mp hp' with rfl | hp'
      · refine hc.node_outside (.inl hq) (.inr hp) (fun h => ?_) hx (node_in_block hx')
        exact hjk (mk.inj h).2
      · refine hc.node_outside (.inl hq) (.inl hp') (fun h => ?_) hx (node_in_block hx')
        exact hjk (mk.inj h).2
  · rw [hb]
    exact hc.orders
  · intro j q hq
    rw [buddyListAdd_metadata s k hlt]
    by_cases hqp : q = p
    · subst hqp
      by_cases hjk : j = k
      · subst hjk
        simp [hk16]
      · rw [update_of_ne hjk] at hq
        exact absurd hq (hc.not_free hp j)
    · rw [update_of_ne hqp]
      apply hc.marked j q
      by_cases hjk : j = k
      · subst hjk
        simpa [hqp] using hq
      · simpa [hjk] using hq
  · intro q hq hfree
    rw [buddyListAdd_metadata s k hlt] at hfree ⊢
    by_cases hqp : q = p
    · subst hqp
      simp [hk16]
    · rw [update_of_ne hqp] at hfree ⊢
      have hmem := hc.unmarked q hq hfree
      by_cases hjk : (s.metadata q).order = k
      · rw [hjk] at hmem ⊢
        simp [hmem]
      · simpa [hjk] using hmem
  · rw [hb]
    exact hc.tiling
  · intro j q hq
    by_cases hqp : q = p
    · subst hqp
      simp
    · rw [update_of_ne hqp]
      apply hc.exclusive j q
      by_cases hjk : j = k
      · subst hjk
        simpa [hqp] using hq
      · simpa [hjk] using hq

/-! ## Taking a block from its list -/

lemma blocks_take (hp : p ∈ free k) (hnd : (free k).Nodup) :
    blocks (update free k ((free k).erase p)) (update live p (some k)) = blocks free live := by
  have hnone := hc.exclusive k p hp
  have huniq : ∀ j, p ∈ free j → j = k := fun j hj =>
    (hc.tiling.order_unique (.inl hp) (.inl hj)).symm
  ext ⟨q, j⟩
  simp only [blocks, Set.mem_ofPred_eq]
  by_cases hq : q = p
  · subst hq
    by_cases hj : j = k
    · subst hj
      simp [hp]
    · have hne : ¬ k = j := fun h => hj h.symm
      have hnot : q ∉ free j := fun h => hj (huniq j h)
      simp [hj, hne, hnot, hnone]
  · by_cases hj : j = k
    · subst hj
      simp [hq, hnd.mem_erase_iff]
    · simp [hq, hj]

lemma BuddyCore.listRemove_keeps (hN : N ≤ 2 ^ 32) (hp : p ∈ free k) :
    Keeps s (buddyListRemove s (pageAddr p) k) live := by
  have hk : k ≤ maxOrders := hc.orders (p, k) (.inl hp)
  have hlt : p < 2 ^ 32 := (hc.free_lt hp).trans_le hN
  obtain ⟨l1, l2, hl⟩ := append_of_mem hp
  have hlist := hc.lists k hk
  rw [hl] at hlist
  refine ⟨?_, ?_, rfl, rfl, rfl⟩
  · intro q j x hq hx hx'
    apply buddyListRemove_outside hlist
    intro p' hp'
    rw [← hl] at hp'
    refine hc.node_outside (.inr hq) (.inl hp') (fun h => ?_) hx hx'
    exact hc.not_free hq k ((mk.inj h).1 ▸ hp')
  · intro q j hq
    rw [buddyListRemove_metadata s k hlt, update_of_ne]
    rintro rfl
    exact hc.not_free hq k hp

lemma BuddyCore.listRemove (hN : N ≤ 2 ^ 32) (hp : p ∈ free k) :
    BuddyCore N (buddyListRemove s (pageAddr p) k)
      (update free k ((free k).erase p)) (update live p (some k)) := by
  have hk : k ≤ maxOrders := hc.orders (p, k) (.inl hp)
  have hlt : p < 2 ^ 32 := (hc.free_lt hp).trans_le hN
  have hnd : (free k).Nodup := (hc.lists k hk).nodup
  have hb := blocks_take hc hp hnd
  obtain ⟨l1, l2, hl⟩ := append_of_mem hp
  have hlist := hc.lists k hk
  rw [hl] at hlist
  have herase : (free k).erase p = l1 ++ l2 := by
    rw [hl] at hnd ⊢
    have hp1 : p ∉ l1 := by
      intro h
      exact (nodup_append.mp hnd).2.2 p h p (by simp) rfl
    rw [erase_append_right _ hp1, erase_cons_head]
  have hsub : ∀ j q, q ∈ update free k ((free k).erase p) j → q ∈ free j ∧ q ≠ p := by
    intro j q hq
    by_cases hjk : j = k
    · subst hjk
      rw [update_self, hnd.mem_erase_iff] at hq
      exact ⟨hq.2, hq.1⟩
    · rw [update_of_ne hjk] at hq
      refine ⟨hq, ?_⟩
      rintro rfl
      exact hjk (hc.tiling.order_unique (.inl hq) (.inl hp))
  refine ⟨?_, ?_, ?_, ?_, ?_, ?_⟩
  · intro j hj
    by_cases hjk : j = k
    · subst hjk
      rw [update_self, herase]
      exact buddyListRemove_list hlist
    · have hareas : (buddyListRemove s (pageAddr p) k).freeAreas j = s.freeAreas j := by
        rw [buddyListRemove_freeAreas]
        by_cases h0 : load64 s.mem (pageAddr p) = 0
        · rw [if_pos h0, update_of_ne hjk]
        · rw [if_neg h0]
      rw [hareas, update_of_ne hjk]
      apply (hc.lists j hj).congr
      intro q hq x hx hx'
      apply buddyListRemove_outside hlist
      intro p' hp'
      rw [← hl] at hp'
      refine hc.node_outside (.inl hq) (.inl hp') (fun h => ?_) hx (node_in_block hx')
      exact hjk (mk.inj h).2
  · rw [hb]
    exact hc.orders
  · intro j q hq
    obtain ⟨hq, hqp⟩ := hsub j q hq
    rw [buddyListRemove_metadata s k hlt, update_of_ne hqp]
    exact hc.marked j q hq
  · intro q hq hfree
    rw [buddyListRemove_metadata s k hlt] at hfree ⊢
    by_cases hqp : q = p
    · subst hqp
      simp at hfree
    · rw [update_of_ne hqp] at hfree ⊢
      have hmem := hc.unmarked q hq hfree
      by_cases hjk : (s.metadata q).order = k
      · rw [hjk] at hmem ⊢
        simp [hnd.mem_erase_iff, hmem, hqp]
      · simpa [hjk] using hmem
  · rw [hb]
    exact hc.tiling
  · intro j q hq
    obtain ⟨hq, hqp⟩ := hsub j q hq
    rw [update_of_ne hqp]
    exact hc.exclusive j q hq

end

end DestinX
