import DestinX.Heap.BuddyInvariant

/-!
# What `buddy_alloc` and `buddy_free` do to the abstract state

The split loop and the merge loop are followed by induction on the order. In
both, the block being worked on is handed out at its current order; the loop
invariant is the representation invariant itself.
-/

namespace DestinX

open Base Function List Option Nat

variable {N : Nat} {s : Heap} {free : Nat → List Nat} {live : Nat → Option Nat} {p k i : Nat}

section

variable (hc : BuddyCore N s free live)
include hc

/-- The blocks may be renamed when they still tile the heap. -/
lemma BuddyCore.relabel {live' : Nat → Option Nat} (ht : Tiling N (blocks free live'))
    (ho : ∀ p k, live' p = some k → k ≤ maxOrders) (he : ∀ k, ∀ p ∈ free k, live' p = none) :
    BuddyCore N s free live' where
  lists := hc.lists
  orders := by
    rintro ⟨q, j⟩ (hq | hq)
    · exact hc.orders (q, j) (.inl hq)
    · exact ho q j hq
  marked := hc.marked
  unmarked := hc.unmarked
  tiling := ht
  exclusive := he

lemma BuddyCore.live_aligned (hp : live p = some k) :
    2 ^ k ∣ p := hc.tiling.aligned (p, k) (.inr hp)

/-- The upper half of a block that is handed out is not a block itself. -/
lemma BuddyCore.upper_half (hp : live p = some (i + 1)) :
    live (p + 2 ^ i) = none ∧ ∀ k, p + 2 ^ i ∉ free k := by
  have hpos : 0 < 2 ^ i := by positivity
  have hcov : Covers (p, i + 1) (p + 2 ^ i) := by
    simp only [Covers, pow_succ]
    omega
  have hno : ∀ j, (p + 2 ^ i, j) ∉ blocks free live := by
    intro j hj
    have heq := hc.tiling.apart _ (.inr hp) _ hj _ hcov (covers_self _ _)
    have := (Prod.mk.inj heq).1
    omega
  constructor
  · cases h : live (p + 2 ^ i) with
    | none => rfl
    | some j => exact absurd (.inr h) (hno j)
  · intro k hk
    exact hno k (.inl hk)

end

lemma update_update_none (hq : live k = none) (hne : p ≠ k) (v w : Option Nat) :
    update (update (update live p v) k w) k none = update live p v := by
  funext x
  by_cases hx : x = k
  · subst hx
    simp [hq, hne.symm]
  · simp [hx]

lemma BuddyCore.halve (hc : BuddyCore N s free live) (hp : live p = some (i + 1)) :
    BuddyCore N s free (update (update live p (some i)) (p + 2 ^ i) (some i)) := by
  obtain ⟨hnone, hnot⟩ := hc.upper_half hp
  have hpos : 0 < 2 ^ i := by positivity
  have hi : i + 1 ≤ maxOrders := hc.orders (p, i + 1) (.inr hp)
  apply hc.relabel
  · apply hc.tiling.split (.inr hp)
    rintro ⟨q, j⟩
    simp only [blocks, Set.mem_ofPred_eq, Prod.mk.injEq]
    by_cases hq : q = p + 2 ^ i
    · subst hq
      have := hnot j
      simp [this, hnone, eq_comm]
    · by_cases hqp : q = p
      · subst hqp
        have := hc.not_free hp j
        simp [this, hp, eq_comm]
      · simp [hq, hqp]
  · intro q j hq
    by_cases h1 : q = p + 2 ^ i
    · subst h1
      simp only [update_self, some.injEq] at hq
      omega
    · by_cases h2 : q = p
      · subst h2
        simp only [update_of_ne h1, update_self, some.injEq] at hq
        omega
      · rw [update_of_ne h1, update_of_ne h2] at hq
        exact hc.orders (q, j) (.inr hq)
  · intro j q hq
    have h1 : q ≠ p + 2 ^ i := fun h => hnot j (h ▸ hq)
    have h2 : q ≠ p := fun h => hc.not_free hp j (h ▸ hq)
    rw [update_of_ne h1, update_of_ne h2]
    exact hc.exclusive j q hq

/-- One round of the split loop: the upper half goes to its list. -/
lemma BuddyCore.split (hc : BuddyCore N s free live) (hN : N ≤ 2 ^ 32)
    (hp : live p = some (i + 1)) : BuddyCore N (buddyListAdd s (pageAddr (p + 2 ^ i)) i)
        (update free i ((p + 2 ^ i) :: free i)) (update live p (some i)) ∧
      Keeps s (buddyListAdd s (pageAddr (p + 2 ^ i)) i) (update live p none) := by
  obtain ⟨hnone, _⟩ := hc.upper_half hp
  have hpos : 0 < 2 ^ i := by positivity
  have hne : p ≠ p + 2 ^ i := by omega
  have hhalf := hc.halve hp
  have hupper : update (update live p (some i)) (p + 2 ^ i) (some i) (p + 2 ^ i) = some i := by simp
  have hadd := hhalf.listAdd hN hupper
  have hkeep := hhalf.listAdd_keeps hN hupper
  rw [update_update_none hnone hne] at hadd hkeep
  refine ⟨hadd, hkeep.mono ?_⟩
  intro q j hq
  by_cases hqp : q = p
  · subst hqp
    simp at hq
  · simpa [hqp] using hq

/-- The split loop hands out the block at the requested order. -/
lemma buddySplit_spec (hN : N ≤ 2 ^ 32) {order : Nat} :
    ∀ i s free live, BuddyCore N s free live → live p = some i → order ≤ i →
      ∃ free', BuddyCore N (buddySplit s (pageAddr p) order i) free' (update live p (some order)) ∧
        Keeps s (buddySplit s (pageAddr p) order i) (update live p none) ∧
        ∀ k q, q ∈ free' k ↔ q ∈ free k ∨ (order ≤ k ∧ k < i ∧ q = p + 2 ^ k) := by
  intro i
  induction i with
  | zero =>
    intro s free live hc hp ho
    obtain rfl : order = 0 := by omega
    rw [← hp, update_eq_self]
    exact ⟨free, hc, Keeps.refl s _, by simp⟩
  | succ i ih =>
    intro s free live hc hp ho
    by_cases hlt : order < i + 1
    · have hal := hc.live_aligned hp
      have hi : i ≤ maxOrders := by
        have := hc.orders (p, i + 1) (.inr hp)
        omega
      have hp32 : p < 2 ^ 32 := (hc.live_lt hp).trans_le hN
      obtain ⟨hc', hk⟩ := hc.split hN hp
      obtain ⟨free', hc'', hk', hfree⟩ := ih _ _ _ hc' (update_self _ _ _) (by omega)
      simp only [buddySplit, if_pos hlt]
      rw [pageAddr_xor hp32 hi, xor_two_pow_of_even hal]
      rw [update_idem] at hc'' hk'
      refine ⟨free', hc'', hk.trans hk', fun k q => ?_⟩
      rw [hfree]
      by_cases hki : k = i
      · subst hki
        have hown : order ≤ k ∧ k < k + 1 ↔ True := iff_of_true ⟨by omega, by omega⟩ trivial
        simp only [update_self, mem_cons, ← and_assoc, hown, true_and,
          lt_irrefl, and_false, false_and, or_false]
        exact or_comm
      · rw [update_of_ne hki]
        have hlast : k < i ↔ k < i + 1 := by omega
        rw [hlast]
    · obtain rfl : order = i + 1 := by omega
      simp only [buddySplit, if_neg hlt]
      rw [← hp, update_eq_self]
      refine ⟨free, hc, Keeps.refl s _, fun k q => ?_⟩
      have hno : ¬ (i + 1 ≤ k ∧ k < i + 1 ∧ q = p + 2 ^ k) := by omega
      rw [or_iff_left hno]

/-- The metadata of a block that is handed out may be rewritten as long as it
stays marked as not free. -/
lemma BuddyCore.setMetadata (hc : BuddyCore N s free live) (hp : live p = some k)
    {md : PageMetadata} (hmd : md.isFree = false) : BuddyCore N (s.setMetadata p md) free live where
  lists := hc.lists
  orders := hc.orders
  marked := by
    intro j q hq
    have hne : q ≠ p := fun h => hc.not_free hp j (h ▸ hq)
    simp only [Heap.setMetadata, update_of_ne hne]
    exact hc.marked j q hq
  unmarked := by
    intro q hq hfree
    by_cases hqp : q = p
    · subst hqp
      simp [Heap.setMetadata, hmd] at hfree
    · simp only [Heap.setMetadata, update_of_ne hqp] at hfree ⊢
      exact hc.unmarked q hq hfree
  tiling := hc.tiling
  exclusive := hc.exclusive

lemma Keeps.setMetadata {s' : Heap} (h : Keeps s s' live) (hp : live p = none)
    (md : PageMetadata) : Keeps s (s'.setMetadata p md) live where
  bytes := h.bytes
  metadata := by
    intro q k hq
    have hne : q ≠ p := by
      rintro rfl
      rw [hp] at hq
      cases hq
    simp only [Heap.setMetadata, update_of_ne hne]
    exact h.metadata q k hq
  caches := h.caches
  heapEnd := h.heapEnd
  size := h.size

/-- No two free blocks below the largest order are buddies. -/
def Coalesced (free : Nat → List Nat) : Prop :=
  ∀ k < maxOrders, ∀ p ∈ free k, p ^^^ 2 ^ k ∉ free k

/-- Splitting a block of order `i` when the lists from `order` to `i` are empty: each new
free block has its buddy around the block that is handed out. -/
lemma Coalesced.take {free' : Nat → List Nat} {order : Nat} (h : Coalesced free) (hal : 2 ^ i ∣ p)
    (hfirst : ∀ j, order ≤ j → j < i → free j = [])
    (hfree : ∀ k q, q ∈ free' k → (q ∈ free k ∧ q ≠ p) ∨ (order ≤ k ∧ k < i ∧ q = p + 2 ^ k)) :
    Coalesced free' := by
  intro k hk q hq hbuddy
  rcases hfree k q hq with ⟨hold, -⟩ | ⟨hok, hki, rfl⟩
  · rcases hfree k _ hbuddy with ⟨hold', -⟩ | ⟨hok, hki, -⟩
    · exact h k hk q hold hold'
    · simp [hfirst k hok hki] at hold
  · have hp : 2 ^ (k + 1) ∣ p := (pow_dvd_pow 2 hki).trans hal
    rw [xor_two_pow_of_odd hp] at hbuddy
    rcases hfree k p hbuddy with ⟨-, hne⟩ | ⟨-, -, heq⟩
    · exact hne rfl
    · omega

/-- A block that is given back at an order where its buddy is not free. -/
lemma Coalesced.give {free' : Nat → List Nat} {q j : Nat} (h : Coalesced free)
    (hsub : ∀ k x, x ∈ free' k → x ∈ free k) (hbuddy : j < maxOrders → q ^^^ 2 ^ j ∉ free' j) :
    Coalesced (update free' j (q :: free' j)) := by
  intro k hk x hx hx'
  have hpos : 0 < 2 ^ k := by positivity
  by_cases hkj : k = j
  · subst hkj
    simp only [update_self, mem_cons] at hx hx'
    rcases hx with rfl | hx
    · rcases hx' with heq | hx'
      · have hzero : 2 ^ k = 0 := by rw [← Nat.zero_xor (2 ^ k), ← Nat.xor_self x,
          Nat.xor_assoc, heq]
        omega
      · exact hbuddy hk hx'
    · rcases hx' with heq | hx'
      · apply hbuddy hk
        rwa [← heq, Nat.xor_assoc, Nat.xor_self, Nat.xor_zero]
      · exact h k hk x (hsub k x hx) (hsub k _ hx')
  · rw [update_of_ne hkj] at hx hx'
    exact h k hk x (hsub k x hx) (hsub k _ hx')

/-- The result of `buddy_alloc` when a list from `order` on is not empty. -/
lemma buddyTake_spec (hN : N ≤ 2 ^ 32) (hc : BuddyCore N s free live) {order : Nat}
    (ho : order ≤ i) (hi : i ≤ maxOrders) (hne : s.freeAreas i ≠ 0) :
    ∃ p free', (buddyTake s order i).2 = pageAddr p ∧ live p = none ∧
      BuddyCore N (buddyTake s order i).1 free' (update live p (some order)) ∧
      (buddyTake s order i).1.metadata p = ⟨order, false, false⟩ ∧
      Keeps s (buddyTake s order i).1 live ∧ 2 ^ i ∣ p ∧ p ∈ free i ∧
      ∀ k q, q ∈ free' k → (q ∈ free k ∧ q ≠ p) ∨ (order ≤ k ∧ k < i ∧ q = p + 2 ^ k) := by
  have hlist := hc.lists i hi
  obtain ⟨p, l, hl⟩ : ∃ p l, free i = p :: l := by
    cases hf : free i with
    | nil => exact absurd (hlist.head_zero_iff.mpr hf) hne
    | cons p l => exact ⟨p, l, rfl⟩
  have hp : p ∈ free i := by simp [hl]
  rw [hl] at hlist
  have hnone := hc.exclusive i p hp
  have hp32 : p < 2 ^ 32 := (hc.free_lt hp).trans_le hN
  have ho16 : order % 16 = order := mod_eq_of_lt (by simp only [maxOrders] at hi; omega)
  have hc1 := hc.listRemove hN hp
  have hk1 := hc.listRemove_keeps hN hp
  obtain ⟨free', hc2, hk2, hfree⟩ :=
    buddySplit_spec hN i _ _ _ hc1 (update_self p (some i) live) ho
  rw [update_idem] at hc2 hk2
  have hlive : update live p none = live := by rw [← hnone, update_eq_self]
  rw [hlive] at hk2
  refine ⟨p, free', hlist.head_eq, hnone, ?_⟩
  simp only [buddyTake, hlist.head_eq, pageIndex_pageAddr hp32, ho16]
  refine ⟨hc2.setMetadata (update_self p (some order) live) rfl,
    by simp [Heap.setMetadata], (hk1.trans hk2).setMetadata hnone _,
    hc.tiling.aligned (p, i) (.inl hp), hp, fun k q hq => ?_⟩
  rcases (hfree k q).mp hq with hold | hnew
  · refine .inl ⟨?_, ?_⟩
    · by_cases hki : k = i
      · subst hki
        rw [update_self] at hold
        exact mem_of_mem_erase hold
      · rwa [update_of_ne hki] at hold
    · rintro rfl
      exact hc1.not_free (update_self q (some i) live) k hold
  · exact .inr hnew

lemma buddyServe_spec (hN : N ≤ 2 ^ 32) (hc : BuddyCore N s free live) {order a : Nat}
    {s' : Heap} (h : buddyServe s order = some (s', a)) :
    order ≤ maxOrders ∧ ∃ p free', a = pageAddr p ∧ live p = none ∧
      BuddyCore N s' free' (update live p (some order)) ∧
      s'.metadata p = ⟨order, false, false⟩ ∧ Keeps s s' live ∧
      (Coalesced free → Coalesced free') := by
  simp only [buddyServe, map_eq_some_iff] at h
  obtain ⟨i, hfind, heq⟩ := h
  have hmem := mem_of_find?_eq_some hfind
  have hne : s.freeAreas i ≠ 0 := by simpa using find?_some hfind
  have hfirst : ∀ j, order ≤ j → j < i → free j = [] := by
    intro j hj hji
    have hzero : s.freeAreas j = 0 := by simpa using (find?_range'_eq_some.mp hfind).2.2 j hj hji
    exact (hc.lists j (by rw [mem_range'_1] at hmem; omega)).head_zero_iff.mp hzero
  rw [mem_range'_1] at hmem
  have hi : i ≤ maxOrders := by omega
  obtain ⟨p, free', ha, hnone, hc', hmd, hk, hal, -, hfree⟩ := buddyTake_spec hN hc hmem.1 hi hne
  rw [heq] at ha hc' hmd hk
  exact ⟨by omega, p, free', ha, hnone, hc', hmd, hk, fun h => h.take hal hfirst hfree⟩

/-! ## Joining blocks -/

lemma BuddyCore.join (hc : BuddyCore N s free live) (hl : live p = some i)
    (hr : live (p + 2 ^ i) = some i) (hal : 2 ^ (i + 1) ∣ p) (hi : i < maxOrders) :
    BuddyCore N s free (update (update live (p + 2 ^ i) none) p (some (i + 1))) := by
  apply hc.relabel
  · apply hc.tiling.merge (.inr hl) (.inr hr) hal
    rintro ⟨q, j⟩
    simp only [blocks, Set.mem_ofPred_eq, Prod.mk.injEq]
    by_cases hqp : q = p
    · subst hqp
      have := hc.not_free hl j
      simp [this, hl, eq_comm]
    · by_cases hq : q = p + 2 ^ i
      · subst hq
        have := hc.not_free hr j
        simp [this, hr, eq_comm]
      · simp [hq, hqp]
  · intro q j hq
    by_cases hqp : q = p
    · subst hqp
      simp only [update_self, some.injEq] at hq
      omega
    · rw [update_of_ne hqp] at hq
      by_cases hq' : q = p + 2 ^ i
      · subst hq'
        simp at hq
      · rw [update_of_ne hq'] at hq
        exact hc.orders (q, j) (.inr hq)
  · intro j q hq
    have h1 : q ≠ p := fun h => hc.not_free hl j (h ▸ hq)
    have h2 : q ≠ p + 2 ^ i := fun h => hc.not_free hr j (h ▸ hq)
    rw [update_of_ne h1, update_of_ne h2]
    exact hc.exclusive j q hq

/-- The lower of the block and its buddy. -/
def lower (p q : Nat) : Nat := if q < p then q else p

/-- One round of the merge loop: the buddy leaves its list and the two halves
become one block. -/
lemma BuddyCore.merge (hc : BuddyCore N s free live) (hN : N ≤ 2 ^ 32) (hp : live p = some i)
    (hq : p ^^^ 2 ^ i ∈ free i) (hi : i < maxOrders) :
    BuddyCore N (buddyListRemove s (pageAddr (p ^^^ 2 ^ i)) i)
        (update free i ((free i).erase (p ^^^ 2 ^ i)))
        (update (update live p none) (lower p (p ^^^ 2 ^ i)) (some (i + 1))) ∧
      Keeps s (buddyListRemove s (pageAddr (p ^^^ 2 ^ i)) i) (update live p none) := by
  have hnone := hc.exclusive i _ hq
  have hrem := hc.listRemove hN hq
  have hkeep := hc.listRemove_keeps hN hq
  refine ⟨?_, hkeep.mono ?_⟩
  rotate_left
  · intro q j hqj
    by_cases hqp : q = p
    · subst hqp
      simp at hqj
    · simpa [hqp] using hqj
  rcases aligned_cases (hc.live_aligned hp) with hal | ⟨q, rfl, hal⟩
  · -- the block is the left half
    rw [xor_two_pow_of_even hal] at *
    have hlow : lower p (p + 2 ^ i) = p := if_neg (by omega)
    have hne : p ≠ p + 2 ^ i := by omega
    have hj := hrem.join (by simp [hp]) (by simp) hal hi
    rw [hlow, update_idem]
    rw [update_idem] at hj
    have : update live (p + 2 ^ i) none = live := by rw [← hnone, update_eq_self]
    rwa [this] at hj
  · -- the block is the right half
    rw [xor_two_pow_of_odd hal] at *
    have hlow : lower (q + 2 ^ i) q = q := if_pos (by omega)
    have hne : q + 2 ^ i ≠ q := by omega
    have hj := hrem.join (by simp) (by simp [hp]) hal hi
    rw [hlow]
    rw [update_comm hne.symm, update_idem] at hj
    exact hj

/-- The buddy of a block lies in the heap when the heap is a multiple of the
largest block. -/
lemma BuddyCore.buddy_lt (hc : BuddyCore N s free live) (hN : 2 ^ maxOrders ∣ N)
    (hp : live p = some i) (hi : i < maxOrders) : p ^^^ 2 ^ i < N := by
  have hlt := hc.live_lt hp
  rcases aligned_cases (hc.live_aligned hp) with hal | ⟨q, rfl, hal⟩
  · rw [xor_two_pow_of_even hal]
    have hdvd : 2 ^ (i + 1) ∣ N := (pow_dvd_pow 2 hi).trans hN
    obtain ⟨a, rfl⟩ := hal
    obtain ⟨b, rfl⟩ := hdvd
    have hab : a + 1 ≤ b := by
      have := Nat.lt_of_mul_lt_mul_left hlt
      omega
    have hmul := mul_le_mul_left (2 ^ (i + 1)) hab
    rw [mul_add] at hmul
    omega
  · rw [xor_two_pow_of_odd hal]
    omega

/-- The merge loop ends with a block at an order that fits, which covers the
freed block; nothing else that is handed out is touched. -/
lemma buddyCoalesce_spec (hN : N ≤ 2 ^ 32) (hN' : 2 ^ maxOrders ∣ N) :
    ∀ n i s free live p, BuddyCore N s free live → live p = some i → i + n = maxOrders →
      ∃ q j free', (buddyCoalesce s (pageAddr p) i n).2 = (pageAddr q, j) ∧
        update live p none q = none ∧
        BuddyCore N (buddyCoalesce s (pageAddr p) i n).1 free'
          (update (update live p none) q (some j)) ∧
        Keeps s (buddyCoalesce s (pageAddr p) i n).1 (update live p none) ∧
        (∀ k x, x ∈ free' k → x ∈ free k) ∧ (j < maxOrders → q ^^^ 2 ^ j ∉ free' j) := by
  intro n
  induction n with
  | zero =>
    intro i s free live p hc hp hi
    refine ⟨p, i, free, rfl, by simp, ?_, Keeps.refl _ _, fun _ _ hx => hx, fun hlt => ?_⟩
    · rw [update_idem, ← hp, update_eq_self]
      exact hc
    · omega
  | succ n ih =>
    intro i s free live p hc hp hi
    have hp32 : p < 2 ^ 32 := (hc.live_lt hp).trans_le hN
    have hilt : i < maxOrders := by omega
    have hb := hc.buddy_lt hN' hp hilt
    simp only [buddyCoalesce, pageAddr_xor hp32 hilt.le, pageIndex_pageAddr (hb.trans_le hN)]
    by_cases htest : (s.metadata (p ^^^ 2 ^ i)).isFree = true ∧ (s.metadata (p ^^^ 2 ^ i)).order = i
    · have hq : p ^^^ 2 ^ i ∈ free i := by
        have := hc.unmarked _ hb htest.1
        rwa [htest.2] at this
      have hnone := hc.exclusive i _ hq
      obtain ⟨hc', hk⟩ := hc.merge hN hp hq hilt
      have haddr : (if pageAddr (p ^^^ 2 ^ i) < pageAddr p then pageAddr (p ^^^ 2 ^ i)
          else pageAddr p) = pageAddr (lower p (p ^^^ 2 ^ i)) := by
        simp only [lower]
        by_cases hlt : p ^^^ 2 ^ i < p
        · rw [if_pos hlt, if_pos (by simp only [pageAddr, pageSize]; omega)]
        · rw [if_neg hlt, if_neg (by simp only [pageAddr, pageSize]; omega)]
      rw [if_pos htest, haddr]
      obtain ⟨q, j, free', hres, hqn, hc'', hk', hsub, hbuddy⟩ :=
        ih (i + 1) _ _ _ _ hc' (update_self _ _ _) (by omega)
      have hback : update (update (update live p none)
          (lower p (p ^^^ 2 ^ i)) (some (i + 1))) (lower p (p ^^^ 2 ^ i)) none =
            update live p none := by
        rw [update_idem, update_eq_self_iff, lower]
        by_cases hlt : p ^^^ 2 ^ i < p
        · rw [if_pos hlt, update_of_ne hlt.ne, hnone]
        · rw [if_neg hlt, update_self]
      rw [hback] at hqn hc'' hk'
      refine ⟨q, j, free', hres, hqn, hc'', hk.trans hk', fun k x hx => ?_, hbuddy⟩
      have hx' := hsub k x hx
      by_cases hki : k = i
      · subst hki
        rw [update_self] at hx'
        exact mem_of_mem_erase hx'
      · rwa [update_of_ne hki] at hx'
    · rw [if_neg htest]
      refine ⟨p, i, free, rfl, by simp, ?_, Keeps.refl _ _, fun _ _ hx => hx,
        fun _ hfree => htest (hc.marked i _ hfree)⟩
      rw [update_idem, ← hp, update_eq_self]
      exact hc

lemma buddyFree_spec (hN : N ≤ 2 ^ 32) (hN' : 2 ^ maxOrders ∣ N)
    (hc : BuddyCore N s free live) (hp : live p = some k) (hk : (s.metadata p).order = k) :
    ∃ free', BuddyCore N (buddyFree s (pageAddr p)) free' (update live p none) ∧
      Keeps s (buddyFree s (pageAddr p)) (update live p none) ∧
      (Coalesced free → Coalesced free') := by
  have hp32 : p < 2 ^ 32 := (hc.live_lt hp).trans_le hN
  have hkm : k ≤ maxOrders := hc.orders (p, k) (.inr hp)
  obtain ⟨q, j, free', hres, hqn, hc', hkeep, hsub, hbuddy⟩ :=
    buddyCoalesce_spec hN hN' (maxOrders - k) k s free live p hc hp (by omega)
  simp only [buddyFree, pageIndex_pageAddr hp32, hk, hres]
  have hlive : update (update live p none) q (some j) q = some j := by simp
  have hadd := hc'.listAdd hN hlive
  have hkeep' := hc'.listAdd_keeps hN hlive
  have hback : update (update (update live p none) q (some j)) q none = update live p none := by
    rw [update_idem, update_eq_self_iff]
    exact hqn.symm
  rw [hback] at hadd hkeep'
  exact ⟨_, hadd, hkeep.trans hkeep', fun h => h.give hsub hbuddy⟩

end DestinX
