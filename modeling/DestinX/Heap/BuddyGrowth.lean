import DestinX.Heap.BuddyRuns

/-!
# Growth of the heap

When no free list can serve a request, `buddy_alloc` maps `START_PAGES` new pages at
`current_heap_end` and inserts the new block into `free_areas[MAX_ORDERS]`. It then advances
`current_heap_end` by `START_PAGES`, a number of pages where a number of bytes is needed: the
second growth starts one page after the first one.
-/

namespace DestinX

open Base Function List

/-- What one growth should do: insert an aligned block of `START_PAGES` pages at
the end of the heap and move the end behind it. -/
structure SoundGrowth (before after : Heap) : Prop where
  starts : after.freeAreas maxOrders = before.currentHeapEnd
  aligned : startPages * pageSize ∣ before.currentHeapEnd - heapStart
  ends : after.currentHeapEnd = before.currentHeapEnd + startPages * pageSize

/-- What the heap should satisfy after the growths in `log`: each of them was
sound and added pages the heap did not have, the end of the heap and the
metadata array account for all of them, and the blocks partition the enlarged
heap. -/
structure SoundHeap (t : BuddySystem) (log : List (Heap × Heap)) : Prop where
  each : ∀ g ∈ log, SoundGrowth g.1 g.2
  fresh : ∀ g ∈ log, heapStart + startPages * pageSize ≤ g.1.currentHeapEnd
  disjoint : log.Pairwise fun g g' =>
    g.1.currentHeapEnd + startPages * pageSize ≤ g'.1.currentHeapEnd
  heapEnd : t.heap.currentHeapEnd = heapStart + startPages * (log.length + 1) * pageSize
  covered : startPages * (log.length + 1) ≤ t.heap.metadataSize
  partition : ∃ free, BuddyRep (startPages * (log.length + 1)) t.heap free t.live

variable {s : Heap} {p : Nat}

/-- A growth moves the end of the heap by one page. -/
lemma buddyGrow_currentHeapEnd (s : Heap) (g : Growth) :
    (buddyGrow s g).currentHeapEnd = s.currentHeapEnd + pageSize := by
  unfold buddyGrow
  rfl

lemma not_soundGrowth (s : Heap) (g : Growth) : ¬ SoundGrowth s (buddyGrow s g) := by
  intro h
  have he := h.ends
  rw [buddyGrow_currentHeapEnd] at he
  simp only [startPages, pageSize] at he
  omega

/-! ## Runs -/

lemma BuddyRun.answered {s0 : Heap} {t : BuddySystem} {calls : List AllocCall}
    (run : BuddyRun s0 t calls) : ∀ c ∈ calls, ∃ r, buddyAlloc c.env c.heap c.order = some r := by
  induction run with
  | init => simp
  | alloc run env order heap a _ h ih =>
    intro c hc
    rcases mem_append.mp hc with hc | hc
    · exact ih c hc
    · rw [mem_singleton.mp hc]
      exact ⟨_, h⟩
  | free run p k h ih => exact ih
  | write run p k x v h hx hx' ih => exact ih

/-- A call that the free lists cannot serve, and that is answered all the same,
grows the heap. -/
lemma AllocCall.grows {c : AllocCall} (hc : ¬ c.Served)
    (h : ∃ r, buddyAlloc c.env c.heap c.order = some r) :
    ∃ g, (c.heap, buddyGrow c.heap g) ∈ buddyGrowths c.env c.heap c.order := by
  have hnone := c.not_served_iff.mp hc
  obtain ⟨r, hr⟩ := h
  cases henv : c.env with
  | nil =>
    rw [henv, buddyAlloc, hnone] at hr
    cases hr
  | cons g env => exact ⟨g, by simp [buddyGrowths, hnone]⟩

lemma growths_of_served {calls : List AllocCall} (h : ∀ c ∈ calls, c.Served) :
    growths calls = [] := by
  apply flatMap_eq_nil_iff.mpr
  intro c hc
  cases henv : c.env with
  | nil => rfl
  | cons g env =>
    cases hs : buddyServe c.heap c.order with
    | some r => simp [buddyGrowths, hs]
    | none => exact absurd (h c hc) (c.not_served_iff.mpr hs)

/-- A run keeps the heap sound exactly when the free lists serve each of its
allocations, so that the growth path is never taken. -/
theorem growth_sound_iff_served {s₀ : Heap} {t : BuddySystem} {calls : List AllocCall}
    (run : BuddyRun s₀ t calls) : SoundHeap t (growths calls) ↔ ∀ c ∈ calls, c.Served := by
  constructor
  · intro h c hc
    by_contra hns
    obtain ⟨g, hg⟩ := AllocCall.grows hns (run.answered c hc)
    exact not_soundGrowth _ g (h.each _ (mem_flatMap.mpr ⟨c, hc, hg⟩))
  · intro hserved
    have hi := run.inv hserved
    obtain ⟨free, hc⟩ := hi.core
    rw [growths_of_served hserved]
    exact ⟨by simp, by simp, List.Pairwise.nil, hi.heapEnd, hi.size.ge, free, hc.rep hi.order⟩

theorem growth_sound_merged :
    ∃ t calls, BuddyRun zeroHeap t calls ∧ SoundHeap t (growths calls) := by
  obtain ⟨t, calls, run, hserved, _⟩ := served_run_merged
  exact ⟨t, calls, run, (growth_sound_iff_served run).mpr hserved⟩

/-! ## Two growths hand out overlapping blocks -/

/-- Taking the only free block leaves all free lists empty. -/
lemma buddyServe_last (hl : FreeList s.mem (s.freeAreas maxOrders) [p])
    (h0 : ∀ i < maxOrders, s.freeAreas i = 0) :
    ∃ s', buddyServe s maxOrders = some (s', pageAddr p) ∧
      (∀ i ≤ maxOrders, s'.freeAreas i = 0) ∧ s'.currentHeapEnd = s.currentHeapEnd := by
  have hhead := hl.head_eq
  have hne : s.freeAreas maxOrders ≠ 0 := hhead ▸ pageAddr_ne_zero p
  have hserve : buddyServe s maxOrders = some (buddyTake s maxOrders maxOrders) := by
    simp [buddyServe, hne]
  have hareas : (buddyTake s maxOrders maxOrders).1.freeAreas =
      (buddyListRemove s (pageAddr p) maxOrders).freeAreas := by
    rw [← hhead]
    rfl
  refine ⟨(buddyTake s maxOrders maxOrders).1, ?_, ?_, rfl⟩
  · rw [hserve, ← hhead]
    rfl
  · intro i hi
    rw [hareas]
    rcases Nat.lt_or_eq_of_le hi with hlt | rfl
    · rw [buddyListRemove_freeAreas]
      split
      · rw [update_of_ne hlt.ne, h0 i hlt]
      · exact h0 i hlt
    · have hl' : FreeList s.mem (s.freeAreas maxOrders) ([] ++ p :: []) := hl
      exact (buddyListRemove_list hl').head_zero_iff.mpr rfl

/-- With nothing free, a growth serves a whole block from the end of the heap and
leaves the end inside that block. -/
lemma buddyAlloc_grow (h0 : ∀ i ≤ maxOrders, s.freeAreas i = 0)
    (hend : s.currentHeapEnd = pageAddr p) (hp : p < 2 ^ 32) (g : Growth) :
    ∃ s', buddyAlloc [g] s maxOrders = some (s', pageAddr p) ∧
      (∀ i ≤ maxOrders, s'.freeAreas i = 0) ∧ s'.currentHeapEnd = pageAddr (p + 1) := by
  have hnone : buddyServe s maxOrders = none :=
    buddyServe_eq_none_iff.mpr fun i _ hi => h0 i hi
  have hareas : (buddyGrow s g).freeAreas = update s.freeAreas maxOrders (pageAddr p) := by
    unfold buddyGrow
    rw [hend]
    rfl
  have hl : FreeList (buddyGrow s g).mem ((buddyGrow s g).freeAreas maxOrders) [p] := by
    unfold buddyGrow
    dsimp only
    rw [hend]
    apply buddyListAdd_list _ (not_mem_nil) hp (by simp)
    simp only [h0 maxOrders le_rfl]
    exact ⟨rfl, trivial⟩
  have hempty : ∀ i < maxOrders, (buddyGrow s g).freeAreas i = 0 := by
    intro i hi
    rw [hareas, update_of_ne hi.ne, h0 i hi.le]
  obtain ⟨s', hs', hfree, he⟩ := buddyServe_last hl hempty
  refine ⟨s', ?_, hfree, ?_⟩
  · rw [buddyAlloc, hnone]
    exact hs'
  · rw [he, buddyGrow_currentHeapEnd, hend, pageAddr, pageAddr, Nat.mul_succ, Nat.add_assoc]

/-- Three requests for a block of the largest order. The third one is answered
with a block that starts one page into the second one. -/
theorem buddy_growth_overlaps :
    ∃ t calls, BuddyRun zeroHeap t calls ∧ t.live 4096 = some maxOrders ∧
      t.live 4097 = some maxOrders ∧ ¬ SoundHeap t (growths calls) := by
  have hinit := initBuddy_core zeroHeap
  obtain ⟨s1, h1, hf1, he1⟩ := buddyServe_last (hinit.lists maxOrders le_rfl) (by decide)
  have hend1 : s1.currentHeapEnd = pageAddr 4096 := he1
  let g : Growth := ⟨fun _ => 0, fun _ => ⟨0, false, false⟩⟩
  obtain ⟨s2, h2, hf2, he2⟩ := buddyAlloc_grow hf1 hend1 (by norm_num) g
  obtain ⟨s3, h3, hf3, he3⟩ := buddyAlloc_grow hf2 he2 (by norm_num) g
  have run1 := BuddyRun.init.alloc [] maxOrders s1 _ le_rfl h1
  have run2 := run1.alloc [g] maxOrders s2 _ le_rfl h2
  have run3 := run2.alloc [g] maxOrders s3 _ le_rfl h3
  have hidx : pageIndex (pageAddr 4096) = 4096 := by decide
  have hidx' : pageIndex (pageAddr (4096 + 1)) = 4097 := by decide
  refine ⟨_, _, run3, ?_, ?_, ?_⟩
  · simp [hidx, hidx']
  · simp [hidx']
  · intro h
    have hmem : (s1, buddyGrow s1 g) ∈ buddyGrowths [g] s1 maxOrders := by
      simp [buddyGrowths, buddyServe_eq_none_iff.mpr fun i _ hi => hf1 i hi]
    apply not_soundGrowth s1 g
    apply h.each (s1, buddyGrow s1 g)
    simp only [growths, flatMap_append, mem_append]
    exact .inl (.inr (mem_flatMap.mpr ⟨_, mem_singleton_self _, hmem⟩))

end DestinX
