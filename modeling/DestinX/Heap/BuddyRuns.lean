import DestinX.Heap.BuddySpec

/-!
# Whole runs of the buddy allocator

A run starts in the state that `init_buddy` leaves, whatever memory held before,
and takes any sequence of `buddy_alloc`, `buddy_free` of a block that is handed
out, and stores of the owners into their own blocks. Every growth of the heap is
recorded with the heap before and after it.
-/

namespace DestinX

open Base Function List Option

/-- The heap together with the blocks handed out, as a map from first pages to
orders. -/
structure BuddySystem where
  heap : Heap
  live : Nat → Option Nat

/-- One call of `buddy_alloc`: the memory the environment can still give, the
heap before the call and the requested order. -/
structure AllocCall where
  env : List Growth
  heap : Heap
  order : Nat

/-- Some `free_areas[i]` with `i ≥ order` is not empty, so that the search loop
serves the call and the growth path is not reached. -/
def AllocCall.Served (c : AllocCall) : Prop :=
  ∃ i, c.order ≤ i ∧ i ≤ maxOrders ∧ c.heap.freeAreas i ≠ 0

/-- The heaps before and after each growth inside one call of `buddy_alloc`. -/
def buddyGrowths : List Growth → Heap → Nat → List (Heap × Heap)
  | [], _, _ => []
  | g :: env, s, order =>
    match buddyServe s order with
    | some _ => []
    | none => (s, buddyGrow s g) :: buddyGrowths env (buddyGrow s g) order

/-- All growths of a sequence of calls, oldest first. -/
def growths (calls : List AllocCall) : List (Heap × Heap) :=
  calls.flatMap fun c => buddyGrowths c.env c.heap c.order

/-- The states that runs from `init_buddy` reach, with the calls of
`buddy_alloc` on the way. -/
inductive BuddyRun (s₀ : Heap) : BuddySystem → List AllocCall → Prop
  | init : BuddyRun s₀ ⟨initBuddy s₀, fun _ => none⟩ []
  | alloc {t : BuddySystem} {calls : List AllocCall} (run : BuddyRun s₀ t calls)
      (env : List Growth) (order : Nat) (heap : Heap) (a : Nat) (ho : order ≤ maxOrders)
      (h : buddyAlloc env t.heap order = some (heap, a)) :
      BuddyRun s₀ ⟨heap, update t.live (pageIndex a) (some order)⟩ (calls ++ [⟨env, t.heap, order⟩])
  | free {t : BuddySystem} {calls : List AllocCall} (run : BuddyRun s₀ t calls) (p k : Nat)
      (h : t.live p = some k) :
      BuddyRun s₀ ⟨buddyFree t.heap (pageAddr p), update t.live p none⟩ calls
  | write {t : BuddySystem} {calls : List AllocCall} (run : BuddyRun s₀ t calls)
      (p k x : Nat) (v : UInt8) (h : t.live p = some k) (hx : pageAddr p ≤ x)
      (hx' : x < pageAddr p + pageSize * 2 ^ k) :
      BuddyRun s₀ ⟨{ t.heap with mem := update t.heap.mem x v }, t.live⟩ calls

/-- The representation invariant on `N` heap pages, spelled out. -/
structure BuddyRep (N : Nat) (s : Heap) (free : Nat → List Nat) (live : Nat → Option Nat) :
    Prop where
  wellFormed : ∀ k ≤ maxOrders, FreeList s.mem (s.freeAreas k) (free k) ∧ (free k).Nodup
  bounded : ∀ k, maxOrders < k → free k = []
  partition : ∀ p < N, ∃! b, b ∈ blocks free live ∧ Covers b p
  inside : ∀ b ∈ blocks free live, b.1 + 2 ^ b.2 ≤ N
  aligned : ∀ b ∈ blocks free live, 2 ^ b.2 ∣ b.1
  exclusive : ∀ k, ∀ p ∈ free k, live p = none
  isFree : ∀ p < N, (s.metadata p).isFree = true ↔ p ∈ free (s.metadata p).order
  order : ∀ p k, live p = some k → (s.metadata p).order = k

variable {N : Nat} {s : Heap} {free : Nat → List Nat} {live : Nat → Option Nat}

lemma BuddyCore.rep (hc : BuddyCore N s free live)
    (ho : ∀ p k, live p = some k → (s.metadata p).order = k) : BuddyRep N s free live where
  wellFormed k hk := ⟨hc.lists k hk, (hc.lists k hk).nodup⟩
  bounded k hk := by
    apply eq_nil_iff_forall_not_mem.mpr
    intro p hp
    have := hc.orders (p, k) (.inl hp)
    omega
  partition p hp := by
    obtain ⟨b, hb, hcov⟩ := hc.tiling.cover p hp
    exact ⟨b, ⟨hb, hcov⟩, fun c hc' => hc.tiling.apart c hc'.1 b hb p hc'.2 hcov⟩
  inside := hc.tiling.inside
  aligned := hc.tiling.aligned
  exclusive := hc.exclusive
  isFree p hp := by
    constructor
    · exact hc.unmarked p hp
    · intro h
      exact (hc.marked _ p h).1
  order := ho

/-! ## The invariant along runs without growth -/

lemma initBuddy_core (s0 : Heap) : BuddyCore startPages (initBuddy s0)
      (update (fun _ => []) maxOrders [0]) (fun _ => none) := by
  -- before the list insertion the whole heap counts as handed out
  have hpre : BuddyCore startPages { s0 with
        currentHeapEnd := heapStart + startPages * pageSize
        metadataSize := startPages
        freeAreas := fun i => if i ≤ maxOrders then 0 else s0.freeAreas i
        metadata := fun i => if i < startPages then ⟨0, false, false⟩ else s0.metadata i }
      (fun _ => []) (update (fun _ => none) 0 (some maxOrders)) := by
    have hmem : ∀ b, b ∈ blocks (fun _ => []) (update (fun _ => none) 0 (some maxOrders))
        ↔ b = (0, maxOrders) := by
      rintro ⟨q, j⟩
      by_cases hq : q = 0
      · subst hq
        simp [blocks, eq_comm]
      · simp [blocks, hq]
    refine ⟨?_, ?_, ?_, ?_, ⟨?_, ?_, ?_, ?_⟩, ?_⟩
    · intro k hk
      simp only [if_pos hk]
      exact ⟨rfl, trivial⟩
    · intro b hb
      rw [(hmem b).mp hb]
    · simp
    · intro p hp h
      simp only [if_pos hp] at h
      cases h
    · intro b hb
      rw [(hmem b).mp hb]
      exact dvd_zero _
    · intro b hb
      rw [(hmem b).mp hb]
      decide
    · intro x hx
      exact ⟨(0, maxOrders), (hmem _).mpr rfl, Nat.zero_le x,
        by simpa [startPages, maxOrders] using hx⟩
    · intro b hb c hc x _ _
      rw [(hmem b).mp hb, (hmem c).mp hc]
    · simp
  have hlive : update (fun _ => none) 0 (some maxOrders) 0 = some maxOrders := by simp
  have hadd := hpre.listAdd (by decide) hlive
  have hnone : update (update (fun _ : Nat => (none : Option Nat)) 0
      (some maxOrders)) 0 none = fun _ => none := by rw [update_idem, update_eq_self_iff]
  rw [hnone] at hadd
  exact hadd

lemma BuddyCore.write (hc : BuddyCore N s free live) {p k x : Nat} (hp : live p = some k)
    (hx : pageAddr p ≤ x) (hx' : x < pageAddr p + pageSize * 2 ^ k) (v : UInt8) :
    BuddyCore N { s with mem := update s.mem x v } free live := by
  refine hc.transport ?_ rfl rfl
  intro y hy
  have hxy : y = x := by
    by_contra hne
    exact hy (update_of_ne hne _ _)
  exact ⟨p, k, hp, hxy ▸ hx, hxy ▸ hx'⟩

/-- What one state of a run satisfies as long as no growth has happened. -/
structure BuddyInv (t : BuddySystem) : Prop where
  core : ∃ free, BuddyCore startPages t.heap free t.live
  order : ∀ p k, t.live p = some k → (t.heap.metadata p).order = k
  heapEnd : t.heap.currentHeapEnd = heapStart + startPages * pageSize
  size : t.heap.metadataSize = startPages

lemma buddyServe_eq_none_iff {order : Nat} :
    buddyServe s order = none ↔ ∀ i, order ≤ i → i ≤ maxOrders → s.freeAreas i = 0 := by
  simp only [buddyServe, map_eq_none_iff, find?_eq_none, mem_range'_1,
    decide_eq_true_eq, not_not]
  constructor
  · intro h i hi hi'
    exact h i (by omega)
  · intro h i hi
    exact h i hi.1 (by omega)

lemma AllocCall.not_served_iff (c : AllocCall) :
    ¬ c.Served ↔ buddyServe c.heap c.order = none := by
  rw [buddyServe_eq_none_iff, AllocCall.Served]
  push Not
  rfl

lemma buddyAlloc_of_served {env : List Growth} {order : Nat}
    (h : AllocCall.Served ⟨env, s, order⟩) : buddyAlloc env s order = buddyServe s order := by
  cases env with
  | nil => rfl
  | cons g env =>
    have hne := (AllocCall.not_served_iff ⟨g :: env, s, order⟩).not.mp (not_not.mpr h)
    obtain ⟨r, hr⟩ := ne_none_iff_exists'.mp hne
    have hr' : buddyServe s order = some r := hr
    rw [buddyAlloc, hr']

lemma BuddyInv.serve {t : BuddySystem} (hi : BuddyInv t) {order a : Nat} {s' : Heap}
    (h : buddyServe t.heap order = some (s', a)) :
    BuddyInv ⟨s', update t.live (pageIndex a) (some order)⟩ := by
  obtain ⟨free, hc⟩ := hi.core
  obtain ⟨_, p, free', rfl, hnone, hc', hmd, hk, -⟩ := buddyServe_spec (by decide) hc h
  have hp32 : p < 2 ^ 32 := (hc'.live_lt (update_self p _ _)).trans_le (by decide)
  rw [pageIndex_pageAddr hp32]
  refine ⟨⟨free', hc'⟩, ?_, hk.heapEnd.trans hi.heapEnd, hk.size.trans hi.size⟩
  intro q k hq
  by_cases hqp : q = p
  · subst hqp
    simp only [update_self, some.injEq] at hq
    rw [hmd, hq]
  · simp only [update_of_ne hqp] at hq
    rw [hk.metadata q k hq]
    exact hi.order q k hq

lemma BuddyInv.release {t : BuddySystem} (hi : BuddyInv t) {p k : Nat} (h : t.live p = some k) :
    BuddyInv ⟨buddyFree t.heap (pageAddr p), update t.live p none⟩ := by
  obtain ⟨free, hc⟩ := hi.core
  obtain ⟨free', hc', hk, -⟩ := buddyFree_spec (by decide) (by decide) hc h (hi.order p k h)
  refine ⟨⟨free', hc'⟩, ?_, hk.heapEnd.trans hi.heapEnd, hk.size.trans hi.size⟩
  intro q j hq
  have hqp : q ≠ p := by
    rintro rfl
    simp at hq
  have hq' : t.live q = some j := by simpa [hqp] using hq
  rw [hk.metadata q j hq]
  exact hi.order q j hq'

lemma BuddyRun.inv {s0 : Heap} {t : BuddySystem} {calls : List AllocCall}
    (run : BuddyRun s0 t calls) (hserved : ∀ c ∈ calls, c.Served) : BuddyInv t := by
  induction run with
  | init => exact ⟨⟨_, initBuddy_core s0⟩, by simp, rfl, rfl⟩
  | alloc run env order heap a _ h ih =>
    have hs := hserved _ (mem_append_right _ (mem_singleton_self _))
    have hi := ih fun c hc => hserved c (mem_append_left _ hc)
    exact hi.serve ((buddyAlloc_of_served hs).symm.trans h)
  | free run p k h ih => exact (ih hserved).release h
  | write run p k x v h hx hx' ih =>
    have hi := ih hserved
    obtain ⟨free, hc⟩ := hi.core
    exact ⟨⟨free, hc.write h hx hx' v⟩, hi.order, hi.heapEnd, hi.size⟩

/-- In every run whose allocations are all served from the free lists, the free
lists and the blocks handed out represent a partition of the initial heap. The next block that
is handed out starts where no block was handed out. -/
theorem buddy_representation {s₀ : Heap} {t : BuddySystem} {calls : List AllocCall}
    (run : BuddyRun s₀ t calls) (hserved : ∀ c ∈ calls, c.Served) :
    (∃ free, BuddyRep startPages t.heap free t.live) ∧
      ∀ env order heap a, AllocCall.Served ⟨env, t.heap, order⟩ →
        buddyAlloc env t.heap order = some (heap, a) → t.live (pageIndex a) = none := by
  have hi := run.inv hserved
  obtain ⟨free, hc⟩ := hi.core
  refine ⟨⟨free, hc.rep hi.order⟩, fun env order heap a hs halloc => ?_⟩
  rw [buddyAlloc_of_served hs] at halloc
  obtain ⟨_, p, free', rfl, hnone, hc', -⟩ := buddyServe_spec (by decide) hc halloc
  rw [pageIndex_pageAddr ((hc'.live_lt (update_self p _ _)).trans_le (by decide))]
  exact hnone

/-- Memory and globals that are all zero. -/
def zeroHeap : Heap where
  mem _ := 0
  freeAreas _ := 0
  metadata _ := ⟨0, false, false⟩
  metadataSize := 0
  currentHeapEnd := 0
  caches _ := ⟨0, 0, 0⟩

/-- A run that the free lists serve: the heap is split for two pages and a block of two, the
pages are freed and merge, and the block of two that they form is handed out. -/
lemma served_run_merged : ∃ t calls, BuddyRun zeroHeap t calls ∧ (∀ c ∈ calls, c.Served) ∧
      t.live 0 = some 1 ∧ t.live 2 = some 1 := by
  have heval : ((buddyAlloc [] (initBuddy zeroHeap) 0).bind fun r₁ =>
      (buddyAlloc [] r₁.1 0).bind fun r₂ => (buddyAlloc [] r₂.1 1).bind fun r₃ =>
      (buddyAlloc [] (buddyFree (buddyFree r₃.1 (pageAddr 0)) (pageAddr 1)) 1).map fun r₄ =>
        (r₁.2, r₂.2, r₃.2, r₄.2)) =
      some (pageAddr 0, pageAddr 1, pageAddr 2, pageAddr 0) := by decide +kernel
  simp only [bind_eq_some_iff, map_eq_some_iff, Prod.exists, Prod.mk.injEq] at heval
  obtain ⟨_, _, h₁, _, _, h₂, _, _, h₃, _, _, h₄, rfl, rfl, rfl, rfl⟩ := heval
  have run := (((((BuddyRun.init.alloc [] 0 _ _ (by decide) h₁).alloc [] 0 _ _ (by decide)
    h₂).alloc [] 1 _ _ (by decide) h₃).free 0 0 rfl).free 1 0 rfl).alloc [] 1 _ _ (by decide) h₄
  refine ⟨_, _, run, fun c hc => ?_, rfl, rfl⟩
  have hserved : ∀ s order r, buddyAlloc [] s order = some r →
      AllocCall.Served ⟨[], s, order⟩ := by
    intro s order r hr
    by_contra hno
    rw [AllocCall.not_served_iff] at hno
    cases hno.symm.trans hr
  simp only [nil_append, cons_append, mem_cons, not_mem_nil, or_false] at hc
  obtain rfl | rfl | rfl | rfl := hc
  · exact hserved _ _ _ h₁
  · exact hserved _ _ _ h₂
  · exact hserved _ _ _ h₃
  · exact hserved _ _ _ h₄

theorem buddy_representation_merged :
    ∃ t calls, BuddyRun zeroHeap t calls ∧ (∀ c ∈ calls, c.Served) ∧ t.live 0 = some 1 ∧
      t.live 2 = some 1 ∧ ∃ free, BuddyRep startPages t.heap free t.live := by
  obtain ⟨t, calls, run, hserved, hlive, hlive'⟩ := served_run_merged
  exact ⟨t, calls, run, hserved, hlive, hlive', (buddy_representation run hserved).1⟩

end DestinX
