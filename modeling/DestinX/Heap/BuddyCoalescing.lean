import DestinX.Heap.BuddyRuns
import DestinX.Base.DyadicNormal

/-!
# Coalescing is maximal

Along every run that the free lists serve, the free blocks form a merged family. They are
therefore determined by the pages that are not handed out, and `buddy_alloc` finds a block
whenever the free pages hold an aligned run of the requested length.
-/

namespace DestinX

open Base Function List

/-- A free block of order `k` starts at page `p`: it is on `free_areas[k]`. -/
def FreeBlock (s : Heap) (p k : Nat) : Prop :=
  k ≤ maxOrders ∧ Reaches (field s.mem 8) (ptr (s.freeAreas k)) (pageAddr p)

/-- Page `x` of the heap belongs to no block that is handed out. -/
def FreePage (live : Nat → Option Nat) (x : Nat) : Prop :=
  x < startPages ∧ ∀ p k, live p = some k → ¬ Covers (p, k) x

/-- The free blocks as a family of dyadic blocks. -/
def freeFamily (free : Nat → List Nat) : Set (Nat × Nat) := {b | b.1 ∈ free b.2}

variable {s s₀ : Heap} {free : Nat → List Nat} {live : Nat → Option Nat} {t t' : BuddySystem}
  {calls : List AllocCall} {p k x order : Nat}

section

variable (hc : BuddyCore startPages s free live)
include hc

lemma BuddyCore.freeBlock_iff : FreeBlock s p k ↔ p ∈ free k := by
  constructor
  · rintro ⟨hk, hr⟩
    obtain ⟨q, hq, heq⟩ := mem_map.mp ((hc.lists k hk).chain.reaches_iff.mp hr)
    rwa [← pageAddr_injective heq]
  · intro hp
    have hk : k ≤ maxOrders := hc.orders (p, k) (.inl hp)
    exact ⟨hk, (hc.lists k hk).chain.reaches_iff.mpr (mem_map_of_mem hp)⟩

lemma BuddyCore.merged (hm : Coalesced free) : Merged maxOrders (freeFamily free) where
  aligned b hb := hc.tiling.aligned b (.inl hb)
  bounded b hb := hc.orders b (.inl hb)
  apart b hb c hc' := hc.tiling.apart b (.inl hb) c (.inl hc')
  merged p k hk hp := hm k hk p hp

/-- The free blocks cover the free pages. -/
lemma BuddyCore.union_iff : Union (freeFamily free) x ↔ FreePage live x := by
  constructor
  · rintro ⟨⟨q, j⟩, hb, hx⟩
    refine ⟨hx.2.trans_le (hc.tiling.inside (q, j) (.inl hb)), fun p k hp hpx => ?_⟩
    have heq := hc.tiling.apart (q, j) (.inl hb) (p, k) (.inr hp) x hx hpx
    exact hc.not_free hp j ((Prod.mk.inj heq).1 ▸ hb)
  · rintro ⟨hx, hno⟩
    obtain ⟨⟨q, j⟩, hb | hb, hcov⟩ := hc.tiling.cover x hx
    · exact ⟨_, hb, hcov⟩
    · exact absurd hcov (hno q j hb)

end

/-! ## Runs -/

/-- The free lists of a state, without buddies that are both free. -/
structure CoalescedView (t : BuddySystem) (free : Nat → List Nat) : Prop where
  core : BuddyCore startPages t.heap free t.live
  coalesced : Coalesced free

lemma coalesced_init : Coalesced (update (fun _ => []) maxOrders [0]) := by
  intro k hk p hp
  rw [update_of_ne hk.ne] at hp
  cases hp

lemma BuddyRun.view (run : BuddyRun s₀ t calls) (hserved : ∀ c ∈ calls, c.Served) :
    ∃ free, CoalescedView t free := by
  induction run with
  | init => exact ⟨_, initBuddy_core s₀, coalesced_init⟩
  | alloc run env order heap a _ h ih =>
    have hs := hserved _ (mem_append_right _ (mem_singleton_self _))
    obtain ⟨free, hv⟩ := ih fun c hc => hserved c (mem_append_left _ hc)
    rw [buddyAlloc_of_served hs] at h
    obtain ⟨_, p, free', rfl, _, hc', _, _, hco⟩ := buddyServe_spec (by decide) hv.core h
    have hp32 : p < 2 ^ 32 := (hc'.live_lt (update_self p _ _)).trans_le (by decide)
    rw [pageIndex_pageAddr hp32]
    exact ⟨free', hc', hco hv.coalesced⟩
  | free run p k h ih =>
    obtain ⟨free, hv⟩ := ih hserved
    obtain ⟨free', hc', _, hco⟩ := buddyFree_spec (by decide) (by decide) hv.core h
      ((run.inv hserved).order p k h)
    exact ⟨free', hc', hco hv.coalesced⟩
  | write run p k x v h hx hx' ih =>
    obtain ⟨free, hv⟩ := ih hserved
    exact ⟨free, hv.core.write h hx hx' v, hv.coalesced⟩

/-- Two states with the same free pages have the same free blocks. -/
lemma CoalescedView.determined {free free' : Nat → List Nat} (h : CoalescedView t free)
    (h' : CoalescedView t' free') (hpages : ∀ x, FreePage t.live x ↔ FreePage t'.live x)
    (p k : Nat) : FreeBlock t.heap p k ↔ FreeBlock t'.heap p k := by
  have heq : freeFamily free = freeFamily free' := by
    refine (h.core.merged h.coalesced).unique (h'.core.merged h'.coalesced) fun x => ?_
    rw [h.core.union_iff, h'.core.union_iff, hpages]
  rw [h.core.freeBlock_iff, h'.core.freeBlock_iff]
  exact Set.ext_iff.mp heq (p, k)

lemma CoalescedView.serves_iff (h : CoalescedView t free) (order : Nat) :
    (∃ r, buddyServe t.heap order = some r) ↔
      ∃ p, 2 ^ order ∣ p ∧ ∀ x, Covers (p, order) x → FreePage t.live x := by
  have hsome : (∃ r, buddyServe t.heap order = some r) ↔
      ∃ i, order ≤ i ∧ i ≤ maxOrders ∧ t.heap.freeAreas i ≠ 0 := by
    rw [← Option.ne_none_iff_exists', ne_eq, buddyServe_eq_none_iff]
    push Not
    rfl
  have hblock : (∃ i, order ≤ i ∧ i ≤ maxOrders ∧ t.heap.freeAreas i ≠ 0) ↔
      ∃ b ∈ freeFamily free, order ≤ b.2 := by
    constructor
    · rintro ⟨i, hoi, him, hne⟩
      have hcons : free i ≠ [] := fun hnil => hne ((h.core.lists i him).head_zero_iff.mpr hnil)
      obtain ⟨p, hp⟩ := exists_mem_of_ne_nil _ hcons
      exact ⟨(p, i), hp, hoi⟩
    · rintro ⟨⟨p, i⟩, hp, hoi⟩
      have him : i ≤ maxOrders := h.core.orders (p, i) (.inl hp)
      refine ⟨i, hoi, him, fun hzero => ?_⟩
      have hnil : free i = [] := (h.core.lists i him).head_zero_iff.mp hzero
      exact ne_nil_of_mem hp hnil
  rw [hsome, hblock]
  by_cases ho : order ≤ maxOrders
  · simp only [← h.core.union_iff]
    exact (h.core.merged h.coalesced).exists_order_iff ho
  · -- a longer run does not fit into the heap
    have hbig : startPages < 2 ^ order := by
      have hpow : 2 ^ (maxOrders + 1) ≤ 2 ^ order := Nat.pow_le_pow_right (by norm_num) (by omega)
      exact lt_of_lt_of_le (by decide) hpow
    refine iff_of_false ?_ ?_
    · rintro ⟨b, hb, hob⟩
      have hle := h.core.orders b (.inl hb)
      omega
    · rintro ⟨p, -, hrun⟩
      have hlast := (hrun (p + startPages) ⟨by simp, by simpa using hbig⟩).1
      omega

/-! ## The result -/

/-- What maximal coalescing means for one state of a run. -/
structure BuddyCanonical (t : BuddySystem) : Prop where
  noBuddies : ∀ k < maxOrders, ∀ p, FreeBlock t.heap p k → ¬ FreeBlock t.heap (p ^^^ 2 ^ k) k
  determined : ∀ s₀ t' calls, BuddyRun s₀ t' calls → (∀ c ∈ calls, c.Served) →
    (∀ x, FreePage t.live x ↔ FreePage t'.live x) →
    ∀ p k, FreeBlock t.heap p k ↔ FreeBlock t'.heap p k
  freeComm : ∀ p k q j, t.live p = some k → t.live q = some j → p ≠ q → ∀ r i,
    FreeBlock (buddyFree (buddyFree t.heap (pageAddr p)) (pageAddr q)) r i ↔
      FreeBlock (buddyFree (buddyFree t.heap (pageAddr q)) (pageAddr p)) r i
  freeAlloc : ∀ env order heap a, order ≤ maxOrders → AllocCall.Served ⟨env, t.heap, order⟩ →
    buddyAlloc env t.heap order = some (heap, a) →
    ∀ r i, FreeBlock (buddyFree heap a) r i ↔ FreeBlock t.heap r i
  finds : ∀ order, (∃ r, buddyServe t.heap order = some r) ↔
    ∃ p, 2 ^ order ∣ p ∧ ∀ x, Covers (p, order) x → FreePage t.live x

lemma BuddyRun.freeComm (run : BuddyRun s₀ t calls) (hserved : ∀ c ∈ calls, c.Served)
    {q j : Nat} (hp : t.live p = some k) (hq : t.live q = some j) (hne : p ≠ q) (r i : Nat) :
    FreeBlock (buddyFree (buddyFree t.heap (pageAddr p)) (pageAddr q)) r i ↔
      FreeBlock (buddyFree (buddyFree t.heap (pageAddr q)) (pageAddr p)) r i := by
  have run1 := (run.free p k hp).free q j ((update_of_ne hne.symm _ _).trans hq)
  have run2 := (run.free q j hq).free p k ((update_of_ne hne _ _).trans hp)
  obtain ⟨_, hv1⟩ := run1.view hserved
  obtain ⟨_, hv2⟩ := run2.view hserved
  refine hv1.determined hv2 (fun x => ?_) r i
  rw [update_comm hne]

lemma BuddyRun.freeAlloc (run : BuddyRun s₀ t calls) (hserved : ∀ c ∈ calls, c.Served)
    {env : List Growth} {heap : Heap} {a : Nat} (ho : order ≤ maxOrders)
    (hs : AllocCall.Served ⟨env, t.heap, order⟩)
    (halloc : buddyAlloc env t.heap order = some (heap, a)) (r i : Nat) :
    FreeBlock (buddyFree heap a) r i ↔ FreeBlock t.heap r i := by
  obtain ⟨_, hv⟩ := run.view hserved
  have hserve := (buddyAlloc_of_served hs).symm.trans halloc
  obtain ⟨_, p, free', rfl, hnone, hc', _⟩ := buddyServe_spec (by decide) hv.core hserve
  have hp32 : p < 2 ^ 32 := (hc'.live_lt (update_self p _ _)).trans_le (by decide)
  have hserved' : ∀ c ∈ calls ++ [⟨env, t.heap, order⟩], c.Served := by
    intro c hc
    rcases mem_append.mp hc with hc | hc
    · exact hserved c hc
    · rwa [mem_singleton.mp hc]
  have run' := run.alloc env order heap _ ho halloc
  rw [pageIndex_pageAddr hp32] at run'
  obtain ⟨_, hv'⟩ := (run'.free p order (update_self _ _ _)).view hserved'
  refine hv'.determined hv (fun x => ?_) r i
  rw [update_idem, ← hnone, update_eq_self]

/-- In every state that `buddy_alloc` without growth and `buddy_free` reach, the free
blocks are the maximal aligned blocks of free pages. -/
theorem buddy_coalescing_canonical (run : BuddyRun s₀ t calls)
    (hserved : ∀ c ∈ calls, c.Served) : BuddyCanonical t := by
  obtain ⟨free, hv⟩ := run.view hserved
  refine ⟨fun k hk p => ?_, ?_, ?_, ?_, hv.serves_iff⟩
  · rw [hv.core.freeBlock_iff, hv.core.freeBlock_iff]
    exact hv.coalesced k hk p
  · intro s0' t' calls' run' hserved'
    obtain ⟨free', hv'⟩ := run'.view hserved'
    exact hv.determined hv'
  · intro p k q j hp hq hne
    exact run.freeComm hserved hp hq hne
  · intro env order heap a ho hs halloc
    exact run.freeAlloc hserved ho hs halloc

theorem buddy_coalescing_canonical_merged :
    ∃ t calls, BuddyRun zeroHeap t calls ∧ (∀ c ∈ calls, c.Served) ∧
      t.live 0 = some 1 ∧ t.live 2 = some 1 ∧ BuddyCanonical t := by
  obtain ⟨t, calls, run, hserved, hlive, hlive'⟩ := served_run_merged
  exact ⟨t, calls, run, hserved, hlive, hlive', buddy_coalescing_canonical run hserved⟩

end DestinX
