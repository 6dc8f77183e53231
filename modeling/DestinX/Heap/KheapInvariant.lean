import DestinX.Heap.SlabFamily
import DestinX.Heap.BuddySpec

/-!
# The kernel heap as a whole

`KheapCore` joins the two allocators: every slab is a block of one page that the
buddy allocator has handed out. What callers hold are cells: whole blocks that
are not slabs, and slots of slabs that are not free. Cells never overlap.
-/

namespace DestinX

open Base

/-- The abstract state of the kernel heap: the free and the handed-out blocks of
the buddy allocator, the slab lists, and the free slots of each slab. -/
structure KheapView where
  free : Nat → List Nat
  live : Nat → Option Nat
  lists : Bool → Nat → List Nat
  objs : Nat → List Nat

structure KheapCore (s : Heap) (v : KheapView) : Prop where
  buddy : BuddyCore startPages s v.free v.live
  order : ∀ p k, v.live p = some k → (s.metadata p).order = k
  lists : SlabLists s v.lists
  sized : ∀ c < numCaches, 8 ≤ (s.caches c).objSize ∧ (s.caches c).objSize + slabHeader ≤ pageSize
  page : ∀ {full c p}, p ∈ v.lists full c → SlabPage s.mem (s.caches c).objSize c p (v.objs p)
  slabLive : ∀ {p}, OnList v.lists p → v.live p = some 0

/-- The `is_slab` bit tells slabs from other blocks. -/
def Marked (s : Heap) (v : KheapView) : Prop :=
  ∀ p k, v.live p = some k → ((s.metadata p).isSlab = true ↔ OnList v.lists p)

/-- Partial slabs have free and used slots, full slabs have no free slot. -/
structure Sorted (s : Heap) (v : KheapView) : Prop where
  partial_some : ∀ c, ∀ p ∈ v.lists false c, v.objs p ≠ []
  partial_used : ∀ c, ∀ p ∈ v.lists false c, (v.objs p).length < slots (s.caches c).objSize
  full_none : ∀ c, ∀ p ∈ v.lists true c, v.objs p = []

/-- The invariant of the kernel heap between two calls. -/
structure KheapInv (s : Heap) (v : KheapView) : Prop where
  core : KheapCore s v
  marked : Marked s v
  sorted : Sorted s v

/-! ## Cells -/

/-- What `kmalloc` hands out: a block of the buddy allocator or a slot of a slab. -/
inductive Cell
  | block (p k : Nat)
  | slot (c p i : Nat)
  deriving DecidableEq

def Cell.addr (s : Heap) : Cell → Nat
  | .block p _ => pageAddr p
  | .slot c p i => objAddr (s.caches c).objSize p i

def Cell.size (s : Heap) : Cell → Nat
  | .block _ k => pageSize * 2 ^ k
  | .slot c _ _ => (s.caches c).objSize

/-- The cell is handed out. -/
def Cell.Held (s : Heap) (v : KheapView) : Cell → Prop
  | .block p k => v.live p = some k ∧ ¬ OnList v.lists p
  | .slot c p i => (∃ full, p ∈ v.lists full c) ∧ i < slots (s.caches c).objSize ∧ i ∉ v.objs p

variable {s s' : Heap} {v : KheapView} {full : Bool} {c p i k : Nat} {fl : List Nat}

lemma KheapCore.live_lt (h : KheapCore s v) (hp : v.live p = some k) : p < 2 ^ 32 :=
  (h.buddy.live_lt hp).trans_le (by decide)

/-- The first page and the order of the block that a cell lies in. -/
def Cell.home : Cell → Nat × Nat
  | .block p k => (p, k)
  | .slot _ p _ => (p, 0)

lemma KheapCore.home_live (h : KheapCore s v) {a : Cell} (ha : a.Held s v) :
    v.live a.home.1 = some a.home.2 := by
  cases a with
  | block p k => exact ha.1
  | slot c p i =>
    obtain ⟨⟨full, hp⟩, _⟩ := ha
    exact h.slabLive ⟨full, c, hp⟩

/-- A cell lies inside its block, and slots lie behind the slab header. -/
lemma Cell.inside {a : Cell} (ha : a.Held s v) : pageAddr a.home.1 ≤ a.addr s ∧
      a.addr s + a.size s ≤ pageAddr a.home.1 + pageSize * 2 ^ a.home.2 := by
  cases a with
  | block p k => exact ⟨le_rfl, le_rfl⟩
  | slot c p i =>
    have hin := objAddr_inside (p := p) ha.2.1
    simp only [Cell.home, Cell.addr, Cell.size, pow_zero, Nat.mul_one]
    omega

section

variable (h : KheapCore s v)
include h

lemma KheapCore.size_pos {a : Cell} (ha : a.Held s v) : 0 < a.size s := by
  cases a with
  | block p k =>
    simp only [Cell.size, pageSize]
    positivity
  | slot c p i =>
    obtain ⟨⟨full, hp⟩, _⟩ := ha
    have := (h.sized c (h.lists.bounded full c p hp).1).1
    simp only [Cell.size]
    omega

/-- Blocks with different first pages do not overlap. -/
lemma KheapCore.blocks_apart {q j : Nat} (hp : v.live p = some k) (hq : v.live q = some j)
    (hne : p ≠ q) :
    pageAddr p + pageSize * 2 ^ k ≤ pageAddr q ∨ pageAddr q + pageSize * 2 ^ j ≤ pageAddr p := by
  have hd := h.buddy.tiling.disjoint (.inr hp : (p, k) ∈ blocks v.free v.live)
    (.inr hq : (q, j) ∈ blocks v.free v.live) (fun he => hne (Prod.mk.inj he).1)
  simp only [pageAddr, pageSize] at *
  omega

lemma KheapCore.cells_apart {a b : Cell} (ha : a.Held s v) (hb : b.Held s v) (hne : a ≠ b) :
    Apart (a.addr s) (a.size s) (b.addr s) (b.size s) := by
  have hla := h.home_live ha
  have hlb := h.home_live hb
  have hia := Cell.inside ha
  have hib := Cell.inside hb
  by_cases hpage : a.home.1 = b.home.1
  · cases a with
    | block p k =>
      cases b with
      | block q j =>
        obtain rfl : p = q := hpage
        have hkj : k = j := Option.some.inj (ha.1.symm.trans hb.1)
        exact absurd (by rw [hkj]) hne
      | slot c q i =>
        obtain rfl : p = q := hpage
        obtain ⟨⟨full, hq⟩, _⟩ := hb
        exact absurd ⟨full, c, hq⟩ ha.2
    | slot c p i =>
      cases b with
      | block q j =>
        obtain rfl : p = q := hpage
        obtain ⟨⟨full, hp⟩, _⟩ := ha
        exact absurd ⟨full, c, hp⟩ hb.2
      | slot c' q j =>
        obtain rfl : p = q := hpage
        obtain ⟨⟨full, hp⟩, _⟩ := ha
        obtain ⟨⟨full', hq⟩, _⟩ := hb
        obtain ⟨rfl, rfl⟩ := h.lists.owner hp hq
        have hij : i ≠ j := fun he => hne (by rw [he])
        exact objAddr_apart hij
  · have hap := h.blocks_apart hla hlb hpage
    simp only [Apart]
    omega

lemma KheapCore.addr_injective {a b : Cell} (ha : a.Held s v) (hb : b.Held s v)
    (he : a.addr s = b.addr s) : a = b := by
  by_contra hne
  have hap := h.cells_apart ha hb hne
  have hpa := h.size_pos ha
  have hpb := h.size_pos hb
  simp only [Apart] at hap
  omega

end

end DestinX
