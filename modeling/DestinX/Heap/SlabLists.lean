import DestinX.Heap.Slab
import DestinX.Heap.BuddyLists

/-!
# The lists of slabs

`slab_list_add` and `slab_list_remove` as list operations on the pages of the
slabs. Both touch only the link words of slabs on the list, so the rest of a slab
header and all objects stay as they are.
-/

namespace DestinX

open Base List

/-- The slabs on a list with first slab `head`, as their link words describe it. -/
def SlabList (m : Mem) (head : Nat) (l : List Nat) : Prop :=
  MList m 24 32 head (l.map pageAddr)

/-- The byte `x` belongs to the link words of the slab on page `p`. -/
def InLinks (p x : Nat) : Prop := pageAddr p + 24 ≤ x ∧ x < pageAddr p + 40

variable {m m' : Mem} {head p : Nat} {l l1 l2 : List Nat}

lemma SlabList.congr (hl : SlabList m head l) (h : ∀ q ∈ l, ∀ x, InLinks q x → m' x = m x) :
    SlabList m' head l := pageList_congr hl fun q hq x hx hx' => h q hq x ⟨hx, hx'⟩

lemma SlabList.nodup (hl : SlabList m head l) : l.Nodup := (MList.nodup hl).of_map pageAddr

lemma SlabList.head_eq (hl : SlabList m head (p :: l)) : head = pageAddr p :=
  (MList.head_eq hl).1

lemma SlabList.head_zero_iff (hl : SlabList m head l) : head = 0 ↔ l = [] := by
  rw [MList.nil_iff hl, map_eq_nil_iff]

/-! ## Insertion -/

lemma slabListAdd_outside (hl : SlabList m head l) {x : Nat}
    (hx : ∀ q ∈ p :: l, ¬ InLinks q x) : slabListAdd m head (pageAddr p) x = m x := by
  have hp := hx p (by simp)
  simp only [InLinks, not_and_or, not_le, not_lt] at hp hx
  refine (cond_store_outside hl.head_mem fun b hb => ?_).trans ?_
  · obtain ⟨q, hq, rfl⟩ := mem_map.mp hb
    have := hx q (mem_cons_of_mem p hq)
    omega
  · rw [store64_outside (by omega), store64_outside (by omega)]

lemma slabListAdd_list (hl : SlabList m head l) (hp : p ∉ l) (hlt : p < 2 ^ 32)
    (hlt' : ∀ q ∈ l, q < 2 ^ 32) :
    SlabList (slabListAdd m head (pageAddr p)) (pageAddr p) (p :: l) :=
  pageList_push hl (by decide) hp (forall_mem_cons.mpr ⟨hlt, hlt'⟩) (.inr rfl)

/-! ## Unlinking -/

section

variable (hl : SlabList m head (l1 ++ p :: l2))
include hl

/-- The slabs after and before one take over its links, in this order. -/
lemma slabListRemove_eq : slabListRemove m head (pageAddr p) =
      (store64 (detach (detach m 32 24 (pageAddr p)) 24 32 (pageAddr p)) (pageAddr p + 24) 0,
        if load64 m (pageAddr p + 24) = 0 then load64 m (pageAddr p + 32) else head) := by
  obtain ⟨⟨hprev, hnext⟩, _⟩ := pageList_detach hl (by decide) (.inr ⟨rfl, rfl⟩)
  rw [← hprev, ← hnext]
  rfl

lemma slabListRemove_outside {x : Nat} (hx : ∀ q ∈ l1 ++ p :: l2, ¬ InLinks q x) :
    (slabListRemove m head (pageAddr p)).1 x = m x := by
  simp only [InLinks, not_and_or, not_le, not_lt] at hx
  have hp := hx p (by simp)
  rw [slabListRemove_eq hl]
  dsimp only
  rw [store64_outside (by omega)]
  exact (pageList_detach hl (by decide) (.inr ⟨rfl, rfl⟩)).2.2 x hx

lemma slabListRemove_list :
    SlabList (slabListRemove m head (pageAddr p)).1 (slabListRemove m head (pageAddr p)).2
      (l1 ++ l2) := by
  have hnd : p ∉ l1 ++ l2 := (nodup_cons.mp (nodup_middle.mp hl.nodup)).1
  rw [slabListRemove_eq hl]
  refine SlabList.congr (pageList_detach hl (by decide) (.inr ⟨rfl, rfl⟩)).2.1 fun q hq x hx => ?_
  -- the last store is to the slab that has left the list
  have hpq : q ≠ p := fun h => hnd (h ▸ hq)
  simp only [InLinks, pageAddr, pageSize] at hx ⊢
  exact store64_outside (by omega)

end

end DestinX
