import DestinX.Heap.SlabSpec

/-!
# `slab_free`

The three parts of `slab_free`: a full slab becomes partial again, the object
becomes the first free one, and a slab whose slots are all free is dissolved.
-/

namespace DestinX

open Base Function

variable {s s' : Heap} {v : KheapView} {full : Bool} {c p i k z : Nat} {fl : List Nat}

/-- The slab of an object is found by masking its address. -/
lemma page_of_obj (hz : 8 ≤ z) (hi : i < slots z) :
    objAddr z p i / pageSize * pageSize = pageAddr p := by
  have hin := objAddr_inside (p := p) hi
  simp only [pageAddr, pageSize, heapStart] at *
  omega

lemma pageIndex_obj (hz : 8 ≤ z) (hi : i < slots z) (hp : p < 2 ^ 32) :
    pageIndex (objAddr z p i) = p := by
  have hin := objAddr_inside (p := p) hi
  simp only [pageIndex, pageAddr, pageSize, heapStart] at *
  omega

/-! ## Reopening a full slab -/

lemma slabReopen_eq (s : Heap) (slab c : Nat) : slabReopen s slab c =
      if load32 s.mem (slab + 8) = 0 then linkSlab (unlinkSlab s true c slab) false c slab
      else s := by
  rw [slabReopen]
  split
  · simp [linkSlab, unlinkSlab, Heap.setCache, KmemCache.head, KmemCache.setHead]
  · rfl

/-- After the first part of `slab_free` the slab is partial, and nothing but its
place has changed. -/
lemma slabReopen_spec (h : KheapInv s v) (hp : p ∈ v.lists full c) :
    ∃ lists, KheapCore (slabReopen s (pageAddr p) c) { v with lists := lists } ∧
      SameSizes s (slabReopen s (pageAddr p) c) ∧
      (slabReopen s (pageAddr p) c).metadata = s.metadata ∧ p ∈ lists false c ∧
      (∀ q c', (∃ f, q ∈ lists f c') ↔ ∃ f, q ∈ v.lists f c') ∧
      ∀ f c' q, q ≠ p → q ∈ lists f c' → q ∈ v.lists f c' := by
  have hsp := h.core.page hp
  rw [slabReopen_eq, hsp.freeCount]
  cases full with
  | true =>
    have hnil := h.sorted.full_none c p hp
    obtain ⟨lists, hcore, hmem⟩ := h.core.relist false hp
    rw [if_pos (by simp [hnil])]
    refine ⟨lists, hcore, relist_objSize s true false c _, rfl,
      (hmem false c p).mpr (.inr ⟨rfl, rfl, rfl⟩),
      relist_onList hp hmem fun f c' hf => (h.core.lists.owner hf hp).2, ?_⟩
    intro f c' q hqp hq
    rcases (hmem f c' q).mp hq with ⟨hq, _⟩ | ⟨he, _, _⟩
    · exact hq
    · exact absurd he hqp
  | false =>
    have hne := h.sorted.partial_some c p hp
    rw [if_neg (by simpa using hne)]
    exact ⟨v.lists, h.core, fun _ => rfl, rfl, hp, fun _ _ => Iff.rfl, fun _ _ _ _ hq => hq⟩

/-! ## Returning the object -/

/-- The invariant while `slab_free` works on page `p` of cache `c`: the slab may
have all its slots free. -/
structure Returned (s : Heap) (v : KheapView) (c p : Nat) : Prop where
  core : KheapCore s v
  marked : Marked s v
  onPartial : p ∈ v.lists false c
  partial_some : ∀ c, ∀ p ∈ v.lists false c, v.objs p ≠ []
  partial_used : ∀ c', ∀ q ∈ v.lists false c', q ≠ p →
    (v.objs q).length < slots (s.caches c').objSize
  full_none : ∀ c, ∀ p ∈ v.lists true c, v.objs p = []

lemma slabPush_spec (h : KheapInv s v) (hcell : (Cell.slot c p i).Held s v)
    (hs' : slabPush (slabReopen s (pageAddr p) c) (pageAddr p)
      (objAddr (s.caches c).objSize p i) = s') :
    ∃ v', Returned s' v' c p ∧ SameSizes s s' ∧
      ∀ a : Cell, a.Held s' v' ↔ a.Held s v ∧ a ≠ .slot c p i := by
  subst hs'
  obtain ⟨⟨full, hp⟩, hi, hused⟩ := hcell
  obtain ⟨lists, hcore, hsize, hmd, hpl, hon, hother⟩ := slabReopen_spec h hp
  generalize slabReopen s (pageAddr p) c = s1 at *
  have hz := h.core.size_ge hp
  have hin := objAddr_inside (p := p) hi
  have hlive := h.core.slabLive ⟨full, c, hp⟩
  have hsp : SlabPage s1.mem (s1.caches c).objSize c p (v.objs p) := hcore.page hpl
  rw [hsize c] at hsp
  have hpush := hsp.push hz (h.core.live_lt hlive) hi hused
  have heq : ∀ obj, slabPush s1 (pageAddr p) obj =
      { s1 with mem := pushObject s1.mem (pageAddr p) obj } := fun _ => rfl
  rw [heq]
  have hcore2 : KheapCore
      { s1 with mem := pushObject s1.mem (pageAddr p) (objAddr (s.caches c).objSize p i) }
      { v with lists := lists, objs := update v.objs p (i :: v.objs p) } := by
    apply hcore.setPage hlive
    · intro x hx
      simp only [InPage, pageSize] at hx hin
      exact pushObject_outside (by omega) (by omega)
    · intro _ x hx
      simp only [InLinks] at hx
      exact pushObject_outside (by omega) (by omega)
    · intro f c' hp'
      obtain ⟨_, rfl⟩ := hcore.lists.owner hpl hp'
      rw [hsize c]
      exact hpush
  refine ⟨_, ⟨hcore2, ?_, hpl, ?_, ?_, ?_⟩, hsize, ?_⟩
  · intro q j hq
    rw [exists_onList, exists_congr fun c' => hon q c', ← exists_onList]
    simp only [hmd]
    exact h.marked q j hq
  · intro c' q hq
    by_cases hqp : q = p
    · subst hqp
      simp
    · simp only [update_of_ne hqp]
      exact h.sorted.partial_some c' q (hother false c' q hqp hq)
  · intro c' q hq hqp
    simp only [update_of_ne hqp, hsize c']
    exact h.sorted.partial_used c' q (hother false c' q hqp hq)
  · intro c' q hq
    have hqp : q ≠ p := by
      rintro rfl
      cases (hcore.lists.owner hq hpl).1
    simp only [update_of_ne hqp]
    exact h.sorted.full_none c' q (hother true c' q hqp hq)
  · intro a
    rw [← held_congr hsize hon a]
    exact held_push hcore.lists hpl a

/-! ## Dissolving an empty slab -/

lemma BuddyCore.live_not_free {N : Nat} {free : Nat → List Nat} {live : Nat → Option Nat}
    (hc : BuddyCore N s free live) (hp : live p = some k) : (s.metadata p).isFree = false := by
  by_contra hf
  exact hc.not_free hp _ (hc.unmarked p (hc.live_lt hp) (by simpa using hf))

lemma onList_unlink {lists : Bool → Nat → List Nat} (h : SlabLists s lists)
    (hp : p ∈ lists full c) {q : Nat} :
    OnList (setList lists full c ((lists full c).erase p)) q ↔ OnList lists q ∧ q ≠ p := by
  constructor
  · rintro ⟨f, c', hq⟩
    obtain ⟨hq, hqp⟩ := (mem_unlink h hp).mp hq
    exact ⟨⟨f, c', hq⟩, hqp⟩
  · rintro ⟨⟨f, c', hq⟩, hqp⟩
    exact ⟨f, c', (mem_unlink h hp).mpr ⟨hq, hqp⟩⟩

/-- A slab without used slots goes back to the buddy allocator. -/
lemma dissolve_spec (h : Returned s v c p) (hall : (v.objs p).length = slots (s.caches c).objSize)
    (md : PageMetadata) (hmdf : md.isFree = (s.metadata p).isFree)
    (hmdo : md.order = (s.metadata p).order)
    (hs' : buddyFree ((unlinkSlab s false c (pageAddr p)).setMetadata p md) (pageAddr p) = s') :
    ∃ v', KheapInv s' v' ∧ SameSizes s s' ∧ ∀ a : Cell, a.Held s' v' ↔ a.Held s v := by
  have hp := h.onPartial
  have hl := h.core.lists
  have hlive := h.core.slabLive ⟨false, c, hp⟩
  have hcore := (h.core.unlink hp).setMetadata hlive
    (hmdf.trans (h.core.buddy.live_not_free hlive)) (hmdo.trans (h.core.order p 0 hlive))
  have hon := fun q => onList_unlink hl hp (q := q)
  have hoff : ¬ OnList (setList v.lists false c ((v.lists false c).erase p)) p :=
    fun ho => ((hon p).mp ho).2 rfl
  obtain ⟨free, hcore', hkeep⟩ := hcore.release hlive hoff
  rw [hs'] at hcore' hkeep
  have hsize : SameSizes s s' := by
    intro c'
    rw [hkeep.caches]
    exact unlinkSlab_objSize s false c (pageAddr p) c'
  refine ⟨_, ⟨hcore', ?_, ⟨?_, ?_, ?_⟩⟩, hsize, ?_⟩
  · intro q j hq
    have hqp : q ≠ p := by
      rintro rfl
      simp at hq
    have hq' : v.live q = some j := by simpa [hqp] using hq
    rw [hkeep.metadata q j hq, hon q]
    simp only [Heap.setMetadata, update_of_ne hqp, hqp, ne_eq, not_false_eq_true, and_true]
    exact h.marked q j hq'
  · intro c' q hq
    exact h.partial_some c' q ((mem_unlink hl hp).mp hq).1
  · intro c' q hq
    obtain ⟨hq, hqp⟩ := (mem_unlink hl hp).mp hq
    rw [hsize c']
    exact h.partial_used c' q hq hqp
  · intro c' q hq
    have hq' : q ∈ setList v.lists false c ((v.lists false c).erase p) true c' := hq
    exact h.full_none c' q ((mem_unlink hl hp).mp hq').1
  · intro a
    cases a with
    | block q j =>
      simp only [Cell.Held, hon]
      by_cases hqp : q = p
      · subst hqp
        simp only [update_self, reduceCtorEq, false_and, false_iff, not_and, not_not]
        exact fun _ => ⟨false, c, hp⟩
      · simp [hqp]
    | slot c' q j =>
      simp only [Cell.Held, hsize c', mem_unlink hl hp]
      by_cases hqp : q = p
      · subst hqp
        simp only [ne_eq, not_true, and_false, exists_false, false_and, false_iff, not_and, not_not]
        rintro ⟨f, hf⟩ hj
        obtain ⟨_, rfl⟩ := hl.owner hf hp
        exact (h.core.page hp).all_free hall hj
      · simp [hqp]

/-- `slab_free` of a slot that is handed out takes exactly this slot back. -/
lemma slabFree_spec (h : KheapInv s v) (hcell : (Cell.slot c p i).Held s v)
    (hs' : slabFree s ((Cell.slot c p i).addr s) = s') :
    ∃ v', KheapInv s' v' ∧ SameSizes s s' ∧
      (∀ a : Cell, a.Held s' v' ↔ a.Held s v ∧ a ≠ .slot c p i) ∧ NoNewSlab s s' ∧
      ((s'.metadata p).isSlab = true → OnList v'.lists p) := by
  obtain ⟨s2, hs2⟩ : ∃ s2, slabPush (slabReopen s (pageAddr p) c) (pageAddr p)
    (objAddr (s.caches c).objSize p i) = s2 := ⟨_, rfl⟩
  obtain ⟨v2, hret, hsize, hheld⟩ := slabPush_spec h hcell hs2
  obtain ⟨⟨full, hp⟩, hi, hused⟩ := hcell
  have hz := h.core.size_ge hp
  have hp32 := h.core.live_lt (h.core.slabLive ⟨full, c, hp⟩)
  have hne : objAddr (s.caches c).objSize p i ≠ 0 := by
    have hin := objAddr_inside (p := p) hi
    omega
  rw [slabFree, Cell.addr, if_neg hne] at hs'
  dsimp only at hs'
  rw [page_of_obj hz hi, (h.core.page hp).parent, hs2] at hs'
  have hmd : s2.metadata = s.metadata := hs2 ▸ slabReopen_metadata s (pageAddr p) c
  have hsp := hret.core.page hret.onPartial
  rw [slabRetire, hsp.freeCount, hsp.totalCount, pageIndex_obj hz hi hp32] at hs'
  by_cases hall : (v2.objs p).length = slots (s2.caches c).objSize
  · rw [if_pos hall] at hs'
    obtain ⟨v', hinv, hsize', hheld'⟩ :=
      dissolve_spec hret hall { s2.metadata p with isSlab := false } rfl rfl hs'
    have hfree : NoNewSlab ((unlinkSlab s2 false c (pageAddr p)).setMetadata p
        { s2.metadata p with isSlab := false }) s' := hs' ▸ noNewSlab_buddyFree _ _
    refine ⟨v', hinv, hsize.trans hsize', ?_, ?_, fun hp' => ?_⟩
    · intro a
      rw [← hheld]
      exact hheld' a
    · have hclear : ((unlinkSlab s2 false c (pageAddr p)).setMetadata p
          { s2.metadata p with isSlab := false }).metadata =
            update s.metadata p { s2.metadata p with isSlab := false } := by
        rw [← hmd]
        rfl
      exact (NoNewSlab.update hclear fun h => absurd h Bool.false_ne_true).trans hfree
    · have hslab := hfree p hp'
      simp [Heap.setMetadata] at hslab
  · rw [if_neg hall] at hs'
    subst hs'
    refine ⟨v2, ⟨hret.core, hret.marked, ⟨hret.partial_some, ?_, hret.full_none⟩⟩, hsize, hheld,
      fun q hq => hmd ▸ hq, fun _ => ⟨false, c, hret.onPartial⟩⟩
    intro c' q hq
    by_cases hqp : q = p
    · subst hqp
      obtain ⟨_, rfl⟩ := hret.core.lists.owner hret.onPartial hq
      exact lt_of_le_of_ne hsp.length_le hall
    · exact hret.partial_used c' q hq hqp

end DestinX
