import DestinX.Heap.Slab

/-!
# What the allocators do to the page metadata

The order and the `is_free` bit of a page are written by the buddy allocator only, and
what it writes depends on nothing else. The `is_slab` bit is set by `slab_create` only,
for the page that becomes a slab.
-/

namespace DestinX

open Base Option

/-- The orders and the `is_free` bits of all pages are the same in both heaps. -/
def SameMarks (s s' : Heap) : Prop :=
  ∀ p, (s'.metadata p).isFree = (s.metadata p).isFree ∧ (s'.metadata p).order = (s.metadata p).order

/-- No page has got the `is_slab` bit. -/
def NoNewSlab (s s' : Heap) : Prop :=
  ∀ p, (s'.metadata p).isSlab = true → (s.metadata p).isSlab = true

variable {s s' : Heap} {a k n order c : Nat}

lemma SameMarks.of_metadata (h : s'.metadata = s.metadata) : SameMarks s s' := by
  intro p
  rw [h]
  exact ⟨rfl, rfl⟩

lemma SameMarks.trans {s1 s2 s3 : Heap} (h : SameMarks s1 s2) (h' : SameMarks s2 s3) :
    SameMarks s1 s3 := fun p => ⟨(h' p).1.trans (h p).1, (h' p).2.trans (h p).2⟩

section

variable (h : SameMarks s s')
include h

lemma SameMarks.setMetadata {md : PageMetadata} {index : Nat}
    (hfree : md.isFree = (s.metadata index).isFree) (horder : md.order = (s.metadata index).order) :
    SameMarks s (s'.setMetadata index md) := by
  intro p
  by_cases hp : p = index
  · subst hp
    simp [Heap.setMetadata, hfree, horder]
  · simp only [Heap.setMetadata, Function.update_of_ne hp]
    exact h p

lemma SameMarks.update {t t' : Heap} {index : Nat} {md md' : PageMetadata}
    (ht : t.metadata = Function.update s.metadata index md)
    (ht' : t'.metadata = Function.update s'.metadata index md') (hfree : md'.isFree = md.isFree)
    (horder : md'.order = md.order) : SameMarks t t' := by
  intro p
  rw [ht, ht']
  by_cases hp : p = index
  · subst hp
    simp [hfree, horder]
  · simp only [Function.update_of_ne hp]
    exact h p

lemma SameMarks.listRemove (a k : Nat) :
    SameMarks (buddyListRemove s a k) (buddyListRemove s' a k) :=
  h.update rfl rfl rfl (h (pageIndex a)).2

lemma SameMarks.listAdd (a k : Nat) : SameMarks (buddyListAdd s a k) (buddyListAdd s' a k) :=
  h.update rfl rfl rfl rfl

lemma SameMarks.coalesce : (buddyCoalesce s' a k n).2 = (buddyCoalesce s a k n).2 ∧
      SameMarks (buddyCoalesce s a k n).1 (buddyCoalesce s' a k n).1 := by
  induction n generalizing s s' a k with
  | zero => exact ⟨rfl, h⟩
  | succ n ih =>
    obtain ⟨hfree, horder⟩ := h (pageIndex (a ^^^ (2 ^ k * pageSize)))
    simp only [buddyCoalesce, hfree, horder]
    split_ifs with htest
    · exact ih (h.listRemove _ _)
    · exact ih (h.listRemove _ _)
    · exact ⟨rfl, h⟩

/-- What `buddy_free` marks depends on the marks alone. -/
lemma SameMarks.buddyFree (a : Nat) :
    SameMarks (DestinX.buddyFree s a) (DestinX.buddyFree s' a) := by
  have horder := (h (pageIndex a)).2
  obtain ⟨hres, hmarks⟩ := h.coalesce (a := a) (k := (s.metadata (pageIndex a)).order)
    (n := maxOrders - (s.metadata (pageIndex a)).order)
  simp only [DestinX.buddyFree, horder, hres]
  exact hmarks.listAdd _ _

end

/-! ## The `is_slab` bit -/

lemma NoNewSlab.refl (s : Heap) : NoNewSlab s s := fun _ h => h

lemma NoNewSlab.trans {s1 s2 s3 : Heap} (h : NoNewSlab s1 s2) (h' : NoNewSlab s2 s3) :
    NoNewSlab s1 s3 := fun p hp => h p (h' p hp)

lemma NoNewSlab.update {md : PageMetadata} {index : Nat}
    (hs : s'.metadata = Function.update s.metadata index md)
    (hmd : md.isSlab = true → (s.metadata index).isSlab = true) : NoNewSlab s s' := by
  intro p hp
  rw [hs] at hp
  by_cases hpi : p = index
  · subst hpi
    rw [Function.update_self] at hp
    exact hmd hp
  · rwa [Function.update_of_ne hpi] at hp

lemma noNewSlab_listRemove (s : Heap) (a k : Nat) : NoNewSlab s (buddyListRemove s a k) :=
  NoNewSlab.update rfl fun h => h

lemma noNewSlab_listAdd (s : Heap) (a k : Nat) : NoNewSlab s (buddyListAdd s a k) :=
  NoNewSlab.update rfl fun h => absurd h Bool.false_ne_true

lemma noNewSlab_split (s : Heap) (a order i : Nat) : NoNewSlab s (buddySplit s a order i) := by
  induction i generalizing s with
  | zero => exact NoNewSlab.refl s
  | succ i ih =>
    rw [buddySplit]
    split_ifs
    · exact (noNewSlab_listAdd _ _ _).trans (ih _)
    · exact NoNewSlab.refl s

lemma noNewSlab_coalesce (s : Heap) (a k n : Nat) : NoNewSlab s (buddyCoalesce s a k n).1 := by
  induction n generalizing s a k with
  | zero => exact NoNewSlab.refl s
  | succ n ih =>
    simp only [buddyCoalesce]
    split_ifs
    · exact (noNewSlab_listRemove _ _ _).trans (ih _ _ _)
    · exact (noNewSlab_listRemove _ _ _).trans (ih _ _ _)
    · exact NoNewSlab.refl s

lemma noNewSlab_buddyServe (h : buddyServe s order = some (s', a)) : NoNewSlab s s' := by
  simp only [buddyServe, map_eq_some_iff] at h
  obtain ⟨i, -, heq⟩ := h
  obtain ⟨rfl, -⟩ := heq
  have hsplit := (noNewSlab_listRemove s (s.freeAreas i) i).trans
    (noNewSlab_split _ (s.freeAreas i) order i)
  exact hsplit.trans (NoNewSlab.update rfl fun h => absurd h Bool.false_ne_true)

lemma noNewSlab_buddyFree (s : Heap) (a : Nat) : NoNewSlab s (buddyFree s a) :=
  (noNewSlab_coalesce _ _ _ _).trans (noNewSlab_listAdd _ _ _)

/-! ## Slabs -/

lemma slabTake_metadata (s : Heap) (c : Nat) : (slabTake s c).1.metadata = s.metadata := by
  rw [slabTake]
  split_ifs <;> rfl

lemma slabReopen_metadata (s : Heap) (slab c : Nat) :
    (slabReopen s slab c).metadata = s.metadata := by
  rw [slabReopen]
  split_ifs <;> rfl

/-- `slab_free` either leaves the marks alone or returns the page of the slab. -/
lemma slabRetire_marks (s : Heap) (slab c ptr : Nat) : SameMarks s (slabRetire s slab c ptr) ∨
      SameMarks (buddyFree s slab) (slabRetire s slab c ptr) := by
  simp only [slabRetire]
  split_ifs
  · refine .inr (SameMarks.buddyFree ?_ slab)
    exact (SameMarks.of_metadata rfl).setMetadata rfl rfl
  · exact .inl (SameMarks.of_metadata rfl)

lemma slabFree_marks (s : Heap) (a : Nat) : SameMarks s (slabFree s a) ∨
      SameMarks (buddyFree s (a / pageSize * pageSize)) (slabFree s a) := by
  rw [slabFree]
  split_ifs with hzero
  · exact .inl (SameMarks.of_metadata rfl)
  have hpush : SameMarks s (slabPush (slabReopen s (a / pageSize * pageSize)
      (load64 s.mem (a / pageSize * pageSize + 16))) (a / pageSize * pageSize) a) :=
    SameMarks.of_metadata (slabReopen_metadata _ _ _)
  rcases slabRetire_marks _ (a / pageSize * pageSize) _ a with hsame | hsame
  · exact .inl (hpush.trans hsame)
  · exact .inr ((hpush.buddyFree _).trans hsame)

/-- A cache gets a new slab when it has no partial one: the page that `buddy_alloc(0)`
gives is marked and becomes the first partial slab. -/
lemma slabRefill_cases (h : slabRefill [] s c = some s') :
    s' = s ∨ ∃ s1, buddyServe s 0 = some (s1, (s'.caches c).slabsPartial) ∧
      s'.metadata = Function.update s1.metadata (pageIndex (s'.caches c).slabsPartial)
        { s1.metadata (pageIndex (s'.caches c).slabsPartial) with isSlab := true } := by
  rw [slabRefill] at h
  split_ifs at h with hzero
  · simp only [slabCreate, buddyAlloc, map_eq_some_iff, bind_eq_some_iff] at h
    obtain ⟨r, ⟨⟨s1, page⟩, hserve, m, -, rfl⟩, rfl⟩ := h
    refine .inr ⟨s1, ?_, ?_⟩
    · simpa [Heap.setCache] using hserve
    · simp [Heap.setCache, Heap.setMetadata]
  · exact .inl (some_inj.mp h).symm

end DestinX
