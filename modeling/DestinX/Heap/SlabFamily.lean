import DestinX.Heap.SlabInvariant

/-!
# The slab lists of all caches

Every cache has a list of partial and a list of full slabs. The two moves of the
slab layer on them, linking a slab into a list and unlinking it, keep all lists
well formed and change only link words of slabs.
-/

namespace DestinX

open Base List

def KmemCache.head (k : KmemCache) (full : Bool) : Nat :=
  if full then k.slabsFull else k.slabsPartial

def KmemCache.setHead (k : KmemCache) (full : Bool) (h : Nat) : KmemCache :=
  if full then { k with slabsFull := h } else { k with slabsPartial := h }

@[simp] lemma KmemCache.setHead_objSize (k : KmemCache) (full : Bool) (h : Nat) :
    (k.setHead full h).objSize = k.objSize := by cases full <;> rfl

lemma KmemCache.head_setHead (k : KmemCache) (full full' : Bool) (h : Nat) :
    (k.setHead full h).head full' = if full' = full then h else k.head full' := by
  cases full <;> cases full' <;> rfl

/-- `slab_list_add(&cache->slabs_…, slab)`. -/
def linkSlab (s : Heap) (full : Bool) (c slab : Nat) : Heap :=
  { s with mem := slabListAdd s.mem ((s.caches c).head full) slab }.setCache c
    ((s.caches c).setHead full slab)

/-- `slab_list_remove(&cache->slabs_…, slab)`. -/
def unlinkSlab (s : Heap) (full : Bool) (c slab : Nat) : Heap :=
  { s with mem := (slabListRemove s.mem ((s.caches c).head full) slab).1 }.setCache c
    ((s.caches c).setHead full (slabListRemove s.mem ((s.caches c).head full) slab).2)

def setList (lists : Bool → Nat → List Nat) (full : Bool) (c : Nat) (l : List Nat) :
    Bool → Nat → List Nat :=
  fun full' c' => if full' = full ∧ c' = c then l else lists full' c'

/-- Page `p` is on some slab list. -/
def OnList (lists : Bool → Nat → List Nat) (p : Nat) : Prop := ∃ full c, p ∈ lists full c

/-- The list heads and link words describe `lists`, and no page is on two lists. -/
structure SlabLists (s : Heap) (lists : Bool → Nat → List Nat) : Prop where
  list : ∀ full, ∀ c < numCaches, SlabList s.mem ((s.caches c).head full) (lists full c)
  bounded : ∀ full c, ∀ p ∈ lists full c, c < numCaches ∧ p < 2 ^ 32
  owner : ∀ {full c full' c' p}, p ∈ lists full c → p ∈ lists full' c' → full = full' ∧ c = c'

variable {s s' : Heap} {lists : Bool → Nat → List Nat} {full : Bool} {c p : Nat}

lemma SlabLists.congr (h : SlabLists s lists) (hcaches : s'.caches = s.caches)
    (hmem : ∀ q, OnList lists q → ∀ x, InLinks q x → s'.mem x = s.mem x) : SlabLists s' lists where
  list full c hc := by
    rw [hcaches]
    exact (h.list full c hc).congr fun q hq => hmem q ⟨full, c, hq⟩
  bounded := h.bounded
  owner := h.owner

lemma setCache_caches (s : Heap) (c c' : Nat) (k : KmemCache) :
    (s.setCache c k).caches c' = if c' = c then k else s.caches c' := by
  by_cases h : c' = c
  · subst h
    simp [Heap.setCache]
  · simp [Heap.setCache, h]

/-- An edit of one list as seen by all lists: the edited list is as given, and
the edit reaches no link word of a slab on another list. -/
lemma SlabLists.edit (h : SlabLists s lists) {m : Mem} {head : Nat} {l : List Nat}
    (hl : SlabList m head l) (hc : c < numCaches)
    (hout : ∀ full' c', ¬ (full' = full ∧ c' = c) → ∀ q ∈ lists full' c', ∀ x, InLinks q x →
      m x = s.mem x) :
    ∀ full', ∀ c' < numCaches,
      SlabList m ((({ s with mem := m }.setCache c ((s.caches c).setHead full head)).caches c').head
        full') (setList lists full c l full' c') := by
  intro full' c' hc'
  rw [setCache_caches]
  by_cases hkey : full' = full ∧ c' = c
  · obtain ⟨rfl, rfl⟩ := hkey
    simpa [setList, KmemCache.head_setHead] using hl
  · have hkeep : SlabList m ((s.caches c').head full') (lists full' c') :=
      (h.list full' c' hc').congr (hout full' c' hkey)
    simp only [setList, if_neg hkey]
    by_cases hcc : c' = c
    · subst hcc
      have hfull : full' ≠ full := fun hf => hkey ⟨hf, rfl⟩
      simpa [KmemCache.head_setHead, hfull] using hkeep
    · simpa [hcc] using hkeep

lemma inLinks_page {q q' x : Nat} (hx : InLinks q x) (hx' : InLinks q' x) : q = q' := by
  simp only [InLinks, pageAddr, pageSize] at hx hx'
  omega

/-! ## Linking -/

lemma linkSlab_outside (h : SlabLists s lists) (hc : c < numCaches) {x : Nat}
    (hx : ∀ q, OnList lists q ∨ q = p → ¬ InLinks q x) :
    (linkSlab s full c (pageAddr p)).mem x = s.mem x := by
  apply slabListAdd_outside (h.list full c hc)
  intro q hq
  rcases mem_cons.mp hq with rfl | hq
  · exact hx q (.inr rfl)
  · exact hx q (.inl ⟨full, c, hq⟩)

lemma mem_link {q c' : Nat} {full' : Bool} :
    q ∈ setList lists full c (p :: lists full c) full' c' ↔
      q ∈ lists full' c' ∨ (q = p ∧ full' = full ∧ c' = c) := by
  by_cases hkey : full' = full ∧ c' = c
  · obtain ⟨rfl, rfl⟩ := hkey
    simp [setList, or_comm]
  · simp [setList, hkey]

section

variable (h : SlabLists s lists)
include h

lemma SlabLists.link (hc : c < numCaches) (hp : p < 2 ^ 32) (hnew : ¬ OnList lists p) :
    SlabLists (linkSlab s full c (pageAddr p)) (setList lists full c (p :: lists full c)) where
  list := by
    have hl := slabListAdd_list (h.list full c hc) (fun hm => hnew ⟨full, c, hm⟩) hp
      fun q hq => (h.bounded full c q hq).2
    apply h.edit hl hc
    intro full' c' hkey q hq x hx
    apply slabListAdd_outside (h.list full c hc)
    intro q' hq' hx'
    obtain rfl := inLinks_page hx hx'
    rcases mem_cons.mp hq' with rfl | hq'
    · exact hnew ⟨full', c', hq⟩
    · exact hkey (h.owner hq hq')
  bounded := by
    intro full' c' q hq
    rcases mem_link.mp hq with hq | ⟨rfl, rfl, rfl⟩
    · exact h.bounded full' c' q hq
    · exact ⟨hc, hp⟩
  owner := by
    intro f1 c1 f2 c2 q h1 h2
    rcases mem_link.mp h1 with g1 | ⟨e1, hf1, hc1⟩
    · rcases mem_link.mp h2 with g2 | ⟨e2, _, _⟩
      · exact h.owner g1 g2
      · exact absurd ⟨f1, c1, e2 ▸ g1⟩ hnew
    · rcases mem_link.mp h2 with g2 | ⟨_, hf2, hc2⟩
      · exact absurd ⟨f2, c2, e1 ▸ g2⟩ hnew
      · exact ⟨hf1.trans hf2.symm, hc1.trans hc2.symm⟩

/-! ## Unlinking -/

section

variable (hp : p ∈ lists full c)
include hp

lemma SlabLists.split :
    ∃ l1 l2, lists full c = l1 ++ p :: l2 ∧ (lists full c).erase p = l1 ++ l2 ∧
      SlabList s.mem ((s.caches c).head full) (l1 ++ p :: l2) := by
  have hl := h.list full c (h.bounded full c p hp).1
  obtain ⟨l1, l2, he⟩ := append_of_mem hp
  have hnd := hl.nodup
  rw [he] at hl hnd
  refine ⟨l1, l2, he, ?_, hl⟩
  have hnot : p ∉ l1 := fun hm => (nodup_append.mp hnd).2.2 p hm p (by simp) rfl
  rw [he, erase_append_right _ hnot, erase_cons_head]

lemma unlinkSlab_outside {x : Nat} (hx : ∀ q, OnList lists q → ¬ InLinks q x) :
    (unlinkSlab s full c (pageAddr p)).mem x = s.mem x := by
  obtain ⟨l1, l2, he, _, hl⟩ := h.split hp
  exact slabListRemove_outside hl fun q hq => hx q ⟨full, c, he ▸ hq⟩

lemma mem_unlink {q c' : Nat} {full' : Bool} :
    q ∈ setList lists full c ((lists full c).erase p) full' c' ↔ q ∈ lists full' c' ∧ q ≠ p := by
  by_cases hkey : full' = full ∧ c' = c
  · obtain ⟨rfl, rfl⟩ := hkey
    have hnd := (h.list full' c' (h.bounded full' c' p hp).1).nodup
    simp [setList, hnd.mem_erase_iff, and_comm]
  · simp only [setList, if_neg hkey]
    refine ⟨fun hq => ⟨hq, ?_⟩, And.left⟩
    rintro rfl
    exact hkey (h.owner hq hp)

lemma SlabLists.unlink : SlabLists (unlinkSlab s full c (pageAddr p))
      (setList lists full c ((lists full c).erase p)) where
  list := by
    have hc := (h.bounded full c p hp).1
    obtain ⟨l1, l2, he, herase, hl⟩ := h.split hp
    rw [herase]
    apply h.edit (slabListRemove_list hl) hc
    intro full' c' hkey q hq x hx
    apply slabListRemove_outside hl
    intro q' hq' hx'
    obtain rfl := inLinks_page hx hx'
    exact hkey (h.owner hq (he ▸ hq'))
  bounded full' c' q hq := h.bounded full' c' q ((mem_unlink h hp).mp hq).1
  owner h1 h2 := h.owner ((mem_unlink h hp).mp h1).1 ((mem_unlink h hp).mp h2).1

end

end

end DestinX
