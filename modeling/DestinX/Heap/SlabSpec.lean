import DestinX.Heap.KheapMoves
import DestinX.Heap.PageMarks

/-!
# `slab_alloc` and `slab_free`

`slab_alloc` adds one slot of the cache to the cells that are handed out and
`slab_free` takes the slot away again. Slabs are created, moved between the two
lists of their cache and dissolved on the way without any effect on other cells.
-/

namespace DestinX

open Base Function List Option

variable {s s' : Heap} {v : KheapView} {full : Bool} {c p i k : Nat} {fl l : List Nat}

/-- The object sizes of all caches are the same in both heaps. -/
def SameSizes (s s' : Heap) : Prop := ∀ c, (s'.caches c).objSize = (s.caches c).objSize

lemma SameSizes.trans {s1 s2 s3 : Heap} (h : SameSizes s1 s2) (h' : SameSizes s2 s3) :
    SameSizes s1 s3 := fun c => (h' c).trans (h c)

lemma onList_link {lists : Bool → Nat → List Nat} {q : Nat} :
    OnList (setList lists full c (p :: lists full c)) q ↔ OnList lists q ∨ q = p := by
  constructor
  · rintro ⟨full', c', hq⟩
    rcases mem_link.mp hq with hq | ⟨rfl, _, _⟩
    · exact .inl ⟨full', c', hq⟩
    · exact .inr rfl
  · rintro (⟨full', c', hq⟩ | rfl)
    · exact ⟨full', c', mem_link.mpr (.inl hq)⟩
    · exact ⟨full, c, mem_link.mpr (.inr ⟨rfl, rfl, rfl⟩)⟩

/-! ## Moving a slab between the lists of its cache -/

lemma KheapCore.relist (h : KheapCore s v) (full' : Bool) (hp : p ∈ v.lists full c) :
    ∃ lists, KheapCore (linkSlab (unlinkSlab s full c (pageAddr p)) full' c (pageAddr p))
        { v with lists := lists } ∧
      ∀ f c' q, q ∈ lists f c' ↔ (q ∈ v.lists f c' ∧ q ≠ p) ∨ (q = p ∧ f = full' ∧ c' = c) := by
  have hc := (h.lists.bounded full c p hp).1
  have hoff : ¬ OnList (setList v.lists full c ((v.lists full c).erase p)) p := by
    rintro ⟨f, c', hm⟩
    exact ((mem_unlink h.lists hp).mp hm).2 rfl
  have hpage : SlabPage (unlinkSlab s full c (pageAddr p)).mem
      ((unlinkSlab s full c (pageAddr p)).caches c).objSize c p (v.objs p) := by
    rw [unlinkSlab_objSize]
    exact h.unlink_page hp hp
  refine ⟨_, (h.unlink hp).link hc (h.slabLive ⟨full, c, hp⟩) hoff hpage, ?_⟩
  intro f c' q
  rw [mem_link, mem_unlink h.lists hp]

lemma relist_objSize (s : Heap) (full full' : Bool) (c slab : Nat) :
    SameSizes s (linkSlab (unlinkSlab s full c slab) full' c slab) := by
  intro c'
  rw [linkSlab_objSize, unlinkSlab_objSize]

/-- Moving a slab changes which list of its cache it is on and nothing else. -/
lemma relist_onList {lists lists' : Bool → Nat → List Nat} {full' : Bool} (hp : p ∈ lists full c)
    (hmem : ∀ f c' q, q ∈ lists' f c' ↔ (q ∈ lists f c' ∧ q ≠ p) ∨ (q = p ∧ f = full' ∧ c' = c))
    (howner : ∀ f c', p ∈ lists f c' → c' = c) (q c' : Nat) :
    (∃ f, q ∈ lists' f c') ↔ ∃ f, q ∈ lists f c' := by
  constructor
  · rintro ⟨f, hq⟩
    rcases (hmem f c' q).mp hq with ⟨hq, _⟩ | ⟨rfl, rfl, rfl⟩
    · exact ⟨f, hq⟩
    · exact ⟨full, hp⟩
  · rintro ⟨f, hq⟩
    by_cases hqp : q = p
    · subst hqp
      obtain rfl := howner f c' hq
      exact ⟨full', (hmem full' c' q).mpr (.inr ⟨rfl, rfl, rfl⟩)⟩
    · exact ⟨f, (hmem f c' q).mpr (.inl ⟨hq, hqp⟩)⟩

lemma exists_onList {lists : Bool → Nat → List Nat} {q : Nat} :
    OnList lists q ↔ ∃ c f, q ∈ lists f c := exists_comm

/-- The cells depend on the lists only through the cache of each slab. -/
lemma held_congr {lists : Bool → Nat → List Nat} (hs : SameSizes s s')
    (hl : ∀ q c, (∃ f, q ∈ lists f c) ↔ ∃ f, q ∈ v.lists f c) (a : Cell) :
    a.Held s' { v with lists := lists } ↔ a.Held s v := by
  have hon : ∀ q, OnList lists q ↔ OnList v.lists q := by
    intro q
    rw [exists_onList, exists_onList]
    exact exists_congr fun c => hl q c
  cases a with
  | block p k => simp only [Cell.Held, hon]
  | slot c p i => simp only [Cell.Held, hs c, hl]

/-! ## The contents of one slab -/

lemma held_pop {m : Mem} (hl : SlabLists s v.lists) (hp : p ∈ v.lists full c)
    (ho : v.objs p = i :: fl) (hi : i < slots (s.caches c).objSize) (hfree : i ∉ fl) (a : Cell) :
    a.Held { s with mem := m } { v with objs := update v.objs p fl } ↔
      a.Held s v ∨ a = .slot c p i := by
  cases a with
  | block q k => simp [Cell.Held]
  | slot c' q j =>
    simp only [Cell.Held, Cell.slot.injEq]
    by_cases hq : q = p
    · subst hq
      simp only [update_self, ho, mem_cons, not_or, true_and]
      constructor
      · rintro ⟨⟨f, hf⟩, hj, hjf⟩
        obtain ⟨_, rfl⟩ := hl.owner hf hp
        by_cases hji : j = i
        · exact .inr ⟨rfl, hji⟩
        · exact .inl ⟨⟨f, hf⟩, hj, hji, hjf⟩
      · rintro (⟨hf, hj, _, hjf⟩ | ⟨rfl, rfl⟩)
        · exact ⟨hf, hj, hjf⟩
        · exact ⟨⟨full, hp⟩, hi, hfree⟩
    · simp [hq]

lemma held_push {m : Mem} (hl : SlabLists s v.lists) (hp : p ∈ v.lists full c) (a : Cell) :
    a.Held { s with mem := m } { v with objs := update v.objs p (i :: v.objs p) } ↔
      a.Held s v ∧ a ≠ .slot c p i := by
  cases a with
  | block q k => simp [Cell.Held]
  | slot c' q j =>
    simp only [Cell.Held, ne_eq, Cell.slot.injEq, not_and]
    by_cases hq : q = p
    · subst hq
      simp only [update_self, mem_cons, not_or, true_implies]
      constructor
      · rintro ⟨hf, hj, hji, hjf⟩
        exact ⟨⟨hf, hj, hjf⟩, fun _ => hji⟩
      · rintro ⟨⟨⟨f, hf⟩, hj, hjf⟩, hji⟩
        exact ⟨⟨f, hf⟩, hj, hji (hl.owner hf hp).2, hjf⟩
    · simp [hq]

/-! ## Allocation -/

/-- The invariant while `slab_alloc` works on cache `c`: the first partial slab
of the cache may still have all its slots free. -/
structure Refilled (s : Heap) (v : KheapView) (c : Nat) : Prop where
  core : KheapCore s v
  marked : Marked s v
  some_partial : v.lists false c ≠ []
  partial_some : ∀ c, ∀ p ∈ v.lists false c, v.objs p ≠ []
  partial_used : ∀ c', ∀ p ∈ v.lists false c', p ∉ (v.lists false c).head? →
    (v.objs p).length < slots (s.caches c').objSize
  full_none : ∀ c, ∀ p ∈ v.lists true c, v.objs p = []

lemma first_obj (p : Nat) : (pageAddr p + slabHeader + 7) / 8 * 8 = pageAddr p + slabHeader := by
  simp only [pageAddr, pageSize, heapStart, slabHeader]
  omega

lemma KheapCore.not_onList (h : KheapCore s v) (hp : v.live p = none) : ¬ OnList v.lists p := by
  intro hon
  rw [h.slabLive hon] at hp
  cases hp

/-- `slab_create` takes a page from the buddy allocator and prepares it, without
putting it on a list yet. -/
lemma slabCreate_spec (h : KheapCore s v) (hc : c < numCaches) {a : Nat}
    (hrun : slabCreate [] s c = some (s', a)) :
    ∃ p free, a = pageAddr p ∧ v.live p = none ∧ KheapCore s' { v with
          free := free
          live := update v.live p (some 0)
          objs := update v.objs p (List.range (slots (s.caches c).objSize)) } ∧
      SlabPage s'.mem (s.caches c).objSize c p (List.range (slots (s.caches c).objSize)) ∧
      (s'.metadata p).isSlab = true ∧
      (∀ q j, v.live q = some j → s'.metadata q = s.metadata q) ∧ s'.caches = s.caches := by
  simp only [slabCreate, buddyAlloc, bind_eq_some_iff, map_eq_some_iff] at hrun
  obtain ⟨⟨s1, page⟩, hserve, m3, hcarve, heq⟩ := hrun
  obtain ⟨_, p, free, rfl, hnone, hcore, hmd, hkeep⟩ := h.serve hserve
  have hlive : update v.live p (some 0) p = some 0 := update_self _ _ _
  have hp32 : p < 2 ^ 32 := hcore.live_lt hlive
  have hoff := h.not_onList hnone
  obtain ⟨hz, hz'⟩ := h.sized c hc
  simp only [pageIndex_pageAddr hp32, first_obj, hmd, Heap.setMetadata] at hcarve heq
  rw [hkeep.caches] at hcarve
  have hc64 : c < 2 ^ 64 := by
    simp only [numCaches] at hc
    omega
  obtain ⟨m', hcarve', hpage, hout⟩ := slabCarve_page hz hz' hp32 hc64 s1.mem
  obtain rfl : m' = m3 := some.inj (hcarve'.symm.trans hcarve)
  cases heq
  have hmark : KheapCore (s1.setMetadata p ⟨0, false, true⟩) _ := hcore.setMetadata hlive rfl rfl
  refine ⟨p, free, rfl, hnone, ?_, hpage, by simp, ?_, hkeep.caches⟩
  · exact hmark.setPage hlive hout (fun hon => absurd hon hoff)
      fun full c' hp => absurd ⟨full, c', hp⟩ hoff
  · intro q j hq
    have hqp : q ≠ p := by
      rintro rfl
      rw [hnone] at hq
      cases hq
    simp only [update_of_ne hqp]
    exact hkeep.metadata q j hq

/-- After the first part of `slab_alloc` the cache has a partial slab, and the
same cells are handed out. -/
lemma slabRefill_spec (h : KheapInv s v) (hc : c < numCaches)
    (hrun : slabRefill [] s c = some s') :
    ∃ v', Refilled s' v' c ∧ SameSizes s s' ∧ ∀ a : Cell, a.Held s' v' ↔ a.Held s v := by
  have hlist := h.core.lists.list false c hc
  by_cases hhead : (s.caches c).slabsPartial = 0
  · simp only [slabRefill, if_pos hhead, map_eq_some_iff] at hrun
    obtain ⟨⟨s1, page⟩, hcreate, hs'⟩ := hrun
    obtain ⟨p, free, rfl, hnone, hcore, hpage, hslab, hmd, hcaches⟩ :=
      slabCreate_spec h.core hc hcreate
    have hlink : s' = linkSlab s1 false c (pageAddr p) := hs'.symm
    subst hlink
    have hoff := h.core.not_onList hnone
    have hsize : SameSizes s (linkSlab s1 false c (pageAddr p)) := by
      intro c'
      rw [linkSlab_objSize, hcaches]
    have hpos : 0 < slots (s.caches c).objSize := by
      have := h.core.sized c hc
      exact Nat.div_pos (by omega) (by omega)
    have hpage' : SlabPage s1.mem (s1.caches c).objSize c p
        (update v.objs p (List.range (slots (s.caches c).objSize)) p) := by
      rw [hcaches, update_self]
      exact hpage
    have hkeep : ∀ {full c' q}, q ∈ v.lists full c' → q ≠ p := by
      rintro full c' q hq rfl
      exact hoff ⟨full, c', hq⟩
    refine ⟨_, ⟨hcore.link hc (update_self _ _ _) hoff hpage', ?_, ?_, ?_, ?_, ?_⟩, hsize, ?_⟩
    · intro q j hq
      rw [onList_link]
      by_cases hqp : q = p
      · subst hqp
        exact ⟨fun _ => .inr rfl, fun _ => hslab⟩
      · simp only [update_of_ne hqp] at hq
        have hm : (linkSlab s1 false c (pageAddr p)).metadata q = s.metadata q := hmd q j hq
        rw [hm, h.marked q j hq]
        simp [hqp]
    · simp [setList]
    · intro c' q hq
      rcases mem_link.mp hq with hq | ⟨rfl, _, _⟩
      · simp only [update_of_ne (hkeep hq)]
        exact h.sorted.partial_some c' q hq
      · simpa using hpos.ne'
    · intro c' q hq hne
      rcases mem_link.mp hq with hq | ⟨rfl, _, _⟩
      · simp only [update_of_ne (hkeep hq), hsize c']
        exact h.sorted.partial_used c' q hq
      · simp [setList] at hne
    · intro c' q hq
      have hq' : q ∈ setList v.lists false c (p :: v.lists false c) true c' := hq
      rcases mem_link.mp hq' with hq | ⟨_, hf, _⟩
      · simp only [update_of_ne (hkeep hq)]
        exact h.sorted.full_none c' q hq
      · cases hf
    · intro a
      cases a with
      | block q j =>
        simp only [Cell.Held, onList_link]
        by_cases hqp : q = p
        · subst hqp
          simp [hnone]
        · simp [hqp]
      | slot c' q j =>
        simp only [Cell.Held, hsize c']
        by_cases hqp : q = p
        · subst hqp
          constructor
          · rintro ⟨⟨f, hf⟩, hj, hfree⟩
            rcases mem_link.mp hf with hf | ⟨_, _, rfl⟩
            · exact absurd ⟨f, c', hf⟩ hoff
            · simp only [update_self, mem_range] at hfree
              exact absurd hj hfree
          · rintro ⟨⟨f, hf⟩, _⟩
            exact absurd ⟨f, c', hf⟩ hoff
        · simp only [update_of_ne hqp, mem_link, hqp, false_and, or_false]
  · simp only [slabRefill, if_neg hhead, some.injEq] at hrun
    subst hrun
    refine ⟨v, ⟨h.core, h.marked, ?_, h.sorted.partial_some, fun c' p hp _ =>
      h.sorted.partial_used c' p hp, h.sorted.full_none⟩, fun _ => rfl, fun _ => Iff.rfl⟩
    intro hnil
    exact hhead (hlist.head_zero_iff.mpr hnil)

/-- The lists after a slab that lost its last free slot has moved. -/
lemma slabTake_eq {slab : Nat} (hslab : (s.caches c).slabsPartial = slab) : slabTake s c =
      (if load32 (popObject s.mem slab) (slab + 8) = 0 then
        linkSlab (unlinkSlab { s with mem := popObject s.mem slab } false c slab) true c slab
      else { s with mem := popObject s.mem slab }, load64 s.mem slab) := by
  subst hslab
  rw [slabTake, popObject]
  dsimp only
  split
  · simp [linkSlab, unlinkSlab, Heap.setCache, KmemCache.head, KmemCache.setHead]
  · rfl

section

variable (h : Refilled s v c)
include h

/-- Taking the first free object of a partial slab keeps all but the sorting of the lists. -/
lemma Refilled.pop (hp : p ∈ v.lists false c) (ho : v.objs p = i :: fl) :
    KheapCore { s with mem := popObject s.mem (pageAddr p) }
      { v with objs := update v.objs p fl } := by
  have hsp := h.core.page hp
  rw [ho] at hsp
  have hz := h.core.size_ge hp
  apply h.core.setPage (h.core.slabLive ⟨false, c, hp⟩)
  · intro x hx
    apply popObject_outside
    simp only [InPage, pageSize] at hx
    omega
  · intro _ x hx
    apply popObject_outside
    simp only [InLinks] at hx
    omega
  · intro full c' hp'
    obtain ⟨_, rfl⟩ := h.core.lists.owner hp hp'
    exact hsp.pop hz

section

variable (hl : v.lists false c = p :: l)
include hl

/-- Only the first partial slab of the cache may have all its slots free. -/
lemma Refilled.used {c' q : Nat} (hq : q ∈ v.lists false c') (hne : q ≠ p) :
    (v.objs q).length < slots (s.caches c').objSize := by
  apply h.partial_used c' q hq
  simp [hl, hne.symm]

/-- The slab has free objects left and stays where it is. -/
lemma Refilled.sorted_pop (ho : v.objs p = i :: fl) (hfl : fl ≠ []) :
    Sorted { s with mem := popObject s.mem (pageAddr p) }
      { v with objs := update v.objs p fl } := by
  have hp : p ∈ v.lists false c := by simp [hl]
  have hlen := (h.core.page hp).length_le
  rw [ho, length_cons] at hlen
  refine ⟨?_, ?_, ?_⟩
  · intro c' q hq
    by_cases hqp : q = p
    · subst hqp
      simpa using hfl
    · simp only [update_of_ne hqp]
      exact h.partial_some c' q hq
  · intro c' q hq
    by_cases hqp : q = p
    · subst hqp
      obtain ⟨_, rfl⟩ := h.core.lists.owner hp hq
      simp only [update_self]
      omega
    · simp only [update_of_ne hqp]
      exact h.used hl hq hqp
  · intro c' q hq
    have hqp : q ≠ p := by
      rintro rfl
      cases (h.core.lists.owner hq hp).1
    simp only [update_of_ne hqp]
    exact h.full_none c' q hq

/-- The slab has no free object left and is on the full list. -/
lemma Refilled.sorted_full {lists : Bool → Nat → List Nat} (hsize : SameSizes s s')
    (hmem : ∀ f c' q, q ∈ lists f c' ↔ (q ∈ v.lists f c' ∧ q ≠ p) ∨ (q = p ∧ f = true ∧ c' = c)) :
    Sorted s' { v with objs := update v.objs p [], lists := lists } := by
  refine ⟨?_, ?_, ?_⟩
  · intro c' q hq
    rcases (hmem false c' q).mp hq with ⟨hq, hqp⟩ | ⟨_, hf, _⟩
    · simp only [update_of_ne hqp]
      exact h.partial_some c' q hq
    · cases hf
  · intro c' q hq
    rcases (hmem false c' q).mp hq with ⟨hq, hqp⟩ | ⟨_, hf, _⟩
    · simp only [update_of_ne hqp, hsize c']
      exact h.used hl hq hqp
    · cases hf
  · intro c' q hq
    rcases (hmem true c' q).mp hq with ⟨hq, hqp⟩ | ⟨rfl, _, _⟩
    · simp only [update_of_ne hqp]
      exact h.full_none c' q hq
    · exact update_self _ _ _

end

/-- The second part of `slab_alloc` hands out one more slot of the cache. -/
lemma slabTake_spec (hc : c < numCaches) :
    ∃ v' p i, KheapInv (slabTake s c).1 v' ∧ SameSizes s (slabTake s c).1 ∧
      (slabTake s c).2 = (Cell.slot c p i).addr s ∧ ¬ (Cell.slot c p i).Held s v ∧
      (s.caches c).slabsPartial = pageAddr p ∧
      ∀ a : Cell, a.Held (slabTake s c).1 v' ↔ a.Held s v ∨ a = .slot c p i := by
  obtain ⟨p, l, hl⟩ := exists_cons_of_ne_nil h.some_partial
  have hp : p ∈ v.lists false c := by simp [hl]
  obtain ⟨i, fl, ho⟩ := exists_cons_of_ne_nil (h.partial_some c p hp)
  have hhead : (s.caches c).slabsPartial = pageAddr p := by
    have hlist : SlabList s.mem (s.caches c).slabsPartial (v.lists false c) :=
      h.core.lists.list false c hc
    rw [hl] at hlist
    exact hlist.head_eq
  have hsp := h.core.page hp
  rw [ho] at hsp
  have hpop := hsp.pop (h.core.size_ge hp)
  have hcore := h.pop hp ho
  have hheld : ∀ a : Cell, a.Held { s with mem := popObject s.mem (pageAddr p) }
      { v with objs := update v.objs p fl } ↔ a.Held s v ∨ a = .slot c p i :=
    held_pop h.core.lists hp ho (hsp.inside i (by simp)) (nodup_cons.mp hsp.nodup).1
  have hnew : ¬ (Cell.slot c p i).Held s v := by
    rintro ⟨_, _, hfree⟩
    exact hfree (by simp [ho])
  rw [slabTake_eq hhead, hpop.freeCount]
  by_cases hfl : fl = []
  · subst hfl
    obtain ⟨lists, hcore', hmem⟩ := hcore.relist true hp
    have hsize := relist_objSize { s with mem := popObject s.mem (pageAddr p) } false true c
      (pageAddr p)
    have hon := relist_onList hp hmem fun f c' hf => (h.core.lists.owner hf hp).2
    refine ⟨_, p, i, ⟨hcore', ?_, h.sorted_full hl hsize hmem⟩, hsize, hsp.first, hnew, hhead, ?_⟩
    · intro q j hq
      rw [exists_onList, exists_congr fun c' => hon q c', ← exists_onList]
      exact h.marked q j hq
    · intro a
      rw [← hheld a]
      exact held_congr (v := { v with objs := update v.objs p [] }) hsize hon a
  · rw [if_neg (by simpa using hfl)]
    exact ⟨_, p, i, ⟨hcore, h.marked, h.sorted_pop hl ho hfl⟩, fun _ => rfl, hsp.first, hnew, hhead,
      hheld⟩

end

lemma slabAlloc_spec (h : KheapInv s v) (hc : c < numCaches) {a : Nat}
    (hrun : slabAlloc [] s c = some (s', a)) :
    ∃ v' p i, KheapInv s' v' ∧ SameSizes s s' ∧ a = (Cell.slot c p i).addr s ∧
      ¬ (Cell.slot c p i).Held s v ∧
      (∀ b : Cell, b.Held s' v' ↔ b.Held s v ∨ b = .slot c p i) ∧
      ∀ q, (s'.metadata q).isSlab = true → (s.metadata q).isSlab = true ∨ q = p := by
  simp only [slabAlloc, map_eq_some_iff] at hrun
  obtain ⟨s1, hrefill, htake⟩ := hrun
  obtain ⟨v1, hre, hsize1, hheld1⟩ := slabRefill_spec h hc hrefill
  obtain ⟨v', p, i, hinv, hsize2, haddr, hnew, hpage, hheld2⟩ := slabTake_spec hre hc
  have hmd := slabTake_metadata s1 c
  rw [htake] at hinv hsize2 haddr hheld2 hmd
  refine ⟨v', p, i, hinv, hsize1.trans hsize2, ?_, ?_, ?_, ?_⟩
  · refine haddr.trans ?_
    rw [Cell.addr, Cell.addr, hsize1 c]
  · rwa [← hheld1]
  · intro b
    rw [hheld2, hheld1]
  · intro q hq
    rw [hmd] at hq
    rcases slabRefill_cases hrefill with rfl | ⟨s2, hserve, hmark⟩
    · exact .inl hq
    · have hslot : (Cell.slot c p i).Held s' v' := (hheld2 _).mpr (.inr rfl)
      have hp32 : p < 2 ^ 32 := hinv.core.live_lt (hinv.core.home_live hslot)
      rw [hmark, hpage, pageIndex_pageAddr hp32] at hq
      by_cases hqp : q = p
      · exact .inr hqp
      · rw [update_of_ne hqp] at hq
        exact .inl (noNewSlab_buddyServe hserve q hq)

end DestinX
