import DestinX.Heap.KheapInvariant

/-!
# Moves of the kernel heap

Every operation of `kmalloc` and `kfree` is a sequence of six moves on the
abstract state: taking a block from the buddy allocator and giving one back,
changing the contents of a slab, rewriting the metadata of a block, and linking
or unlinking a slab. Each move keeps `KheapCore`.
-/

namespace DestinX

open Base Function

variable {s s' : Heap} {v : KheapView} {full : Bool} {c p i k : Nat} {fl : List Nat}

def InPage (p x : Nat) : Prop := pageAddr p ≤ x ∧ x < pageAddr p + pageSize

lemma inLinks_inPage {x : Nat} (hx : InLinks p x) : InPage p x := by
  simp only [InLinks, InPage, pageSize] at *
  omega

lemma inSlab_inPage {z x : Nat} (hz : 8 ≤ z) (hfl : ∀ i ∈ fl, i < slots z)
    (hx : InSlab z p fl x) : InPage p x := by
  rcases hx with hx | ⟨i, hi, hx, hx'⟩
  · simp only [InPage, pageSize] at *
    omega
  · have hin := objAddr_inside (p := p) (hfl i hi)
    simp only [InPage]
    omega

lemma inPage_unique {q x : Nat} (hx : InPage p x) (hx' : InPage q x) : p = q := by
  simp only [InPage, pageAddr, pageSize] at *
  omega

/-- The contents of a slab and the links of a slab are different bytes. -/
lemma inSlab_not_inLinks {z q x : Nat} (hz : 8 ≤ z) (hfl : ∀ i ∈ fl, i < slots z)
    (hx : InSlab z p fl x) : ¬ InLinks q x := by
  intro hl
  obtain rfl := inPage_unique (inSlab_inPage hz hfl hx) (inLinks_inPage hl)
  simp only [InLinks] at hl
  rcases hx with hx | ⟨i, hi, hx, hx'⟩
  · omega
  · have hin := objAddr_inside (p := p) (hfl i hi)
    omega

lemma KheapCore.size_ge (h : KheapCore s v) (hp : p ∈ v.lists full c) :
    8 ≤ (s.caches c).objSize := (h.sized c (h.lists.bounded full c p hp).1).1

lemma slab_block {x : Nat} (hp : v.live p = some 0) (hx : InPage p x) :
    ∃ q j, v.live q = some j ∧ pageAddr q ≤ x ∧ x < pageAddr q + pageSize * 2 ^ j :=
  ⟨p, 0, hp, hx.1, by simpa using hx.2⟩

/-! ## Contents of a slab -/

/-- New contents of one page that is a slab or is about to become one. -/
lemma KheapCore.setPage (h : KheapCore s v) (hp : v.live p = some 0) {m : Mem}
    (hout : ∀ x, ¬ InPage p x → m x = s.mem x)
    (hlinks : OnList v.lists p → ∀ x, InLinks p x → m x = s.mem x)
    (hpage : ∀ full c, p ∈ v.lists full c → SlabPage m (s.caches c).objSize c p fl) :
    KheapCore { s with mem := m } { v with objs := update v.objs p fl } where
  buddy := by
    refine h.buddy.transport ?_ rfl rfl
    intro x hx
    have hin : InPage p x := by
      by_contra hn
      exact hx (hout x hn)
    exact slab_block hp hin
  order := h.order
  lists := by
    refine h.lists.congr rfl ?_
    intro q hq x hx
    by_cases hqp : q = p
    · subst hqp
      exact hlinks hq x hx
    · exact hout x fun hn => hqp (inPage_unique (inLinks_inPage hx) hn)
  sized := h.sized
  page := by
    intro full c q hq
    by_cases hqp : q = p
    · subst hqp
      simpa using hpage full c hq
    · simp only [update_of_ne hqp]
      have hsp := h.page hq
      apply hsp.congr
      intro x hx
      exact hout x fun hn =>
        hqp (inPage_unique (inSlab_inPage (h.size_ge hq) hsp.inside hx) hn)
  slabLive := h.slabLive

/-- No byte of a cell belongs to a slab header or to the link word of a free
slot. -/
lemma KheapCore.cell_outside (h : KheapCore s v) {a : Cell} (ha : a.Held s v) {q x : Nat}
    (hq : q ∈ v.lists full c) (hx : a.addr s ≤ x) (hx' : x < a.addr s + a.size s) :
    ¬ InSlab (s.caches c).objSize q (v.objs q) x ∧ ¬ InLinks q x := by
  have hin := Cell.inside ha
  by_cases hqp : a.home.1 = q
  · cases a with
    | block p k =>
      obtain rfl : p = q := hqp
      exact absurd ⟨full, c, hq⟩ ha.2
    | slot c' p i =>
      obtain rfl : p = q := hqp
      obtain ⟨⟨full', hp⟩, hi, hfree⟩ := ha
      obtain ⟨rfl, rfl⟩ := h.lists.owner hp hq
      have hobj := objAddr_inside (p := p) hi
      simp only [Cell.addr, Cell.size] at hx hx'
      constructor
      · rintro (hhead | ⟨j, hj, hjx, hjx'⟩)
        · omega
        · have hij : i ≠ j := fun he => hfree (he ▸ hj)
          have hap := objAddr_apart (z := (s.caches c').objSize) (p := p) hij
          have hz := h.size_ge hp
          omega
      · simp only [InLinks]
        omega
  · have hap := h.blocks_apart (h.home_live ha) (h.slabLive ⟨full, c, hq⟩) hqp
    have hout : ¬ InPage q x := by
      simp only [InPage, pow_zero, Nat.mul_one] at *
      omega
    exact ⟨fun hs => hout (inSlab_inPage (h.size_ge hq) (h.page hq).inside hs),
      fun hl => hout (inLinks_inPage hl)⟩

lemma KheapCore.write (h : KheapCore s v) {a : Cell} (ha : a.Held s v) {x : Nat}
    (hx : a.addr s ≤ x) (hx' : x < a.addr s + a.size s) (b : UInt8) :
    KheapCore { s with mem := update s.mem x b } v := by
  have hin := Cell.inside ha
  have hother : ∀ y, y ≠ x → update s.mem x b y = s.mem y :=
    fun y hy => update_of_ne hy _ _
  refine ⟨?_, h.order, ?_, h.sized, ?_, h.slabLive⟩
  · refine h.buddy.transport ?_ rfl rfl
    intro y hy
    obtain rfl : y = x := by
      by_contra hne
      exact hy (hother y hne)
    exact ⟨a.home.1, a.home.2, h.home_live ha, by omega, by omega⟩
  · refine h.lists.congr rfl ?_
    rintro q ⟨full, c, hq⟩ y hy
    exact hother y fun he => (h.cell_outside ha hq hx hx').2 (he ▸ hy)
  · intro full c q hq
    exact (h.page hq).congr fun y hy =>
      hother y fun he => (h.cell_outside ha hq hx hx').1 (he ▸ hy)

/-! ## Linking and unlinking a slab -/

lemma linkSlab_objSize (s : Heap) (full : Bool) (c slab c' : Nat) :
    ((linkSlab s full c slab).caches c').objSize = (s.caches c').objSize := by
  rw [linkSlab, setCache_caches]
  split
  next h => simp [h]
  · rfl

lemma unlinkSlab_objSize (s : Heap) (full : Bool) (c slab c' : Nat) :
    ((unlinkSlab s full c slab).caches c').objSize = (s.caches c').objSize := by
  rw [unlinkSlab, setCache_caches]
  split
  next h => simp [h]
  · rfl

section

variable (h : KheapCore s v)
include h

lemma KheapCore.unlink_page (hp : p ∈ v.lists full c) {full' : Bool} {q c' : Nat}
    (hq : q ∈ v.lists full' c') :
    SlabPage (unlinkSlab s full c (pageAddr p)).mem (s.caches c').objSize c' q (v.objs q) := by
  have hsp := h.page hq
  apply hsp.congr
  intro x hx
  exact unlinkSlab_outside h.lists hp fun q' _ => inSlab_not_inLinks (h.size_ge hq) hsp.inside hx

lemma KheapCore.unlink (hp : p ∈ v.lists full c) : KheapCore (unlinkSlab s full c (pageAddr p))
      { v with lists := setList v.lists full c ((v.lists full c).erase p) } where
  buddy := by
    refine h.buddy.transport ?_ rfl rfl
    intro x hx
    by_contra hn
    apply hx
    apply unlinkSlab_outside h.lists hp
    intro q hq hl
    exact hn (slab_block (h.slabLive hq) (inLinks_inPage hl))
  order := h.order
  lists := h.lists.unlink hp
  sized := by
    intro c' hc'
    rw [unlinkSlab_objSize]
    exact h.sized c' hc'
  page := by
    intro full' c' q hq
    rw [unlinkSlab_objSize]
    exact h.unlink_page hp ((mem_unlink h.lists hp).mp hq).1
  slabLive := by
    rintro q ⟨full', c', hq⟩
    exact h.slabLive ⟨full', c', ((mem_unlink h.lists hp).mp hq).1⟩

lemma KheapCore.link (hc : c < numCaches) (hlive : v.live p = some 0) (hnew : ¬ OnList v.lists p)
    (hpage : SlabPage s.mem (s.caches c).objSize c p (v.objs p)) :
    KheapCore (linkSlab s full c (pageAddr p))
      { v with lists := setList v.lists full c (p :: v.lists full c) } where
  buddy := by
    refine h.buddy.transport ?_ rfl rfl
    intro x hx
    by_contra hn
    apply hx
    apply linkSlab_outside h.lists hc
    rintro q (hq | rfl) hl
    · exact hn (slab_block (h.slabLive hq) (inLinks_inPage hl))
    · exact hn (slab_block hlive (inLinks_inPage hl))
  order := h.order
  lists := h.lists.link hc (h.live_lt hlive) hnew
  sized := by
    intro c' hc'
    rw [linkSlab_objSize]
    exact h.sized c' hc'
  page := by
    intro full' c' q hq
    rw [linkSlab_objSize]
    have hz : 8 ≤ (s.caches c').objSize ∧ SlabPage s.mem (s.caches c').objSize c' q (v.objs q) := by
      rcases mem_link.mp hq with hq | ⟨rfl, rfl, rfl⟩
      · exact ⟨h.size_ge hq, h.page hq⟩
      · exact ⟨(h.sized c' hc).1, hpage⟩
    apply hz.2.congr
    intro x hx
    exact linkSlab_outside h.lists hc fun q' _ => inSlab_not_inLinks hz.1 hz.2.inside hx
  slabLive := by
    rintro q ⟨full', c', hq⟩
    rcases mem_link.mp hq with hq | ⟨rfl, _, _⟩
    · exact h.slabLive ⟨full', c', hq⟩
    · exact hlive

/-! ## Metadata and blocks -/

lemma KheapCore.setMetadata (hlive : v.live p = some k) {md : PageMetadata}
    (hfree : md.isFree = false) (horder : md.order = k) : KheapCore (s.setMetadata p md) v where
  buddy := h.buddy.setMetadata hlive hfree
  order := by
    intro q j hq
    by_cases hqp : q = p
    · subst hqp
      have : j = k := Option.some.inj (hq.symm.trans hlive)
      simp [Heap.setMetadata, horder, this]
    · simp only [Heap.setMetadata, update_of_ne hqp]
      exact h.order q j hq
  lists := h.lists.congr rfl fun _ _ _ _ => rfl
  sized := h.sized
  page := h.page
  slabLive := h.slabLive

/-- What the buddy allocator keeps is enough for the slabs. -/
lemma KheapCore.keeps {free : Nat → List Nat} {live : Nat → Option Nat}
    (hb : BuddyCore startPages s' free live)
    (ho : ∀ p k, live p = some k → (s'.metadata p).order = k) {live' : Nat → Option Nat}
    (hk : Keeps s s' live') (hlive : ∀ p, OnList v.lists p → live' p = some 0 ∧ live p = some 0) :
    KheapCore s' { v with free := free, live := live } where
  buddy := hb
  order := ho
  lists := by
    apply h.lists.congr hk.caches
    intro q hq x hx
    have hin := inLinks_inPage hx
    exact hk.bytes q 0 x (hlive q hq).1 hin.1 (by simpa using hin.2)
  sized := by
    rw [hk.caches]
    exact h.sized
  page := by
    intro full c q hq
    rw [hk.caches]
    have hsp := h.page hq
    apply hsp.congr
    intro x hx
    have hin := inSlab_inPage (h.size_ge hq) hsp.inside hx
    exact hk.bytes q 0 x (hlive q ⟨full, c, hq⟩).1 hin.1 (by simpa using hin.2)
  slabLive hp := (hlive _ hp).2

lemma KheapCore.serve {order a : Nat} (hs : buddyServe s order = some (s', a)) :
    order ≤ maxOrders ∧ ∃ p free, a = pageAddr p ∧ v.live p = none ∧
      KheapCore s' { v with free := free, live := update v.live p (some order) } ∧
      s'.metadata p = ⟨order, false, false⟩ ∧ Keeps s s' v.live := by
  obtain ⟨ho, p, free, ha, hnone, hb, hmd, hk, -⟩ := buddyServe_spec (by decide) h.buddy hs
  refine ⟨ho, p, free, ha, hnone, h.keeps hb ?_ hk ?_, hmd, hk⟩
  · intro q j hq
    by_cases hqp : q = p
    · subst hqp
      simp only [update_self, Option.some.injEq] at hq
      rw [hmd, hq]
    · rw [update_of_ne hqp] at hq
      rw [hk.metadata q j hq]
      exact h.order q j hq
  · intro q hq
    have hlive := h.slabLive hq
    have hqp : q ≠ p := by
      rintro rfl
      rw [hnone] at hlive
      cases hlive
    exact ⟨hlive, by rw [update_of_ne hqp, hlive]⟩

lemma KheapCore.release (hlive : v.live p = some k) (hoff : ¬ OnList v.lists p) :
    ∃ free, KheapCore (buddyFree s (pageAddr p))
        { v with free := free, live := update v.live p none } ∧
      Keeps s (buddyFree s (pageAddr p)) (update v.live p none) := by
  obtain ⟨free, hb, hk, -⟩ := buddyFree_spec (by decide) (by decide) h.buddy hlive
    (h.order p k hlive)
  have hkeep : ∀ q, q ≠ p → update v.live p none q = v.live q :=
    fun q hq => update_of_ne hq _ _
  refine ⟨free, h.keeps hb ?_ hk ?_, hk⟩
  · intro q j hq
    have hqp : q ≠ p := by
      rintro rfl
      simp at hq
    rw [hk.metadata q j hq]
    exact h.order q j (hkeep q hqp ▸ hq)
  · intro q hq
    have hqp : q ≠ p := fun he => hoff (he ▸ hq)
    exact ⟨(hkeep q hqp).trans (h.slabLive hq), (hkeep q hqp).trans (h.slabLive hq)⟩

end

end DestinX
