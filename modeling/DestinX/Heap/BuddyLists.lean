import DestinX.Heap.Buddy
import DestinX.Base.MemList
import DestinX.Base.Dyadic

/-!
# Page addresses and the free lists

The list helpers of the buddy allocator as list operations: `buddy_list_add`
inserts at the head and `buddy_list_remove` unlinks, and both leave every byte
alone outside the nodes of the list and the page they are called with.
-/

namespace DestinX

open Base Function List

/-! ## Addresses of heap pages -/

lemma pageIndex_pageAddr {p : Nat} (hp : p < 2 ^ 32) : pageIndex (pageAddr p) = p := by
  simp only [pageIndex, pageAddr, pageSize, heapStart]
  omega

lemma pageAddr_lt {p : Nat} (hp : p < 2 ^ 32) : pageAddr p < 2 ^ 64 := by
  simp only [pageAddr, pageSize, heapStart]
  omega

lemma pageAddr_ne_zero (p : Nat) : pageAddr p ≠ 0 := by
  simp only [pageAddr, heapStart]
  omega

lemma pageAddr_injective : Function.Injective pageAddr := by
  intro p q h
  simp only [pageAddr, pageSize] at h
  omega

/-- Flipping one bit of the page number is an exclusive or on the address. -/
lemma pageAddr_xor {p i : Nat} (hp : p < 2 ^ 32) (hi : i ≤ maxOrders) :
    pageAddr p ^^^ (2 ^ i * pageSize) = pageAddr (p ^^^ 2 ^ i) := by
  have hi' : 2 ^ i ≤ 2 ^ 12 := Nat.pow_le_pow_right (by norm_num) hi
  have hstart : ∀ q, pageAddr q = 2 ^ 45 * 524287 + q * 2 ^ 12 := by
    intro q
    simp only [pageAddr, pageSize, heapStart]
    omega
  have hsize : 2 ^ i * pageSize = 2 ^ i * 2 ^ 12 := rfl
  rw [hstart, hstart, hsize, xor_high (by omega) (by omega), mul_two_pow_xor]

lemma pages_apart {sz : Nat} (hsz : sz ≤ pageSize) (l : List Nat) :
    NodesApart sz (l.map pageAddr) := by
  intro b hb c hc hne
  obtain ⟨p, _, rfl⟩ := mem_map.mp hb
  obtain ⟨q, _, rfl⟩ := mem_map.mp hc
  have hpq : p ≠ q := fun h => hne (by rw [h])
  simp only [pageSize] at hsz
  simp only [Apart, pageAddr, pageSize]
  omega

/-- A list of pages survives a change of memory that leaves its link words alone. -/
lemma pageList_congr {m m' : Mem} {head o : Nat} {l : List Nat}
    (hl : MList m o (o + 8) head (l.map pageAddr))
    (h : ∀ q ∈ l, ∀ x, pageAddr q + o ≤ x → x < pageAddr q + o + 16 → m' x = m x) :
    MList m' o (o + 8) head (l.map pageAddr) := by
  apply MList.congr hl
  · intro b hb
    obtain ⟨q, hq, rfl⟩ := mem_map.mp hb
    exact load64_congr fun x hx hx' => h q hq x (by omega) (by omega)
  · intro b hb
    obtain ⟨q, hq, rfl⟩ := mem_map.mp hb
    exact load64_congr fun x hx hx' => h q hq x (by omega) (by omega)

/-- The links of a page are put at the front of a list of pages, in either order. -/
lemma pageList_push {m m' : Mem} {head o p : Nat} {l : List Nat}
    (hl : MList m o (o + 8) head (l.map pageAddr)) (ho : o + 16 ≤ pageSize) (hp : p ∉ l)
    (hlt : ∀ q ∈ p :: l, q < 2 ^ 32)
    (hm : m' = store64 (store64 m (pageAddr p + o) 0) (pageAddr p + (o + 8)) head ∨
      m' = store64 (store64 m (pageAddr p + (o + 8)) head) (pageAddr p + o) 0) :
    MList (if head = 0 then m' else store64 m' (head + o) (pageAddr p)) o (o + 8) (pageAddr p)
      ((p :: l).map pageAddr) := by
  have hw : LinkWords (o + 16) o (o + 8) := ⟨by omega, by omega, .inl (by omega)⟩
  have hs := pages_apart ho (p :: l)
  have hhead : head < 2 ^ 64 := by
    rcases hl.head_mem with h | h
    · omega
    · obtain ⟨q, hq, rfl⟩ := mem_map.mp h
      exact pageAddr_lt (hlt q (mem_cons_of_mem p hq))
  have hpl : pageAddr p ∉ l.map pageAddr := by
    rw [mem_map_of_injective pageAddr_injective]
    exact hp
  refine hl.pushed hw hs (pageAddr_ne_zero p) hpl (pageAddr_lt (hlt p mem_cons_self)) fun b hb => ?_
  rcases hm with rfl | rfl
  · exact load_store_words hs mem_cons_self hb hw (by norm_num) hhead
  · exact (load_store_words hs mem_cons_self hb hw.symm hhead (by norm_num)).symm

/-- Both neighbours of a page take over its links, in either order. -/
lemma pageList_detach {m : Mem} {head o i j p : Nat} {l1 l2 : List Nat}
    (hl : MList m o (o + 8) head ((l1 ++ p :: l2).map pageAddr)) (ho : o + 16 ≤ pageSize)
    (hij : i = o ∧ j = o + 8 ∨ i = o + 8 ∧ j = o) :
    (load64 (detach m i j (pageAddr p)) (pageAddr p + j) = load64 m (pageAddr p + j) ∧
      load64 (detach m i j (pageAddr p)) (pageAddr p + i) = load64 m (pageAddr p + i)) ∧
    MList (detach (detach m i j (pageAddr p)) j i (pageAddr p)) o (o + 8)
      (if load64 m (pageAddr p + o) = 0 then load64 m (pageAddr p + (o + 8)) else head)
      ((l1 ++ l2).map pageAddr) ∧
    ∀ x, (∀ q ∈ l1 ++ p :: l2, x < pageAddr q + o ∨ pageAddr q + o + 16 ≤ x) →
      detach (detach m i j (pageAddr p)) j i (pageAddr p) x = m x := by
  have hw : LinkWords (o + 16) o (o + 8) := ⟨by omega, by omega, .inl (by omega)⟩
  have hs := pages_apart ho (l1 ++ p :: l2)
  have hx : ∀ x, (∀ q ∈ l1 ++ p :: l2, x < pageAddr q + o ∨ pageAddr q + o + 16 ≤ x) →
      ∀ b ∈ (l1 ++ p :: l2).map pageAddr,
        (x < b + i ∨ b + i + 8 ≤ x) ∧ (x < b + j ∨ b + j + 8 ≤ x) := by
    intro x h b hb
    obtain ⟨q, hq, rfl⟩ := mem_map.mp hb
    have := h q hq
    omega
  rw [map_append] at hl hs hx
  have hwij : LinkWords (o + 16) i j := by
    rcases hij with ⟨rfl, rfl⟩ | ⟨rfl, rfl⟩
    · exact hw
    · exact hw.symm
  have hi := hl.neighbours (by omega : i = o ∨ i = o + 8)
  have hj := hl.neighbours (by omega : j = o ∨ j = o + 8)
  have h0 : ∀ b ∈ l1.map pageAddr ++ pageAddr p :: l2.map pageAddr, b ≠ 0 :=
    fun b hb => hl.ne_zero hb
  refine ⟨detach_load_self hs h0 hwij (by simp) hi.2 hi.1, ?_, fun x h =>
    detach_twice_outside hs h0 hwij (by simp) hi.2 hi.1 hj.1 (hx x h)⟩
  rw [map_append]
  exact hl.detached hw hs hij

/-- The list of free blocks of one order, as the links in memory describe it. -/
def FreeList (m : Mem) (head : Nat) (l : List Nat) : Prop :=
  MList m 0 8 head (l.map pageAddr)

variable {s : Heap} {p q k : Nat} {l l1 l2 : List Nat}

lemma FreeList.congr {m m' : Mem} {head : Nat} (hl : FreeList m head l)
    (h : ∀ q ∈ l, ∀ x, pageAddr q ≤ x → x < pageAddr q + 16 → m' x = m x) :
    FreeList m' head l := pageList_congr hl h

lemma FreeList.nodup {m : Mem} {head : Nat} (hl : FreeList m head l) : l.Nodup :=
  (MList.nodup hl).of_map pageAddr

lemma FreeList.head_eq {m : Mem} {head : Nat} (hl : FreeList m head (p :: l)) :
    head = pageAddr p := (MList.head_eq hl).1

lemma FreeList.head_zero_iff {m : Mem} {head : Nat} (hl : FreeList m head l) :
    head = 0 ↔ l = [] := by rw [MList.nil_iff hl, map_eq_nil_iff]

/-! ## Insertion -/

lemma buddyListAdd_outside (hl : FreeList s.mem (s.freeAreas k) l) {x : Nat}
    (hp : ∀ q ∈ p :: l, x < pageAddr q ∨ pageAddr q + 16 ≤ x) :
    (buddyListAdd s (pageAddr p) k).mem x = s.mem x := by
  have hx := hp p (by simp)
  have hlast : ∀ m v, (if s.freeAreas k = 0 then m else store64 m (s.freeAreas k + 0) v) x =
      m x := by
    intro m v
    apply cond_store_outside hl.head_mem
    intro b hb
    obtain ⟨q, hq, rfl⟩ := mem_map.mp hb
    have := hp q (mem_cons_of_mem p hq)
    omega
  refine (hlast _ _).trans ?_
  rw [store64_outside (by omega), store64_outside (by omega)]

lemma buddyListAdd_list (hl : FreeList s.mem (s.freeAreas k) l) (hp : p ∉ l)
    (hlt : p < 2 ^ 32) (hlt' : ∀ q ∈ l, q < 2 ^ 32) :
    FreeList (buddyListAdd s (pageAddr p) k).mem (pageAddr p) (p :: l) :=
  pageList_push hl (by decide) hp (forall_mem_cons.mpr ⟨hlt, hlt'⟩) (.inl rfl)

/-! ## Unlinking -/

lemma buddyListRemove_freeAreas (s : Heap) (addr k : Nat) : (buddyListRemove s addr k).freeAreas =
      if load64 s.mem addr = 0 then update s.freeAreas k (load64 s.mem (addr + 8))
      else s.freeAreas := by
  unfold buddyListRemove Heap.setMetadata
  dsimp only

lemma buddyListRemove_list (hl : FreeList s.mem (s.freeAreas k) (l1 ++ p :: l2)) :
    FreeList (buddyListRemove s (pageAddr p) k).mem
      ((buddyListRemove s (pageAddr p) k).freeAreas k) (l1 ++ l2) := by
  have hhead : (buddyListRemove s (pageAddr p) k).freeAreas k =
      if load64 s.mem (pageAddr p) = 0 then load64 s.mem (pageAddr p + 8) else s.freeAreas k := by
    rw [buddyListRemove_freeAreas]
    by_cases h0 : load64 s.mem (pageAddr p) = 0
    · simp [h0]
    · simp [h0]
  rw [hhead]
  exact (pageList_detach hl (by decide) (.inl ⟨rfl, rfl⟩)).2.1

lemma buddyListRemove_outside (hl : FreeList s.mem (s.freeAreas k) (l1 ++ p :: l2)) {x : Nat}
    (hx : ∀ q ∈ l1 ++ p :: l2, x < pageAddr q ∨ pageAddr q + 16 ≤ x) :
    (buddyListRemove s (pageAddr p) k).mem x = s.mem x := by
  exact (pageList_detach hl (by decide) (.inl ⟨rfl, rfl⟩)).2.2 x hx

/-! ## The other globals -/

lemma buddyListAdd_metadata (s : Heap) {p : Nat} (k : Nat) (hp : p < 2 ^ 32) :
    (buddyListAdd s (pageAddr p) k).metadata = update s.metadata p ⟨k % 16, true, false⟩ := by
  unfold buddyListAdd Heap.setMetadata
  rw [pageIndex_pageAddr hp]

lemma buddyListAdd_freeAreas (s : Heap) (addr k : Nat) :
    (buddyListAdd s addr k).freeAreas = update s.freeAreas k addr := by
  unfold buddyListAdd Heap.setMetadata
  dsimp only

lemma buddyListRemove_metadata (s : Heap) {p : Nat} (k : Nat) (hp : p < 2 ^ 32) :
    (buddyListRemove s (pageAddr p) k).metadata =
      update s.metadata p { s.metadata p with isFree := false } := by
  unfold buddyListRemove Heap.setMetadata
  rw [pageIndex_pageAddr hp]

end DestinX
