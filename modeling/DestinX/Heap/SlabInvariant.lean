import DestinX.Heap.SlabLists
import DestinX.Heap.BuddyInvariant
import Mathlib.Data.List.Perm.Subperm

/-!
# Slabs and their lists

The abstract state is the list of pages behind each list head and, for every slab, the list of
its free slots. `SlabPage` ties one slab to the bytes of its page, `SlabLists` ties all lists to
the link words. The two read disjoint bytes of a page.
-/

namespace DestinX

open Base List Nat

/-- The number of objects of size `z` in one slab. -/
def slots (z : Nat) : Nat := (pageSize - slabHeader) / z

def objAddr (z p i : Nat) : Nat := pageAddr p + slabHeader + z * i

/-! ## One slab -/

/-- The bytes of the slab on page `p` that its contents depend on: the header up
to its links and the link words of the free slots. -/
def InSlab (z p : Nat) (fl : List Nat) (x : Nat) : Prop :=
  (pageAddr p ≤ x ∧ x < pageAddr p + 24) ∨ ∃ i ∈ fl, objAddr z p i ≤ x ∧ x < objAddr z p i + 8

/-- Page `p` is a slab of cache `c` with objects of size `z` and free slots `fl`. -/
structure SlabPage (m : Mem) (z c p : Nat) (fl : List Nat) : Prop where
  chain : Chain (field m 0) (ptr (load64 m (pageAddr p))) (fl.map (objAddr z p))
  inside : ∀ i ∈ fl, i < slots z
  freeCount : load32 m (pageAddr p + 8) = fl.length
  totalCount : load32 m (pageAddr p + 12) = slots z
  parent : load64 m (pageAddr p + 16) = c

variable {m m' : Mem} {z c p i : Nat} {fl : List Nat}

/-- Different slots of one page do not overlap. -/
lemma objAddr_apart {j : Nat} (hne : i ≠ j) :
    objAddr z p i + z ≤ objAddr z p j ∨ objAddr z p j + z ≤ objAddr z p i := by
  simp only [objAddr]
  rcases lt_or_gt_of_ne hne with h | h
  · left
    have := mul_le_mul_left z (succ_le_of_lt h)
    rw [mul_succ] at this
    omega
  · right
    have := mul_le_mul_left z (succ_le_of_lt h)
    rw [mul_succ] at this
    omega

lemma objAddr_inside (hi : i < slots z) :
    pageAddr p + 40 ≤ objAddr z p i ∧ objAddr z p i + z ≤ pageAddr p + pageSize := by
  have h : z * (i + 1) ≤ pageSize - slabHeader := calc
    z * (i + 1) ≤ z * slots z := mul_le_mul_left z hi
    _ ≤ pageSize - slabHeader := mul_div_le _ _
  rw [mul_succ] at h
  simp only [objAddr, slabHeader, pageSize] at *
  omega

lemma SlabPage.nodup (hp : SlabPage m z c p fl) : fl.Nodup := hp.chain.nodup.of_map _

lemma slots_subperm (hnd : fl.Nodup) (hin : ∀ i ∈ fl, i < slots z) :
    fl.Subperm (List.range (slots z)) :=
  subperm_of_subset hnd fun i hi => mem_range.mpr (hin i hi)

lemma SlabPage.length_le (hp : SlabPage m z c p fl) : fl.length ≤ slots z := by
  simpa using (slots_subperm hp.nodup hp.inside).length_le

/-- A slab with as many free slots as it has slots has no other slot. -/
lemma SlabPage.all_free (hp : SlabPage m z c p fl) (hlen : fl.length = slots z)
    (hi : i < slots z) : i ∈ fl := by
  have hperm := (slots_subperm hp.nodup hp.inside).perm_of_length_le (by simp [hlen])
  exact hperm.mem_iff.mpr (mem_range.mpr hi)

lemma SlabPage.congr (hp : SlabPage m z c p fl) (h : ∀ x, InSlab z p fl x → m' x = m x) :
    SlabPage m' z c p fl := by
  have hword : load64 m' (pageAddr p) = load64 m (pageAddr p) :=
    load64_congr fun x hx hx' => h x (.inl ⟨by omega, by omega⟩)
  refine ⟨?_, hp.inside, ?_, ?_, ?_⟩
  · rw [hword]
    apply hp.chain.congr
    intro b hb
    obtain ⟨i, hi, rfl⟩ := mem_map.mp hb
    rw [field, field, load64_congr fun x hx hx' => h x (.inr ⟨i, hi, by omega, by omega⟩)]
  · rw [← hp.freeCount]
    exact load32_congr fun x hx hx' => h x (.inl ⟨by omega, by omega⟩)
  · rw [← hp.totalCount]
    exact load32_congr fun x hx hx' => h x (.inl ⟨by omega, by omega⟩)
  · rw [← hp.parent]
    exact load64_congr fun x hx hx' => h x (.inl ⟨by omega, by omega⟩)

lemma slots_lt (hz : 8 ≤ z) : slots z < 2 ^ 32 := by
  have : slots z ≤ (pageSize - slabHeader) / 8 := div_le_div_left hz (by norm_num)
  have h : (pageSize - slabHeader) / 8 = 507 := rfl
  omega

lemma objAddr_lt (hp : p < 2 ^ 32) (hi : i < slots z) : objAddr z p i < 2 ^ 64 := by
  have := objAddr_inside (p := p) hi
  simp only [pageAddr, pageSize, heapStart] at *
  omega

/-! ### Taking and returning an object -/

/-- The memory after the two stores of `slab_alloc` to the slab. -/
def popObject (m : Mem) (slab : Nat) : Mem :=
  let m₁ := store64 m slab (load64 m (load64 m slab))
  store32 m₁ (slab + 8) ((load32 m₁ (slab + 8) + (2 ^ 32 - 1)) % 2 ^ 32)

lemma popObject_outside {x : Nat} (hx : ¬ (pageAddr p ≤ x ∧ x < pageAddr p + 12)) :
    popObject m (pageAddr p) x = m x := by
  rw [popObject, store32_outside (by omega), store64_outside (by omega)]

lemma SlabPage.first (hp : SlabPage m z c p (i :: fl)) :
    load64 m (pageAddr p) = objAddr z p i := (ptr_eq_some.mp hp.chain.1).1

lemma SlabPage.pop (hz : 8 ≤ z) (hp : SlabPage m z c p (i :: fl)) :
    SlabPage (popObject m (pageAddr p)) z c p fl := by
  have hout := fun x => popObject_outside (m := m) (p := p) (x := x)
  have hlen := hp.length_le
  have hslots := slots_lt hz
  have hcount : load32 (store64 m (pageAddr p) (load64 m (objAddr z p i))) (pageAddr p + 8) =
      fl.length + 1 := by
    rw [load32_store64_apart (by simp only [Apart]; omega), hp.freeCount, length_cons]
  rw [length_cons] at hlen
  refine ⟨?_, fun j hj => hp.inside j (by simp [hj]), ?_, ?_, ?_⟩
  · have hhead : load64 (popObject m (pageAddr p)) (pageAddr p) = load64 m (objAddr z p i + 0) := by
      rw [popObject, load64_store32_apart (by simp only [Apart]; omega),
        load64_store64_same (load64_lt _ _), hp.first, add_zero]
    rw [hhead]
    apply Chain.congr hp.chain.2
    intro b hb
    obtain ⟨j, hj, rfl⟩ := mem_map.mp hb
    have hin := objAddr_inside (p := p) (hp.inside j (by simp [hj]))
    rw [field, field, load64_congr fun x hx hx' => hout x (by omega)]
  · rw [popObject, hp.first, load32_store32_same (mod_lt _ (by norm_num))]
    omega
  · rw [← hp.totalCount]
    exact load32_congr fun x hx hx' => hout x (by omega)
  · rw [← hp.parent]
    exact load64_congr fun x hx hx' => hout x (by omega)

/-- The memory after the three stores of `slab_free` that return an object. -/
def pushObject (m : Mem) (slab obj : Nat) : Mem :=
  let m₁ := store64 (store64 m obj (load64 m slab)) slab obj
  store32 m₁ (slab + 8) ((load32 m₁ (slab + 8) + 1) % 2 ^ 32)

lemma pushObject_outside {x obj : Nat} (hx : ¬ (pageAddr p ≤ x ∧ x < pageAddr p + 12))
    (hx' : ¬ (obj ≤ x ∧ x < obj + 8)) : pushObject m (pageAddr p) obj x = m x := by
  rw [pushObject, store32_outside (by omega), store64_outside (by omega),
    store64_outside (by omega)]

lemma SlabPage.push (hz : 8 ≤ z) (hp32 : p < 2 ^ 32) (hp : SlabPage m z c p fl) (hi : i < slots z)
    (hfree : i ∉ fl) : SlabPage (pushObject m (pageAddr p) (objAddr z p i)) z c p (i :: fl) := by
  have hin := objAddr_inside (p := p) hi
  have hout : ∀ x, ¬ (pageAddr p ≤ x ∧ x < pageAddr p + 12) →
      ¬ (objAddr z p i ≤ x ∧ x < objAddr z p i + 8) →
      pushObject m (pageAddr p) (objAddr z p i) x = m x := fun x => pushObject_outside
  have hslot : ∀ j ∈ i :: fl, j < slots z := by
    intro j hj
    rcases mem_cons.mp hj with rfl | hj
    · exact hi
    · exact hp.inside j hj
  have hobj := objAddr_lt hp32 hi
  have hne : objAddr z p i ≠ 0 := by omega
  have hslots := slots_lt hz
  refine ⟨⟨?_, ?_⟩, ?_, ?_, ?_, ?_⟩
  · rw [pushObject, load64_store32_apart (by simp only [Apart]; omega), load64_store64_same hobj]
    exact ptr_eq_some.mpr ⟨rfl, hne⟩
  · have hlink : load64 (pushObject m (pageAddr p) (objAddr z p i)) (objAddr z p i + 0) =
        load64 m (pageAddr p) := by
      rw [add_zero, pushObject, load64_store32_apart (by simp only [Apart]; omega),
        load64_store64_apart (by simp only [Apart]; omega), load64_store64_same (load64_lt _ _)]
    rw [field, hlink]
    apply Chain.congr hp.chain
    intro b hb
    obtain ⟨j, hj, rfl⟩ := mem_map.mp hb
    have hjn : i ≠ j := fun h => hfree (h ▸ hj)
    have hap := objAddr_apart (z := z) (p := p) hjn
    have hin' := objAddr_inside (p := p) (hp.inside j hj)
    rw [field, field, load64_congr fun x hx hx' => hout x (by omega) (by omega)]
  · exact hslot
  · rw [pushObject, load32_store32_same (mod_lt _ (by norm_num)),
      load32_store64_apart (by simp only [Apart]; omega),
      load32_store64_apart (by simp only [Apart]; omega), hp.freeCount, length_cons]
    have hlt := (slots_subperm (nodup_cons.mpr ⟨hfree, hp.nodup⟩) hslot).length_le
    simp only [length_cons, length_range] at hlt
    omega
  · rw [← hp.totalCount]
    exact load32_congr fun x hx hx' => hout x (by omega) (by omega)
  · rw [← hp.parent]
    exact load64_congr fun x hx hx' => hout x (by omega) (by omega)

/-! ### A new slab -/

lemma fits_iff (hz : 0 < z) : objAddr z p i + z ≤ pageAddr p + pageSize ↔ i < slots z := by
  rw [slots, lt_iff_add_one_le, le_div_iff_mul_le hz, mul_comm, mul_succ]
  simp only [objAddr, slabHeader, pageSize]
  omega

lemma objAddr_succ (z p i : Nat) : objAddr z p i + z = objAddr z p (i + 1) := by
  simp only [objAddr, mul_succ]
  omega

/-- The loop of `slab_create` from slot `i` on, by induction on the slots left:
it links each slot to the next one and counts them. -/
lemma slabCarve_spec (hz : 8 ≤ z) (hp32 : p < 2 ^ 32) :
    ∀ d fuel m i, i + d = slots z → d < fuel → load32 m (pageAddr p + 8) = i →
      ∃ m', slabCarve z (pageAddr p) fuel m (objAddr z p i) = some m' ∧
        load32 m' (pageAddr p + 8) = slots z ∧
        (∀ j, i ≤ j → j < slots z → load64 m' (objAddr z p j) =
          if j + 1 < slots z then objAddr z p (j + 1) else 0) ∧
        ∀ x, ¬ (pageAddr p + 8 ≤ x ∧ x < pageAddr p + 12) →
          (x < objAddr z p i ∨ pageAddr p + pageSize ≤ x) → m' x = m x := by
  intro d
  induction d with
  | zero =>
    intro fuel m i hi hf hcount
    obtain ⟨fuel, rfl⟩ := exists_eq_succ_of_ne_zero (by omega : fuel ≠ 0)
    have hend : ¬ i < slots z := by omega
    refine ⟨m, ?_, by omega, fun j hj hj' => absurd hj' (by omega), fun _ _ _ => rfl⟩
    simp only [slabCarve, fits_iff (by omega : 0 < z), if_neg hend]
  | succ d ih =>
    intro fuel m i hi hf hcount
    obtain ⟨fuel, rfl⟩ := exists_eq_succ_of_ne_zero (by omega : fuel ≠ 0)
    have hlt : i < slots z := by omega
    have hin := objAddr_inside (p := p) hlt
    have hslots := slots_lt hz
    have hstep := objAddr_succ z p i
    let v := if i + 1 < slots z then objAddr z p (i + 1) else 0
    let m₁ := store64 m (objAddr z p i) v
    let m2 := store32 m₁ (pageAddr p + 8) ((load32 m₁ (pageAddr p + 8) + 1) % 2 ^ 32)
    have hv : v < 2 ^ 64 := by
      by_cases h : i + 1 < slots z
      · simpa only [v, if_pos h] using objAddr_lt hp32 h
      · simp only [v, if_neg h, pow_pos (by norm_num : 0 < 2)]
    have hcount2 : load32 m2 (pageAddr p + 8) = i + 1 := by
      rw [load32_store32_same (mod_lt _ (by norm_num)),
        load32_store64_apart (by simp only [Apart]; omega)]
      omega
    obtain ⟨m', hrun, htotal, hlinks, hframe⟩ := ih fuel m2 (i + 1) (by omega) (by omega) hcount2
    refine ⟨m', ?_, htotal, ?_, ?_⟩
    · rw [slabCarve, if_pos ((fits_iff (by omega)).mpr hlt)]
      simp only [hstep, fits_iff (by omega : 0 < z)]
      exact hrun
    · intro j hj hj'
      rcases lt_or_eq_of_le hj with hlt' | rfl
      · exact hlinks j hlt' hj'
      · have hkeep : load64 m' (objAddr z p i) = load64 m2 (objAddr z p i) :=
          load64_congr fun x hx hx' => hframe x (by omega) (by omega)
        rw [hkeep, load64_store32_apart (by simp only [Apart]; omega), load64_store64_same hv]
    · intro x hx hx'
      rw [hframe x hx (by omega)]
      simp only [m2, m₁]
      rw [store32_outside (by omega), store64_outside (by omega)]

/-- The memory of `slab_create` before its loop. -/
def slabInit (m : Mem) (page c : Nat) : Mem :=
  store32 (store64 (store64 m (page + 16) c) page (page + slabHeader)) (page + 8) 0

/-- A page that `slab_create` has prepared is a slab whose slots are all free. -/
lemma slabCarve_page (hz : 8 ≤ z) (hz' : z + slabHeader ≤ pageSize) (hp32 : p < 2 ^ 32)
    (hc : c < 2 ^ 64) (m : Mem) :
    ∃ m', slabCarve z (pageAddr p) (pageSize + 1) (slabInit m (pageAddr p) c) (objAddr z p 0) =
        some m' ∧
      SlabPage (store32 m' (pageAddr p + 12) (load32 m' (pageAddr p + 8))) z c p
        (List.range (slots z)) ∧
      ∀ x, ¬ (pageAddr p ≤ x ∧ x < pageAddr p + pageSize) →
        store32 m' (pageAddr p + 12) (load32 m' (pageAddr p + 8)) x = m x := by
  have hslots := slots_lt hz
  have hfirst : 0 < slots z := div_pos (by omega) (by omega)
  have hobj : objAddr z p 0 = pageAddr p + 40 := rfl
  have hfuel : slots z < pageSize + 1 :=
    lt_succ_of_le ((div_le_self _ _).trans (sub_le _ _))
  have hcount : load32 (slabInit m (pageAddr p) c) (pageAddr p + 8) = 0 :=
    load32_store32_same (by norm_num)
  obtain ⟨m', hrun, htotal, hlinks, hframe⟩ :=
    slabCarve_spec hz hp32 (slots z) (pageSize + 1) _ 0 (zero_add _) hfuel hcount
  refine ⟨m', hrun, ⟨?_, ?_, ?_, ?_, ?_⟩, ?_⟩
  · have hhead : load64 (store32 m' (pageAddr p + 12) (load32 m' (pageAddr p + 8))) (pageAddr p) =
        objAddr z p 0 := by
      rw [load64_store32_apart (by simp only [Apart]; omega),
        load64_congr fun x hx hx' => hframe x (by omega) (by omega), slabInit,
        load64_store32_apart (by simp only [Apart]; omega)]
      exact load64_store64_same (objAddr_lt hp32 hfirst)
    have hnext : ∀ j < slots z,
        field (store32 m' (pageAddr p + 12) (load32 m' (pageAddr p + 8))) 0 (objAddr z p j) =
          if j + 1 < slots z then some (objAddr z p (j + 1)) else none := by
      intro j hj
      have hin := objAddr_inside (p := p) hj
      rw [field, load64_store32_apart (by simp only [Apart]; omega), add_zero,
        hlinks j (zero_le j) hj]
      split
      next h =>
        have hin' := objAddr_inside (p := p) h
        exact ptr_eq_some.mpr ⟨rfl, by omega⟩
      · rfl
    have hchain := chain_range hnext (slots z) 0 (zero_add _)
    rw [if_pos hfirst, ← range_eq_range'] at hchain
    rw [hhead]
    exact hchain
  · exact fun i hi => mem_range.mp hi
  · rw [load32_store32_apart (by simp only [Apart]; omega), htotal, length_range]
  · rw [load32_store32_same (by omega), htotal]
  · rw [load64_store32_apart (by simp only [Apart]; omega),
      load64_congr fun x hx hx' => hframe x (by omega) (by omega), slabInit,
      load64_store32_apart (by simp only [Apart]; omega),
      load64_store64_apart (by simp only [Apart]; omega), load64_store64_same hc]
  · intro x hx
    have hps : pageSize = 4096 := rfl
    rw [store32_outside (by omega), hframe x (by omega) (by omega), slabInit,
      store32_outside (by omega), store64_outside (by omega), store64_outside (by omega)]

end DestinX
